import Orcashi.Daemon
import Orcashi.MixedId

/-!
# Commands of the daemon

The control socket carries one command per connection: a name and, after the first blank, its
arguments.  `daemon_handle_command` copies it into a `char[512]`, splits it and runs the function of
the name.  Where a function would write outside an array of its own the result is `none`.
-/

namespace Orcashi

open CMemory

/-! ## The daemon -/

/-- `P2P_PORT`. -/
def p2pPort : ℤ := 9000

/-- What the commands ask of their surroundings beside what the node asks. -/
structure DaemonEnv extends Env where
  /-- `ctime(&identity.created_at)` -/
  createdText : CString
  /-- the text in an array on the stack that was not written -/
  stackText : CString
  /-- whether `dht_node_create` returned a node -/
  dhtNodeCreate : Bool
  /-- `dht_node_start(g_dht, DHT_PORT)` -/
  dhtNodeStart : ℤ
  /-- `dht_node_announce(g_dht, id, P2P_PORT)` -/
  dhtNodeAnnounce : CString → ℤ
  /-- `dht_node_announce_secure(g_dht, id, P2P_PORT, public_key, signature)` -/
  dhtNodeAnnounceSecure : CString → CString → CString → ℤ
  /-- `dht_node_lookup(g_dht, ..)` -/
  dhtLookup : CString → Option (IpText × ℤ)
  /-- `create_udp_socket(P2P_PORT)` -/
  p2pSocket : ℤ

/-- The daemon: what its managers hold, `g_dht` and `g_status`, `g_running`.  `announced` is no
variable of the program; it keeps what the announcement of `g_dht` returned. -/
structure Daemon where
  node : Node
  dht : Bool
  dhtConnected : Bool
  p2pReady : Bool
  startTime : Time
  running : Bool
  announced : ℤ

namespace Daemon

/-- The tables of the state manager. -/
def sm (d : Daemon) : StateManager := d.node.shared.sm

end Daemon

/-- What a command leaves behind. -/
structure DaemonReply where
  ret : ℤ
  response : CString
  daemon : Daemon

/-- A command that works on the managers only. -/
def Reply.toDaemon (r : Reply) (d : Daemon) : DaemonReply :=
  ⟨r.ret, r.response, { d with node := r.node }⟩

/-- A command that changes nothing. -/
def Daemon.answer (d : Daemon) (ret : ℤ) (response : CString) : DaemonReply :=
  ⟨ret, cut responseSize response, d⟩

/-! ## Commands on the daemon itself -/

/-- `daemon_cmd_identity` -/
def daemonCmdIdentity (env : DaemonEnv) (d : Daemon) : DaemonReply :=
  match env.identity with
  | none => d.answer (-1) (ascii "ERROR: No identity found\n")
  | some identity =>
    let mixedId := (mixedIdEncode identity.id (ascii "0.0.0.0") 9000 64).getD env.stackText
    d.answer 0
      (ascii "ID        : " ++ identity.id ++ ascii "\nName      : " ++ identity.name ++
        ascii "\nMode      : " ++
        (if identity.mode = .secure then ascii "SECURE" else ascii "NORMAL") ++
        ascii "\nCreated   : " ++ env.createdText ++ ascii "Mixed ID  : " ++ mixedId ++ ascii "\n")

/-- `p2p_init` -/
def p2pInit (env : DaemonEnv) (node : Node) : ℤ × Node :=
  if node.initialized then (0, node)
  else if env.p2pSocket < 0 then (-1, node)
  else (0, { node with initialized := true })

/-- The call of `dht_node_announce_secure` or `dht_node_announce`. -/
def announceIdentity (env : DaemonEnv) (identity : OrcaIdentity) : ℤ :=
  if identity.mode = .secure then
    env.dhtNodeAnnounceSecure identity.id identity.publicKey identity.signature
  else env.dhtNodeAnnounce identity.id

/-- `daemon_cmd_listen` -/
def daemonCmdListen (env : DaemonEnv) (d : Daemon) : DaemonReply :=
  if d.dht then d.answer 0 (ascii "DHT already announced\n")
  else
    match env.identity with
    | none => d.answer (-1) (ascii "ERROR: No identity found. Register first.\n")
    | some identity =>
      if !env.dhtNodeCreate then d.answer (-1) (ascii "ERROR: Failed to create DHT node\n")
      else if env.dhtNodeStart < 0 then d.answer (-1) (ascii "ERROR: Failed to start DHT node\n")
      else
        let d : Daemon :=
          { d with
            node := (p2pInit env d.node).2
            dht := true
            dhtConnected := true
            p2pReady := true
            announced := announceIdentity env identity }
        d.answer 0
          (ascii "DHT announced ID " ++ identity.id ++ ascii " on port " ++ decimal p2pPort ++
            ascii "\nP2P listening on UDP port " ++ decimal p2pPort ++ ascii "\nDaemon is ready\n")

/-- `state_to_string`. -/
def stateToString : PeerState → CString
  | .unknown => ascii "unknown"
  | .requestSent => ascii "request_sent"
  | .requestReceived => ascii "request_received"
  | .friend => ascii "friend"
  | .online => ascii "online"
  | .offline => ascii "offline"
  | .busy => ascii "busy"
  | .ghost => ascii "ghost"
  | .other _ => ascii "unknown"

/-- The line of a peer in the listing. -/
def peerLine (p : Peer) : CString :=
  ascii "  " ++ p.id ++ ascii " | " ++ stateToString p.state ++ ascii " | " ++ p.ip ++
    58 :: decimal p.port ++ [10]

/-- `sizeof(buffer)` in `daemon_cmd_peers`. -/
def listingSize : ℕ := 4096

/-- The loop of `daemon_cmd_peers`.  `pos` counts what the lines would have taken; past the end of
`buffer`, `sizeof(buffer) - pos` is a huge `size_t` and `snprintf` writes outside. -/
def peersLoop (buffer : CString) (pos : ℕ) : List CString → Option CString
  | [] => some buffer
  | line :: lines =>
    if listingSize < pos then none
    else peersLoop (buffer ++ cut (listingSize - pos) line) (pos + line.length) lines

/-- `daemon_cmd_peers`; none where the answer is written past its array. -/
def daemonCmdPeers (d : Daemon) : Option DaemonReply :=
  let peers := stateGetPeers 128 d.sm
  if peers = [] then some (d.answer 0 (ascii "No peers\n"))
  else
    let header := ascii "PEERS (" ++ decimal peers.length ++ ascii "):\n"
    (peersLoop header header.length (peers.map peerLine)).map (d.answer 0)

/-- `daemon_cmd_status` -/
def daemonCmdStatus (env : DaemonEnv) (d : Daemon) : DaemonReply :=
  d.answer 0
    (ascii "Daemon running (PID: " ++ decimal env.pid ++ ascii ")\nUptime: " ++
      decimal (env.now - d.startTime) ++ ascii " seconds\nDHT: " ++
      (if d.dhtConnected then ascii "Connected" else ascii "Disconnected") ++ ascii "\nP2P: " ++
      (if d.p2pReady then ascii "Ready" else ascii "Not ready") ++ ascii "\nPeers: " ++
      decimal (stateGetCount d.sm) ++ ascii "\n")

/-- `daemon_cmd_stop` -/
def daemonCmdStop (d : Daemon) : DaemonReply :=
  { d with running := false }.answer 0 (ascii "Shutting down...\n")

/-! ## Dispatch -/

/-- The commands the daemon knows. -/
inductive CommandName where
  | identity
  | listen
  | search
  | add
  | accept
  | reject
  | peers
  | chatSend
  | ghost
  | status
  | stop
  deriving DecidableEq

namespace CommandName

/-- The first word of a command. -/
def text : CommandName → CString
  | identity => ascii "identity"
  | listen => ascii "listen"
  | search => ascii "search"
  | add => ascii "add"
  | accept => ascii "accept"
  | reject => ascii "reject"
  | peers => ascii "peers"
  | chatSend => ascii "chat_send"
  | ghost => ascii "ghost"
  | status => ascii "status"
  | stop => ascii "stop"

/-- The names in the order of the `strcmp` calls. -/
def all : List CommandName :=
  [identity, listen, search, add, accept, reject, peers, chatSend, ghost, status, stop]

/-- The chain of `strcmp` calls. -/
def ofText (s : CString) : Option CommandName := all.find? fun c => c.text == s

theorem ofText_text (c : CommandName) : ofText c.text = some c := by cases c <;> decide

end CommandName

/-- `cmd_copy`. -/
def commandCopy (cmd : CString) : CString := cut 512 cmd

/-- `cmd_name` and `args`. -/
def splitCommand (cmd : CString) : CString × Option CString :=
  match splitArgs (commandCopy cmd) with
  | none => (commandCopy cmd, none)
  | some (name, args) => (name, some args)

/-- The id in front of the text fits `peer_id`: `daemon_cmd_chat_send` and `daemon_cmd_ghost` copy it
without a bound. -/
def idFits (args : Option CString) : Bool :=
  (args.bind splitArgs).all fun (peerId, _) => decide (peerId.length < idSize)

theorem idFits_of_split {args : Option CString} {peerId text : CString}
    (split : args.bind splitArgs = some (peerId, text)) (short : peerId.length < idSize) :
    idFits args = true := by
  unfold idFits
  rw [split]
  exact decide_eq_true short

/-- The branch of `daemon_handle_command` for a name. -/
def runCommand (env : DaemonEnv) (name : CommandName) (args : Option CString) (d : Daemon) :
    Option DaemonReply :=
  match name with
  | .identity => some (daemonCmdIdentity env d)
  | .listen => some (daemonCmdListen env d)
  | .search =>
    some ((daemonCmdSearch env.toEnv (if d.dht then some env.dhtLookup else none) args
      d.node).toDaemon d)
  | .add => some ((daemonCmdAdd env.toEnv args d.node).toDaemon d)
  | .accept => some ((daemonCmdAccept env.toEnv args d.node).toDaemon d)
  | .reject => some ((daemonCmdReject args d.node).toDaemon d)
  | .peers => daemonCmdPeers d
  | .chatSend =>
    if idFits args then some ((daemonCmdChatSend env.toEnv args d.node).toDaemon d) else none
  | .ghost => if idFits args then some ((daemonCmdGhost env.toEnv args d.node).toDaemon d) else none
  | .status => some (daemonCmdStatus env d)
  | .stop => some (daemonCmdStop d)

/-- `daemon_handle_command` -/
def daemonHandleCommand (env : DaemonEnv) (cmd : CString) (d : Daemon) : Option DaemonReply :=
  let (name, args) := splitCommand cmd
  match CommandName.ofText name with
  | some name => runCommand env name args d
  | none => some (d.answer (-1) (ascii "ERROR: Unknown command: " ++ name ++ ascii "\n"))

/-! ## The control socket -/

/-- What `daemon_ipc_handle` finds in its buffer after the read. -/
def ipcRequest (cmd : CString) : CString := cut 4096 cmd

/-- `daemon_ipc_handle`: the text it sends back, and what the command left. -/
def daemonIpcHandle (env : DaemonEnv) (cmd : CString) (d : Daemon) : Option DaemonReply :=
  (daemonHandleCommand env (ipcRequest cmd) d).map fun r =>
    if r.ret = 0 ∧ r.response = [] then { r with response := ascii "OK\n" }
    else if r.ret < 0 ∧ r.response = [] then { r with response := ascii "ERROR: Command failed\n" }
    else r

theorem splitArgs_append {a b : CString} (ha : 32 ∉ a) : splitArgs (a ++ 32 :: b) = some (a, b) := by
  have before : ∀ c ∈ a, (c != 32) = true := by
    intro c hc
    rw [bne_iff_ne]
    rintro rfl
    exact ha hc
  unfold splitArgs
  rw [if_pos (List.mem_append_right a List.mem_cons_self), List.takeWhile_append_of_pos before,
    List.dropWhile_append_of_pos before]
  simp

end Orcashi
