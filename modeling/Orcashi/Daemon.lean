import Orcashi.P2P.Manager

/-!
# The daemon

The commands of the control socket that act on peers, the thread that turns raw datagrams into
events and the thread that processes events, over the P2P manager, the state manager and the event
loop they drive.  The texts of the replies are those the client gets.
-/

namespace Orcashi

open CMemory

/-- `sizeof(response)` in `daemon_ipc_handle`. -/
def responseSize : ℕ := 8192

/-- What a command leaves behind. -/
structure Reply where
  ret : ℤ
  response : CString
  node : Node

/-- What a command returns, with the answer cut to its array. -/
def reply (ret : ℤ) (response : CString) (node : Node) : Reply := ⟨ret, cut responseSize response, node⟩

/-- A change of the tables and the queue of a node. -/
def Node.onStore (f : Store → Store) (node : Node) : Node :=
  { node with shared := node.shared.onStore f }

/-- `strncpy(peer_id, args, sizeof(peer_id) - 1)`. -/
def peerIdArg (args : CString) : CString := cut idSize args

/-- `daemon_cmd_add`: a request is said to be sent, and the peer is connected to if its address is known. -/
def daemonCmdAdd (env : Env) (args : Option CString) (node : Node) : Reply :=
  match args with
  | none => reply (-1) (ascii "ERROR: Usage: add <id>\n") node
  | some args =>
    let peerId := peerIdArg args
    let node :=
      if (stateGetPeer peerId node.shared.sm).isNone then
        node.onStore fun s => s.call (stateAddPeer env.now peerId)
      else node
    match stateGetPeer peerId node.shared.sm with
    | none => reply (-1) (ascii "ERROR: Failed to add peer\n") node
    | some peer =>
      if peer.state = .friend then
        reply 0 (ascii "Already friends with " ++ peerId ++ ascii "\n") node
      else
        let node := node.onStore fun s => s.call (stateUpdatePeer env.now peerId .requestSent)
        let r := if peer.ip ≠ [] ∧ 0 < peer.port then p2pConnect env peerId node else (-1, node)
        reply 0
          (ascii "Request sent to " ++ peerId ++ ascii "\n" ++
            (if r.1 = 0 then ascii "Connection established\n"
            else ascii "Waiting for peer to come online\n"))
          r.2

/-- `daemon_cmd_accept` -/
def daemonCmdAccept (env : Env) (args : Option CString) (node : Node) : Reply :=
  match args with
  | none => reply (-1) (ascii "ERROR: Usage: accept <id>\n") node
  | some args =>
    let peerId := peerIdArg args
    match stateGetPeer peerId node.shared.sm with
    | none => reply (-1) (ascii "ERROR: Peer " ++ peerId ++ ascii " not found\n") node
    | some peer =>
      if peer.state ≠ .requestReceived then
        reply (-1) (ascii "ERROR: No pending request from " ++ peerId ++ ascii "\n") node
      else
        let node := node.onStore fun s => s.call (stateUpdatePeer env.now peerId .friend)
        let r := if peer.ip ≠ [] ∧ 0 < peer.port then p2pAccept env peerId node else (0, node)
        let ghostCount := (stateDeliverGhostMessages env.now peerId r.2.shared.toStore).1
        reply 0
          (ascii "Accepted request from " ++ peerId ++ ascii "\n" ++
            (if r.1 = 0 then [] else ascii "Peer is offline, will connect when online\n") ++
            ascii "Delivered " ++ decimal ghostCount ++ ascii " ghost messages\n")
          (r.2.onStore fun s => s.deliver env.now peerId)

/-- `daemon_cmd_reject`: the record is removed. -/
def daemonCmdReject (args : Option CString) (node : Node) : Reply :=
  match args with
  | none => reply (-1) (ascii "ERROR: Usage: reject <id>\n") node
  | some args =>
    let peerId := peerIdArg args
    match stateGetPeer peerId node.shared.sm with
    | none => reply (-1) (ascii "ERROR: Peer " ++ peerId ++ ascii " not found\n") node
    | some peer =>
      if peer.state ≠ .requestReceived then
        reply (-1) (ascii "ERROR: No pending request from " ++ peerId ++ ascii "\n") node
      else
        reply 0 (ascii "Rejected request from " ++ peerId ++ ascii "\n")
          (node.onStore fun s => s.call (stateRemovePeer peerId))

/-- The arguments before and after the first blank. -/
def splitArgs (args : CString) : Option (CString × CString) :=
  if 32 ∈ args then
    some (args.takeWhile fun c => c != 32, (args.dropWhile fun c => c != 32).tail)
  else none

/-- `daemon_cmd_chat_send` -/
def daemonCmdChatSend (env : Env) (args : Option CString) (node : Node) : Reply :=
  match args with
  | none => reply (-1) (ascii "ERROR: Usage: chat_send <id> <message>\n") node
  | some args =>
    match splitArgs args with
    | none => reply (-1) (ascii "ERROR: Invalid chat_send command\n") node
    | some (peerId, message) =>
      if !p2pIsConnected peerId node then
        reply (-1) (ascii "ERROR: Peer " ++ peerId ++ ascii " is not connected\n") node
      else
        let r := p2pSend env peerId message node
        if r.1 = 0 then
          reply 0 (ascii "Message sent to " ++ peerId ++ ascii "\n")
            (r.2.onStore fun s => s.call (stateAddMessage peerId message))
        else
          reply (-1) (ascii "ERROR: Failed to send message to " ++ peerId ++ ascii "\n") r.2

/-- `daemon_cmd_ghost` -/
def daemonCmdGhost (env : Env) (args : Option CString) (node : Node) : Reply :=
  match args with
  | none => reply (-1) (ascii "ERROR: Usage: ghost <id> <message>\n") node
  | some args =>
    match splitArgs args with
    | none => reply (-1) (ascii "ERROR: Invalid ghost command\n") node
    | some (peerId, message) =>
      reply 0
        (ascii "Ghost message stored for " ++ peerId ++
          ascii "\nWill be delivered when peer comes online\n")
        (node.onStore fun s => s.call (stateAddGhostMessage env.now env.rand peerId message))

/-- `dht` is `dht_node_lookup` of `g_dht`, which `listen` creates. -/
def daemonCmdSearch (env : Env) (dht : Option (CString → Option (IpText × ℤ)))
    (args : Option CString) (node : Node) : Reply :=
  match args with
  | none => reply (-1) (ascii "ERROR: Usage: search <id>\n") node
  | some args =>
    match dht with
    | none => reply (-1) (ascii "ERROR: Daemon not listening. Use 'listen' first.\n") node
    | some lookup =>
      let peerId := peerIdArg args
      match lookup peerId with
      | some (ip, port) =>
        reply 0
          (ascii "Found peer " ++ peerId ++ ascii "\n  IP  : " ++ ip.val ++ ascii "\n  Port: " ++
            decimal port ++ ascii "\n  Status: ONLINE\n")
          (node.onStore fun s =>
            s |>.call (stateSetIp peerId ip.val)
              |>.call (stateSetPort peerId port)
              |>.call (stateSetOnline env.now peerId true))
      | none =>
        reply 1 (ascii "Peer " ++ peerId ++ ascii " not found\n  Status: OFFLINE\n")
          (node.onStore fun s => s.call (stateSetOnline env.now peerId false))

/-- `daemon_p2p_thread` on a datagram of the bytes `buffer`. -/
def daemonP2PReceive (env : Env) (sender : SockAddrIn) (buffer : Bytes) (node : Node) : Node :=
  let event :=
    { eventCreate env.now .messageReceived sender.ip.val with
      ip := sender.ip.val
      port := sender.port
      message := strAt buffer 0 }
  node.onStore fun s => s.push event

/-! ## Runs -/

/-- What can happen to the daemon: a command, an event pushed from outside the P2P manager, a turn
of the event thread or of `daemon_p2p_thread`, or a step of the P2P manager. -/
inductive DaemonCall where
  | add (args : Option CString)
  | accept (args : Option CString)
  | reject (args : Option CString)
  | chatSend (args : Option CString)
  | ghost (args : Option CString)
  | pushEvent (ev : Event)
  | processEvent
  | rawDatagram (sender : SockAddrIn) (buffer : Bytes)
  | p2p (call : P2PCall)

/-- The node after a command. -/
def DaemonCall.step (env : Env) (node : Node) : DaemonCall → Node
  | .add args => (daemonCmdAdd env args node).node
  | .accept args => (daemonCmdAccept env args node).node
  | .reject args => (daemonCmdReject args node).node
  | .chatSend args => (daemonCmdChatSend env args node).node
  | .ghost args => (daemonCmdGhost env args node).node
  | .pushEvent ev => node.onStore fun s => s.push ev
  | .processEvent => node.onStore (eventLoopStep env.now)
  | .rawDatagram sender buffer => daemonP2PReceive env sender buffer node
  | .p2p call => call.step env node

/-- A step of the daemon in the surroundings of its moment. -/
def daemonStep (node : Node) (l : Env × DaemonCall) : Node := l.2.step l.1 node

/-- The steps of the daemon together with the command that looks peers up. -/
inductive NodeCall where
  | daemon (call : DaemonCall)
  | search (dht : Option (CString → Option (IpText × ℤ))) (args : Option CString)

/-- The node after a command, a search among them, or another step. -/
def nodeStep (node : Node) (l : Env × NodeCall) : Node :=
  match l.2 with
  | .daemon call => call.step l.1 node
  | .search dht args => (daemonCmdSearch l.1 dht args node).node

end Orcashi
