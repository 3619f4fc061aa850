import Orcashi.CommandEffects
import Orcashi.UserText

/-!
# True replies

Whether a command that returns 0 has done what its reply says, and whether a client that returns 0
had a command that did.  The client learns from the socket whether its command could be exchanged for
a text, not what `daemon_handle_command` returned.
-/

namespace Orcashi

open CMemory

/-! ## The daemon -/

/-- Some command of the daemon has this name and what is said of it holds. -/
theorem handle_cases (env : DaemonEnv) (cmd : CString) (d : Daemon) :
    (∃ name, CommandName.ofText (splitCommand cmd).1 = some name ∧
      daemonHandleCommand env cmd d = runCommand env name (splitCommand cmd).2 d) ∨
    (CommandName.ofText (splitCommand cmd).1 = none ∧
      ∃ r, daemonHandleCommand env cmd d = some r ∧ r.ret = -1) := by
  unfold daemonHandleCommand
  dsimp only
  cases CommandName.ofText (splitCommand cmd).1 with
  | some name => exact Or.inl ⟨name, rfl, rfl⟩
  | none => exact Or.inr ⟨rfl, _, rfl, rfl⟩

/-- The command stays within its arrays, and if it returns 0 its reply is true. -/
def HandlesTruthfully (env : DaemonEnv) (cmd : CString) (d : Daemon) : Prop :=
  ∃ r, daemonHandleCommand env cmd d = some r ∧
    (r.ret = 0 → ∀ name, CommandName.ofText (splitCommand cmd).1 = some name →
      Announced env (splitCommand cmd).2 d r name)

theorem handlesTruthfully_iff (env : DaemonEnv) (cmd : CString) (d : Daemon) :
    HandlesTruthfully env cmd d ↔ ∀ name, CommandName.ofText (splitCommand cmd).1 = some name →
      Honest env d (splitCommand cmd).2 name := by
  unfold HandlesTruthfully
  rcases handle_cases env cmd d with ⟨name, known, runs⟩ | ⟨unknown, r, runs, ret⟩
  · rw [runs, known]
    have only {p : CommandName → Prop} : (∀ n, some name = some n → p n) ↔ p name := by simp
    rw [only, ← truthful_iff]
    simp only [only]
    rfl
  · rw [unknown]
    refine iff_of_true ⟨r, runs, fun ok => ?_⟩ (by simp)
    rw [ret] at ok
    cases ok

/-- The daemon knows the command and succeeds with it. -/
def CommandSucceeds (env : DaemonEnv) (cmd : CString) (d : Daemon) : Prop :=
  ∃ name, CommandName.ofText (splitCommand cmd).1 = some name ∧
    Succeeds env d (splitCommand cmd).2 name

theorem handle_returns_zero_iff (env : DaemonEnv) (cmd : CString) (d : Daemon) :
    (∃ r, daemonHandleCommand env cmd d = some r ∧ r.ret = 0) ↔ CommandSucceeds env cmd d := by
  unfold CommandSucceeds
  rcases handle_cases env cmd d with ⟨name, known, runs⟩ | ⟨unknown, r, runs, ret⟩
  · rw [runs, known, returns_zero_iff]
    simp
  · rw [runs, unknown]
    refine iff_of_false ?_ (by simp)
    rintro ⟨_, same, ok⟩
    rw [← Option.some.inj same, ret] at ok
    cases ok

/-! ## The client -/

/-- What the system calls of a client answer: whether the daemon is seen to run, and how far the
exchange gets. -/
structure Ipc where
  /-- `orcashi_is_daemon_running` -/
  orcashiRunning : Bool
  /-- `command_daemon_is_running` -/
  running : Bool
  socket : Bool
  connect : Bool
  write : Bool
  read : Bool

namespace Ipc

/-- The command reaches the daemon. -/
def delivered (ipc : Ipc) : Bool := ipc.running && ipc.socket && ipc.connect && ipc.write

/-- The command reaches the daemon and a reply comes back. -/
def exchanged (ipc : Ipc) : Bool := ipc.delivered && ipc.read

end Ipc

/-- The value of `command_send_to_daemon`. -/
def commandSendToDaemon (ipc : Ipc) : ℤ := if ipc.exchanged then 0 else -1

/-- What a function asks before it sends anything. -/
inductive RunningCheck where
  | none
  | orcashi
  | command

/-- A function that forwards one command: what it asks first and returns where the daemon does not
run, the command, and what it returns where the exchange fails. -/
structure Wrapper where
  check : RunningCheck
  notRunning : ℤ
  command : CString
  failed : ℤ

namespace Wrapper

/-- The command is sent. -/
def forwards (w : Wrapper) (ipc : Ipc) : Bool :=
  match w.check with
  | .none => true
  | .orcashi => ipc.orcashiRunning
  | .command => ipc.running

/-- What the function returns. -/
def ret (w : Wrapper) (ipc : Ipc) : ℤ :=
  if w.forwards ipc then
    if commandSendToDaemon ipc = 0 then 0 else w.failed
  else w.notRunning

end Wrapper

/-- The functions of `orcashi.c` that report a failed exchange. -/
def orcashiWrapper (size : ℕ) (text : CString) : Wrapper := ⟨.orcashi, -1, cut size text, -1⟩

/-- `orcashi_search_peer` -/
def orcashiSearchPeer (peerId : CString) : Wrapper := orcashiWrapper 256 (ascii "search " ++ peerId)

/-- `orcashi_add_peer` -/
def orcashiAddPeer (peerId : CString) : Wrapper := orcashiWrapper 256 (ascii "add " ++ peerId)

/-- `orcashi_accept_peer` -/
def orcashiAcceptPeer (peerId : CString) : Wrapper := orcashiWrapper 256 (ascii "accept " ++ peerId)

/-- `orcashi_reject_peer` -/
def orcashiRejectPeer (peerId : CString) : Wrapper := orcashiWrapper 256 (ascii "reject " ++ peerId)

/-- `orcashi_remove_peer` -/
def orcashiRemovePeer (peerId : CString) : Wrapper := orcashiWrapper 256 (ascii "remove " ++ peerId)

/-- `orcashi_chat_send` -/
def orcashiChatSend (peerId message : CString) : Wrapper :=
  orcashiWrapper 512 (ascii "chat_send " ++ peerId ++ ascii " " ++ message)

/-- `orcashi_ghost_send` -/
def orcashiGhostSend (peerId message : CString) : Wrapper :=
  orcashiWrapper 512 (ascii "ghost " ++ peerId ++ ascii " " ++ message)

/-- `peer` is what `state_get_peer` finds in the client; the room is drawn. -/
def orcashiCallStart (peerId : CString) (peer : Option Peer) (rand : ℕ) : Option Wrapper :=
  peer.map fun p => orcashiWrapper 512
    (ascii "call " ++ peerId ++ ascii " " ++ p.ip ++ ascii " " ++ decimal (rand % 49 + 1 : ℕ))

/-- `orcashi_call_answer`, for a caller that has a record. -/
def orcashiCallAnswer (callerId : CString) (peer : Option Peer) (room : ℤ) : Option Wrapper :=
  peer.map fun p => orcashiWrapper 512
    (ascii "call_answer " ++ callerId ++ ascii " " ++ p.ip ++ ascii " " ++ decimal room)

/-- `orcashi_note_add` -/
def orcashiNoteAdd (content : CString) : Wrapper := orcashiWrapper 512 (ascii "note_add " ++ content)

/-- `orcashi_note_find` -/
def orcashiNoteFind (hash : CString) : Wrapper :=
  ⟨.none, -1, cut 256 (ascii "note_find " ++ hash), -1⟩

/-- A Mixed ID is decoded and nothing is forwarded. -/
def cmdSearch (peerId : CString) : Option Wrapper :=
  if (mixedIdDecode peerId).isSome then none
  else some ⟨.none, 1, cut 256 (ascii "search " ++ peerId), 1⟩

/-- `cmd_add` -/
def cmdAdd (peerId : CString) : Wrapper := ⟨.none, 0, cut 256 (ascii "add " ++ peerId), 0⟩

/-- `cmd_accept` -/
def cmdAccept (peerId : CString) : Wrapper := ⟨.none, 0, cut 256 (ascii "accept " ++ peerId), 0⟩

/-- `cmd_reject` -/
def cmdReject (peerId : CString) : Wrapper := ⟨.none, 0, cut 256 (ascii "reject " ++ peerId), 0⟩

/-- `cmd_peers` -/
def cmdPeers : Wrapper := ⟨.none, 1, ascii "peers", 1⟩

/-- `cmd_ghost` with the command it makes of its arguments. -/
def cmdGhostSend (argv : List CString) (environ : Bytes) : Option Wrapper :=
  (cmdGhost argv environ).map fun command => ⟨.none, 0, command, 0⟩

/-- `cmd_status` -/
def cmdStatus : Wrapper := ⟨.command, 0, ascii "status", 0⟩

/-- `cmd_stop` -/
def cmdStop : Wrapper := ⟨.command, 0, ascii "stop", 0⟩

/-- The functions that forward one command. -/
inductive Client where
  | orcashiSearchPeer (peerId : CString)
  | orcashiAddPeer (peerId : CString)
  | orcashiAcceptPeer (peerId : CString)
  | orcashiRejectPeer (peerId : CString)
  | orcashiRemovePeer (peerId : CString)
  | orcashiChatSend (peerId message : CString)
  | orcashiGhostSend (peerId message : CString)
  | orcashiCallStart (peerId : CString) (peer : Option Peer) (rand : ℕ)
  | orcashiCallAnswer (callerId : CString) (peer : Option Peer) (room : ℤ)
  | orcashiNoteAdd (content : CString)
  | orcashiNoteFind (hash : CString)
  | cmdSearch (peerId : CString)
  | cmdAdd (peerId : CString)
  | cmdAccept (peerId : CString)
  | cmdReject (peerId : CString)
  | cmdPeers
  | cmdGhost (argv : List CString) (environ : Bytes)
  | cmdStatus
  | cmdStop

/-- What each of them forwards, if it gets that far. -/
def Client.wrapper : Client → Option Wrapper
  | .orcashiSearchPeer peerId => Orcashi.orcashiSearchPeer peerId
  | .orcashiAddPeer peerId => Orcashi.orcashiAddPeer peerId
  | .orcashiAcceptPeer peerId => Orcashi.orcashiAcceptPeer peerId
  | .orcashiRejectPeer peerId => Orcashi.orcashiRejectPeer peerId
  | .orcashiRemovePeer peerId => Orcashi.orcashiRemovePeer peerId
  | .orcashiChatSend peerId message => Orcashi.orcashiChatSend peerId message
  | .orcashiGhostSend peerId message => Orcashi.orcashiGhostSend peerId message
  | .orcashiCallStart peerId peer rand => Orcashi.orcashiCallStart peerId peer rand
  | .orcashiCallAnswer callerId peer room => Orcashi.orcashiCallAnswer callerId peer room
  | .orcashiNoteAdd content => Orcashi.orcashiNoteAdd content
  | .orcashiNoteFind hash => Orcashi.orcashiNoteFind hash
  | .cmdSearch peerId => Orcashi.cmdSearch peerId
  | .cmdAdd peerId => Orcashi.cmdAdd peerId
  | .cmdAccept peerId => Orcashi.cmdAccept peerId
  | .cmdReject peerId => Orcashi.cmdReject peerId
  | .cmdPeers => Orcashi.cmdPeers
  | .cmdGhost argv environ => cmdGhostSend argv environ
  | .cmdStatus => Orcashi.cmdStatus
  | .cmdStop => Orcashi.cmdStop

/-- The command reached the daemon, which returned 0 for it. -/
def Accomplished (ipc : Ipc) (env : DaemonEnv) (command : CString) (d : Daemon) : Prop :=
  ipc.delivered = true ∧ ∃ r, daemonHandleCommand env (ipcRequest command) d = some r ∧ r.ret = 0

theorem accomplished_iff (ipc : Ipc) (env : DaemonEnv) (command : CString) (d : Daemon) :
    Accomplished ipc env command d ↔
      ipc.delivered = true ∧ CommandSucceeds env (ipcRequest command) d :=
  and_congr_right fun _ => handle_returns_zero_iff env (ipcRequest command) d

/-- Where the function forwards its command and returns 0, the command was accomplished. -/
def Client.Relays (client : Client) (ipc : Ipc) (env : DaemonEnv) (d : Daemon) : Prop :=
  ∀ w, client.wrapper = some w → w.forwards ipc = true → w.ret ipc = 0 →
    Accomplished ipc env w.command d

/-- The exchange fails and the function says so, or the daemon succeeds with the command. -/
def Client.RelaysWhen (client : Client) (ipc : Ipc) (env : DaemonEnv) (d : Daemon) : Prop :=
  ∀ w, client.wrapper = some w → w.forwards ipc = true →
    ipc.exchanged = false ∧ w.failed ≠ 0 ∨
      ipc.delivered = true ∧ CommandSucceeds env (ipcRequest w.command) d

theorem relays_iff (client : Client) (ipc : Ipc) (env : DaemonEnv) (d : Daemon) :
    client.Relays ipc env d ↔ client.RelaysWhen ipc env d := by
  refine forall₂_congr fun w _ => forall_congr' fun forwarded => ?_
  rw [accomplished_iff]
  unfold Wrapper.ret commandSendToDaemon
  rw [if_pos forwarded]
  cases exchanged : ipc.exchanged with
  | true => simp
  | false =>
    rw [if_neg Bool.false_ne_true, if_neg (by decide)]
    tauto

/-! ## Chats -/

/-- A pass of a chat loop: the line it reads, and what its command would meet. -/
structure ChatPass where
  line : Bytes
  ipc : Ipc
  env : DaemonEnv
  daemon : Daemon

/-- The passes in which a chat loop forwards a command; `words` are those it answers itself. -/
def chatForwards (words : List CString) (peerId : CString) : List ChatPass → List (CString × ChatPass)
  | [] => []
  | turn :: turns =>
    if chatInput turn.line = ascii "/exit" then []
    else if chatInput turn.line ∈ words then chatForwards words peerId turns
    else (textCommand .chatSend peerId (chatInput turn.line), turn) :: chatForwards words peerId turns

/-- The functions that read a chat from the terminal; `peer` is what `state_get_peer` finds in the
client. -/
inductive Chat where
  | cmdChat
  | orcashiChatStart (orcashiRunning : Bool) (peer : Option Peer)

namespace Chat

/-- The value of the function and the commands it forwarded. -/
def run (peerId : CString) (turns : List ChatPass) : Chat → ℤ × List (CString × ChatPass)
  | .cmdChat => (0, chatForwards [ascii "/status"] peerId turns)
  | .orcashiChatStart orcashiRunning peer =>
    if orcashiRunning && peer.any fun p => p.state == .friend then
      (0, chatForwards [ascii "/status", ascii "/secure"] peerId turns)
    else (-1, [])

/-- Where the function returns 0, every command it forwarded was accomplished. -/
def Relays (chat : Chat) (peerId : CString) (turns : List ChatPass) : Prop :=
  (chat.run peerId turns).1 = 0 → ∀ forwarded ∈ (chat.run peerId turns).2,
    Accomplished forwarded.2.ipc forwarded.2.env forwarded.1 forwarded.2.daemon

/-- A chat returns 0 whatever became of its commands. -/
theorem relays_iff (chat : Chat) (peerId : CString) (turns : List ChatPass) :
    chat.Relays peerId turns ↔ ∀ forwarded ∈ (chat.run peerId turns).2,
      forwarded.2.ipc.delivered = true ∧
        CommandSucceeds forwarded.2.env (ipcRequest forwarded.1) forwarded.2.daemon := by
  have zero : ∀ forwarded ∈ (chat.run peerId turns).2, (chat.run peerId turns).1 = 0 := by
    intro forwarded h
    cases chat with
    | cmdChat => rfl
    | orcashiChatStart orcashiRunning peer =>
      unfold run at h ⊢
      dsimp only at h ⊢
      split_ifs at h ⊢
      · rfl
      · cases h
  unfold Relays
  constructor
  · intro h forwarded mem
    exact (accomplished_iff _ _ _ _).1 (h (zero forwarded mem) forwarded mem)
  · intro h _ forwarded mem
    exact (accomplished_iff _ _ _ _).2 (h forwarded mem)

end Chat

/-- The commands of a chat are those of the loop on the lines that are read. -/
theorem chatForwards_fst (peerId : CString) (turns : List ChatPass) :
    (chatForwards [ascii "/status"] peerId turns).map Prod.fst = chatLoop peerId (turns.map ChatPass.line) := by
  induction turns with
  | nil => rfl
  | cons turn turns ih =>
    rw [chatForwards, List.map_cons, chatLoop, ← ih]
    simp only [List.mem_singleton]
    split_ifs <;> rfl

/-! ## All layers -/

/-- A reply of the daemon is true exactly where the command is honest; a client that returns 0 had a
command that did exactly if the exchange fails and it says so or the daemon succeeds, and a chat
exactly if the daemon succeeds with all it forwarded. -/
theorem success_replies_iff (env : DaemonEnv) (cmd : CString) (d : Daemon) (client : Client) (ipc : Ipc)
    (chat : Chat) (peerId : CString) (turns : List ChatPass) :
    (HandlesTruthfully env cmd d ↔
      ∀ name, CommandName.ofText (splitCommand cmd).1 = some name →
        Honest env d (splitCommand cmd).2 name) ∧
    (client.Relays ipc env d ↔ client.RelaysWhen ipc env d) ∧
    (chat.Relays peerId turns ↔
      ∀ forwarded ∈ (chat.run peerId turns).2, forwarded.2.ipc.delivered = true ∧
        CommandSucceeds forwarded.2.env (ipcRequest forwarded.1) forwarded.2.daemon) :=
  ⟨handlesTruthfully_iff env cmd d, relays_iff client ipc env d, Chat.relays_iff chat peerId turns⟩

/-- Surroundings in which nothing succeeds. -/
def DaemonEnv.failing : DaemonEnv where
  toEnv := .failing
  createdText := []
  stackText := []
  dhtNodeCreate := false
  dhtNodeStart := -1
  dhtNodeAnnounce _ := -1
  dhtNodeAnnounceSecure _ _ _ := -1
  dhtLookup _ := none
  p2pSocket := -1

/-- A daemon that has kept as many ghost messages as it can. -/
def daemonOfFullStore : Daemon where
  node :=
    { Node.init with
      shared :=
        { Shared.init with
          sm :=
            { StateManager.init with ghosts := List.replicate maxGhostMessages messageForBob } } }
  dht := false
  dhtConnected := false
  p2pReady := false
  startTime := 0
  running := true
  announced := -1

/-- A message for which there is no room is said to be stored, and a client whose command the daemon
does not know returns 0. -/
theorem success_reply_of_nothing :
    ¬ HandlesTruthfully .failing (ascii "ghost bob hi") daemonOfFullStore ∧
      ¬ (Client.orcashiRemovePeer (ascii "bob")).Relays ⟨true, true, true, true, true, true⟩ .failing
        daemonOfFullStore := by
  constructor
  · rw [handlesTruthfully_iff]
    intro honest
    obtain ⟨-, -, room⟩ := honest .ghost (by decide) (ascii "bob hi") (ascii "bob") (ascii "hi")
      (by decide) (by decide)
    unfold Daemon.sm daemonOfFullStore at room
    dsimp only at room
    rw [List.length_replicate] at room
    exact lt_irrefl _ room
  · rw [relays_iff]
    intro relays
    rcases relays _ rfl rfl with ⟨failed, -⟩ | ⟨-, name, known, -⟩
    · cases failed
    · have unknown : CommandName.ofText (splitCommand (ipcRequest (ascii "remove bob"))).1 = none := by
        decide
      exact absurd (known.symm.trans unknown) (by simp)

end Orcashi
