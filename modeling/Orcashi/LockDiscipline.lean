import Orcashi.Daemon
import Orcashi.Lib.LockOrder

/-!
# The four mutexes

What each function locks and unlocks, as the skeleton of its control flow.  `g_p2p_mutex`,
`g_state_mutex`, `g_queue_mutex` and `g_log_mutex` are default mutexes, so a thread that locks one
twice waits for itself; here, other than in the P2P manager's model, they are taken as they are.
What a function does between these operations is left out, and a test of it is a choice, except where
a path locks twice: what decides about that is an argument.
-/

namespace Orcashi

open CMemory LockOrder LockProg RegularExpression

/-- The mutexes of the four modules that have one. -/
inductive Mutex where
  | p2p
  | state
  | queue
  | log
  deriving DecidableEq

instance : Fintype Mutex where
  elems := {.p2p, .state, .queue, .log}
  complete m := by cases m <;> decide

/-- The order in which the mutexes are taken. -/
def Mutex.rank : Mutex → ℕ
  | .p2p => 0
  | .state => 1
  | .queue => 2
  | .log => 3

/-! ## What the functions lock -/

namespace Locks

/-- A function that holds the mutex for all it does. -/
def whole (m : Mutex) : LockProg Mutex := critical m 1

/-- A function that checks its arguments first. -/
def checked (m : Mutex) : LockProg Mutex := 1 + whole m

/-! ### The logger -/

/-- Where `g_log_file` may point to. -/
inductive LogFile where
  | stderr
  | stdout
  | opened
  deriving DecidableEq

/-- `g_initialized` and `g_log_file`. -/
structure Logger where
  initialized : Bool
  file : Option LogFile

/-- `logger_set_level` -/
def loggerSetLevel : LockProg Mutex := whole .log

/-- `logger_is_enabled` -/
def loggerIsEnabled : LockProg Mutex := whole .log

/-- `logger_log`, and so every `LOG_..`. -/
def loggerLog : LockProg Mutex := loggerIsEnabled * (1 + whole .log)

/-- `logger_init` gets to its message: the logger is new, and its file opens if there is one. -/
def loggerStarts (fopen : CString → Bool) (logger : Logger) (logFile : Option CString) : Bool :=
  !logger.initialized && logFile.all fopen

/-- `logger_init`, which writes a first line where it opened the file. -/
def loggerInit (fopen : CString → Bool) (logger : Logger) (logFile : Option CString) :
    LockProg Mutex :=
  critical .log (if loggerStarts fopen logger logFile then loggerLog else 1)

/-- `logger_close`, which writes a last line. -/
def loggerClose (logger : Logger) : LockProg Mutex :=
  critical .log (if logger.file = some .opened then loggerLog else 1)

/-! ### The state manager and the event queue -/

/-- `state_load` -/
def stateLoad : LockProg Mutex := whole .state

/-- `state_init` -/
def stateInit : LockProg Mutex := whole .state * (1 + stateLoad)

/-- `state_save` -/
def stateSave : LockProg Mutex := whole .state

/-- `state_add_peer` -/
def stateAddPeer : LockProg Mutex := checked .state

/-- `state_update_peer` -/
def stateUpdatePeer : LockProg Mutex := checked .state

/-- `state_remove_peer` -/
def stateRemovePeer : LockProg Mutex := checked .state

/-- `state_get_peer` -/
def stateGetPeer : LockProg Mutex := checked .state

/-- `state_get_peers` -/
def stateGetPeers : LockProg Mutex := checked .state

/-- `state_get_count` -/
def stateGetCount : LockProg Mutex := whole .state

/-- The functions that look a peer up and then write one of its fields. -/
def setter : LockProg Mutex := stateGetPeer * checked .state

/-- `state_set_online` -/
def stateSetOnline : LockProg Mutex := setter

/-- `state_set_port` -/
def stateSetPort : LockProg Mutex := setter

/-- `state_set_secure` -/
def stateSetSecure : LockProg Mutex := setter

/-- `state_update_last_seen` -/
def stateUpdateLastSeen : LockProg Mutex := setter

/-- `state_set_ip`, which does nothing for `NULL`. -/
def stateSetIp : LockProg Mutex := 1 + setter

/-- `state_add_message` -/
def stateAddMessage : LockProg Mutex := checked .state

/-- `state_add_ghost_message` -/
def stateAddGhostMessage : LockProg Mutex := checked .state

/-- `event_queue_push` -/
def eventQueuePush : LockProg Mutex := checked .queue

/-- `event_queue_pop`, which waits as often as the queue is empty. -/
def eventQueuePop : LockProg Mutex := 1 + critical .queue (condWait .queue).star

/-- It pushes events with `g_state_mutex` held. -/
def stateDeliverGhostMessages : LockProg Mutex := 1 + critical .state eventQueuePush.star

/-! ### The event loop -/

/-- `event_handle_add_request` -/
def eventHandleAddRequest : LockProg Mutex := stateUpdatePeer * stateSetIp * stateSetPort

/-- `event_handle_accept_confirm` -/
def eventHandleAcceptConfirm : LockProg Mutex :=
  stateUpdatePeer * stateSetOnline * stateSetIp * stateSetPort * stateDeliverGhostMessages

/-- `event_handle_reject_confirm` -/
def eventHandleRejectConfirm : LockProg Mutex := stateRemovePeer

/-- `event_handle_message_received` -/
def eventHandleMessageReceived : LockProg Mutex :=
  stateSetOnline * stateUpdateLastSeen * stateAddMessage

/-- `event_handle_peer_online` -/
def eventHandlePeerOnline : LockProg Mutex :=
  stateSetOnline * stateSetIp * stateSetPort * stateDeliverGhostMessages

/-- `event_handle_peer_offline` -/
def eventHandlePeerOffline : LockProg Mutex := stateSetOnline

/-- `event_handle_status_update` -/
def eventHandleStatusUpdate : LockProg Mutex :=
  (1 + stateSetIp) * (1 + stateSetPort) * (1 + stateSetSecure)

/-- `event_handle_dht_found` -/
def eventHandleDhtFound : LockProg Mutex := stateSetIp * stateSetPort * stateSetOnline

/-- `event_handle_dht_not_found` -/
def eventHandleDhtNotFound : LockProg Mutex := stateSetOnline

/-- `event_process` -/
def eventProcess : EventType → LockProg Mutex
  | .addRequest => eventHandleAddRequest
  | .acceptConfirm => eventHandleAcceptConfirm
  | .rejectConfirm => eventHandleRejectConfirm
  | .messageReceived => eventHandleMessageReceived
  | .peerOnline => eventHandlePeerOnline
  | .peerOffline => eventHandlePeerOffline
  | .statusUpdate => eventHandleStatusUpdate
  | .dhtFound => eventHandleDhtFound
  | .dhtNotFound => eventHandleDhtNotFound
  | .ghostDelivered | .error | .none => 1

/-- A turn of `event_loop_run`, with the event `event_queue_pop` returned. -/
def eventLoopTurn (popped : Option EventType) : LockProg Mutex :=
  eventQueuePop * popped.elim 1 eventProcess

/-! ### The P2P manager -/

/-- `find_peer` -/
def findPeer : LockProg Mutex := whole .p2p

/-- `add_peer` -/
def addPeer : LockProg Mutex := whole .p2p

/-- The threads it starts have their own turns. -/
def p2pInit : LockProg Mutex := 1

/-- `p2p_cleanup` -/
def p2pCleanup : LockProg Mutex := 1 + whole .p2p

/-- `p2p_connect` -/
def p2pConnect : LockProg Mutex := 1 + findPeer * (1 + addPeer)

/-- `p2p_accept` -/
def p2pAccept : LockProg Mutex := findPeer * (1 + stateUpdatePeer * eventQueuePush)

/-- `p2p_disconnect` -/
def p2pDisconnect : LockProg Mutex := findPeer * (1 + stateSetOnline * eventQueuePush)

/-- `p2p_send_secure` -/
def p2pSendSecure : LockProg Mutex := 1 + findPeer

/-- `p2p_send` -/
def p2pSend : LockProg Mutex := 1 + findPeer * (1 + p2pSendSecure)

/-- `p2p_is_connected` -/
def p2pIsConnected : LockProg Mutex := findPeer

/-- `handle_handshake` -/
def handleHandshake : LockProg Mutex :=
  1 + stateUpdatePeer * stateSetOnline * stateSetIp * stateSetPort * eventQueuePush

/-- `handle_data` -/
def handleData : LockProg Mutex := 1 + eventQueuePush * stateAddMessage

/-- `handle_add_request` -/
def handleAddRequest : LockProg Mutex :=
  stateUpdatePeer * stateSetIp * stateSetPort * eventQueuePush

/-- `handle_accept_confirm` -/
def handleAcceptConfirm : LockProg Mutex :=
  stateUpdatePeer * stateSetOnline * stateSetIp * stateSetPort * stateDeliverGhostMessages *
    eventQueuePush

/-- `handle_reject_confirm` -/
def handleRejectConfirm : LockProg Mutex := stateRemovePeer * eventQueuePush

/-- `process_message` -/
def processMessage (msg : P2PMessage) (msgLen : ℕ) : LockProg Mutex :=
  if headerOk msg msgLen then
    match P2PMessageType.ofCode msg.type with
    | some .handshake => handleHandshake
    | some .data => handleData
    | some .addRequest => handleAddRequest
    | some .acceptConfirm => handleAcceptConfirm
    | some .rejectConfirm => handleRejectConfirm
    | some .handshakeResponse | some .keepalive | some .close | none => 1
  else 1

/-- The listener's work on a HANDSHAKE from an unknown address: `add_peer` locks what the listener
holds. -/
def listenerHandshake (msg : P2PMessage) (n : ℕ) : LockProg Mutex :=
  match strchr msg.payload 0 separator with
  | none => 1
  | some bar => addPeer * (1 + processMessage { msg with payload := msg.payload.set bar 0 } n)

/-- A turn of `listener_thread`, with the table of peers it finds. -/
def listenerReceive (peers : List P2PPeer) (sender : SockAddrIn) (buffer : Bytes) (n : ℕ) :
    LockProg Mutex :=
  let msg := P2PMessage.ofBuffer buffer
  if n < headerSize then 1
  else if msg.magic ≠ p2pMagic then 1
  else
    critical .p2p <|
      if (findAddr sender peers).isSome then processMessage msg n
      else if msg.type = P2PMessageType.handshake.code then listenerHandshake msg n
      else 1

/-- A round of `keepalive_thread`. -/
def keepaliveTick : LockProg Mutex := critical .p2p (1 + stateSetOnline * eventQueuePush).star

/-- A call of the P2P manager, or a datagram that its listener reads. -/
def p2pCall (peers : List P2PPeer) : P2PCall → LockProg Mutex
  | .connect _ => p2pConnect
  | .accept _ => p2pAccept
  | .disconnect _ => p2pDisconnect
  | .send _ _ => p2pSend
  | .sendSecure _ _ => p2pSendSecure
  | .datagram sender buffer n => listenerReceive peers sender buffer n
  | .keepalive => keepaliveTick

/-! ### The daemon -/

/-- `daemon_cmd_search` -/
def daemonCmdSearch : LockProg Mutex :=
  1 + stateSetIp * stateSetPort * stateSetOnline + stateSetOnline

/-- `daemon_cmd_add` -/
def daemonCmdAdd : LockProg Mutex :=
  1 + stateGetPeer * (1 + stateAddPeer * stateGetPeer) * (1 + stateUpdatePeer * (1 + p2pConnect))

/-- `daemon_cmd_accept` -/
def daemonCmdAccept : LockProg Mutex :=
  1 + stateGetPeer * (1 + stateUpdatePeer * (1 + p2pAccept) * stateDeliverGhostMessages)

/-- `daemon_cmd_reject` -/
def daemonCmdReject : LockProg Mutex := 1 + stateGetPeer * (1 + stateRemovePeer)

/-- `daemon_cmd_peers` -/
def daemonCmdPeers : LockProg Mutex := stateGetPeers

/-- `daemon_cmd_chat_send` -/
def daemonCmdChatSend : LockProg Mutex := 1 + p2pIsConnected * (1 + p2pSend * (1 + stateAddMessage))

/-- `daemon_cmd_ghost` -/
def daemonCmdGhost : LockProg Mutex := 1 + stateAddGhostMessage

/-- `daemon_cmd_status` -/
def daemonCmdStatus : LockProg Mutex := stateGetCount

/-- `daemon_handle_command` -/
def daemonHandleCommand (cmd : CString) : LockProg Mutex :=
  let cmdName := (cut 512 cmd).takeWhile fun c => c != 32
  if cmdName = ascii "listen" then 1 + p2pInit
  else if cmdName = ascii "search" then daemonCmdSearch
  else if cmdName = ascii "add" then daemonCmdAdd
  else if cmdName = ascii "accept" then daemonCmdAccept
  else if cmdName = ascii "reject" then daemonCmdReject
  else if cmdName = ascii "peers" then daemonCmdPeers
  else if cmdName = ascii "chat_send" then daemonCmdChatSend
  else if cmdName = ascii "ghost" then daemonCmdGhost
  else if cmdName = ascii "status" then daemonCmdStatus
  else 1

/-- A turn of `daemon_p2p_thread` on a datagram. -/
def daemonP2PReceive : LockProg Mutex := eventQueuePush

/-- A turn of `daemon_event_thread`. -/
def daemonEventTurn (popped : Option EventType) : LockProg Mutex := eventLoopTurn popped * stateSave

/-- `DAEMON_LOG_FILE` -/
def daemonLogFile : CString := ascii "/tmp/.orcashi/daemon.log"

/-- `daemon_init` -/
def daemonInit (fopen : CString → Bool) (logger : Logger) : LockProg Mutex :=
  loggerInit fopen logger (some daemonLogFile) * loggerSetLevel * stateInit * p2pInit

/-- `daemon_cleanup` -/
def daemonCleanup (logger : Logger) : LockProg Mutex := p2pCleanup * stateSave * loggerClose logger

/-! ### The library -/

/-- The file that `orcashi_init` opens. -/
def logPath : CString := ascii "/tmp/.orcashi//orcashi.log"

/-- `orcashi_init` -/
def orcashiInit (fopen : CString → Bool) (logger : Logger) : LockProg Mutex :=
  loggerInit fopen logger (some logPath) * loggerSetLevel * loggerLog * loggerLog * loggerLog *
    stateInit * p2pInit

/-- `orcashi_stop_daemon` -/
def orcashiStopDaemon : LockProg Mutex := loggerLog + loggerLog * loggerLog

/-- `orcashi_cleanup` -/
def orcashiCleanup (logger : Logger) : LockProg Mutex :=
  loggerLog * (1 + orcashiStopDaemon) * p2pCleanup * stateSave * loggerClose logger * loggerLog

/-! ### They keep the order -/

theorem after_eventLoopTurn (popped : Option EventType) :
    after Mutex.rank (eventLoopTurn popped) [] = some [] := by
  cases popped with
  | none => rfl
  | some type => cases type <;> rfl

/-- A message can be processed with `g_p2p_mutex` held. -/
theorem after_processMessage (msg : P2PMessage) (msgLen : ℕ) :
    after Mutex.rank (processMessage msg msgLen) [.p2p] = some [.p2p] := by
  unfold processMessage
  split
  · split <;> rfl
  · rfl

theorem after_daemonHandleCommand (cmd : CString) :
    after Mutex.rank (daemonHandleCommand cmd) [] = some [] := by
  unfold daemonHandleCommand
  iterate 9 refine after_ite rfl ?_
  rfl

end Locks

/-! ## What the threads do -/

/-- What a thread of the node does at a time: a start-up, a step of the P2P manager, a turn of one of
the threads over events and raw datagrams, a command, or a shutdown.  Where it matters, the state in
which it begins comes with it. -/
inductive Activity where
  | daemonInit (fopen : CString → Bool) (logger : Locks.Logger)
  | orcashiInit (fopen : CString → Bool) (logger : Locks.Logger)
  | p2p (peers : List P2PPeer) (call : P2PCall)
  | rawDatagram
  | event (popped : Option EventType)
  | daemonEvent (popped : Option EventType)
  | command (cmd : CString)
  | daemonCleanup (logger : Locks.Logger)
  | orcashiCleanup (logger : Locks.Logger)

/-- What an activity locks. -/
def Activity.locks : Activity → LockProg Mutex
  | .daemonInit fopen logger => Locks.daemonInit fopen logger
  | .orcashiInit fopen logger => Locks.orcashiInit fopen logger
  | .p2p peers call => Locks.p2pCall peers call
  | .rawDatagram => Locks.daemonP2PReceive
  | .event popped => Locks.eventLoopTurn popped
  | .daemonEvent popped => Locks.daemonEventTurn popped
  | .command cmd => Locks.daemonHandleCommand cmd
  | .daemonCleanup logger => Locks.daemonCleanup logger
  | .orcashiCleanup logger => Locks.orcashiCleanup logger

/-- The listener takes the datagram for a handshake of a peer it does not know yet. -/
def strangeHandshake (peers : List P2PPeer) (sender : SockAddrIn) (buffer : Bytes) (n : ℕ) : Bool :=
  let msg := P2PMessage.ofBuffer buffer
  decide (headerSize ≤ n) && msg.magic == p2pMagic && (findAddr sender peers).isNone &&
    msg.type == P2PMessageType.handshake.code && (strchr msg.payload 0 separator).isSome

/-- No message is logged with `g_log_mutex` held, and no peer is added with `g_p2p_mutex` held. -/
def Activity.LocksOnce : Activity → Prop
  | .daemonInit fopen logger => Locks.loggerStarts fopen logger (some Locks.daemonLogFile) = false
  | .orcashiInit fopen logger => Locks.loggerStarts fopen logger (some Locks.logPath) = false
  | .p2p peers (.datagram sender buffer n) => strangeHandshake peers sender buffer n = false
  | .daemonCleanup logger | .orcashiCleanup logger => logger.file ≠ some .opened
  | _ => True

/-! ## The condition is enough -/

theorem after_listenerReceive {peers : List P2PPeer} {sender : SockAddrIn} {buffer : Bytes} {n : ℕ}
    (known : strangeHandshake peers sender buffer n = false) :
    after Mutex.rank (Locks.listenerReceive peers sender buffer n) [] = some [] := by
  have body {P : LockProg Mutex} (h : after Mutex.rank P [.p2p] = some [.p2p]) :
      after Mutex.rank (critical .p2p P) [] = some [] :=
    after_mul (after_mul rfl h) rfl
  unfold Locks.listenerReceive
  dsimp only
  split_ifs with short magic found type
  · rfl
  · rfl
  · exact body (Locks.after_processMessage _ n)
  · have bar : strchr (P2PMessage.ofBuffer buffer).payload 0 separator = none := by
      simpa [strangeHandshake, Nat.not_lt.1 short, not_not.1 magic, type,
        Option.not_isSome_iff_eq_none.1 found] using known
    unfold Locks.listenerHandshake
    rw [bar]
    exact body rfl
  · exact body rfl

theorem Activity.checked {a : Activity} (once : a.LocksOnce) : after Mutex.rank a.locks [] = some [] := by
  cases a with
  | daemonInit fopen logger =>
    show after Mutex.rank (Locks.daemonInit fopen logger) [] = some []
    rw [Locks.daemonInit, Locks.loggerInit, if_neg (Bool.eq_false_iff.1 once)]
    rfl
  | orcashiInit fopen logger =>
    show after Mutex.rank (Locks.orcashiInit fopen logger) [] = some []
    rw [Locks.orcashiInit, Locks.loggerInit, if_neg (Bool.eq_false_iff.1 once)]
    rfl
  | p2p peers call =>
    cases call with
    | datagram sender buffer n => exact after_listenerReceive once
    | connect | accept | disconnect | send | sendSecure | keepalive => rfl
  | rawDatagram => rfl
  | event popped => exact Locks.after_eventLoopTurn popped
  | daemonEvent popped => exact after_mul (Locks.after_eventLoopTurn popped) rfl
  | command cmd => exact Locks.after_daemonHandleCommand cmd
  | daemonCleanup logger =>
    show after Mutex.rank (Locks.daemonCleanup logger) [] = some []
    rw [Locks.daemonCleanup, Locks.loggerClose, if_neg once]
    rfl
  | orcashiCleanup logger =>
    show after Mutex.rank (Locks.orcashiCleanup logger) [] = some []
    rw [Locks.orcashiCleanup, Locks.loggerClose, if_neg once]
    rfl

/-! ## The condition is needed -/

theorem listenerReceive_relocks {peers : List P2PPeer} {sender : SockAddrIn} {buffer : Bytes} {n : ℕ}
    (strange : strangeHandshake peers sender buffer n = true) :
    Relocks Mutex.rank (Locks.listenerReceive peers sender buffer n) := by
  simp only [strangeHandshake, Bool.and_eq_true, decide_eq_true_eq, beq_iff_eq,
    Option.isNone_iff_eq_none] at strange
  obtain ⟨⟨⟨⟨long, magic⟩, unknown⟩, type⟩, bar⟩ := strange
  obtain ⟨bar, found⟩ := Option.isSome_iff_exists.1 bar
  refine ⟨[], .p2p, [.unlock .p2p, .unlock .p2p], rfl, ?_⟩
  unfold Locks.listenerReceive
  dsimp only
  rw [if_neg (Nat.not_lt.2 long), if_neg (not_not.2 magic), unknown, if_neg (by simp), if_pos type,
    Locks.listenerHandshake, found]
  have full : [.lock .p2p, .unlock .p2p] ∈ Locks.addPeer.matches' := mem_critical.2 ⟨[], rfl, rfl⟩
  exact mem_critical.2 ⟨_, Language.append_mem_mul full (Or.inl rfl), rfl⟩

theorem Activity.relocks {a : Activity} (twice : ¬ a.LocksOnce) : Relocks Mutex.rank a.locks := by
  have path {P : LockProg Mutex} (u : List (LockOp Mutex)) (m : Mutex) (v : List (LockOp Mutex))
      (keeps : Keeps Mutex.rank ∅ u ∅) (run : P.rmatch (u ++ .lock m :: .lock m :: v) = true) :
      Relocks Mutex.rank P :=
    ⟨u, m, v, keeps, (rmatch_iff_matches' _ _).1 run⟩
  cases a with
  | daemonInit fopen logger =>
    have starts := Bool.not_eq_false _ ▸ twice
    show Relocks Mutex.rank (Locks.daemonInit fopen logger)
    rw [Locks.daemonInit, Locks.loggerInit, if_pos starts]
    exact path [] .log [.unlock .log, .unlock .log, .lock .log, .unlock .log, .lock .state,
      .unlock .state] rfl (by decide +kernel)
  | orcashiInit fopen logger =>
    have starts := Bool.not_eq_false _ ▸ twice
    show Relocks Mutex.rank (Locks.orcashiInit fopen logger)
    rw [Locks.orcashiInit, Locks.loggerInit, if_pos starts]
    exact path [] .log [.unlock .log, .unlock .log, .lock .log, .unlock .log, .lock .log, .unlock .log,
      .lock .log, .unlock .log, .lock .log, .unlock .log, .lock .state, .unlock .state] rfl
      (by decide +kernel)
  | p2p peers call =>
    cases call with
    | datagram sender buffer n => exact listenerReceive_relocks (Bool.not_eq_false _ ▸ twice)
    | connect | accept | disconnect | send | sendSecure | keepalive => exact absurd trivial twice
  | rawDatagram | event | daemonEvent | command => exact absurd trivial twice
  | daemonCleanup logger =>
    show Relocks Mutex.rank (Locks.daemonCleanup logger)
    rw [Locks.daemonCleanup, Locks.loggerClose, if_pos (not_not.1 twice)]
    exact path [.lock .state, .unlock .state] .log [.unlock .log, .unlock .log] (by simp [Keeps])
      (by decide +kernel)
  | orcashiCleanup logger =>
    show Relocks Mutex.rank (Locks.orcashiCleanup logger)
    rw [Locks.orcashiCleanup, Locks.loggerClose, if_pos (not_not.1 twice)]
    exact path [.lock .log, .unlock .log, .lock .state, .unlock .state] .log
      [.unlock .log, .unlock .log, .lock .log, .unlock .log] (by simp [Keeps]) (by decide +kernel)

/-- Whatever the number of threads and however they interleave: a node that does only these things never
locks a mutex twice, gives back what it locks, takes the mutexes in an acyclic order and never deadlocks,
if and only if none of these things logs with `g_log_mutex` held or adds a peer with `g_p2p_mutex`
held. -/
theorem locks_disciplined_iff (acts : Set Activity) :
    Disciplined (Activity.locks '' acts) ↔ ∀ a ∈ acts, a.LocksOnce := by
  constructor
  · intro disciplined a ha
    by_contra twice
    exact (Activity.relocks twice).not_disciplined (Set.mem_image_of_mem _ ha) disciplined
  · intro once
    refine disciplined_of_checked Mutex.rank fun P hP => ?_
    obtain ⟨a, ha, rfl⟩ := hP
    exact a.checked (once a ha)

/-- A start-up that opens the log file, and a handshake from a peer the node does not know. -/
theorem start_up_and_handshake_lock_twice :
    ¬ Disciplined (Activity.locks '' {.daemonInit (fun _ => true) ⟨false, none⟩}) ∧
      ¬ Disciplined (Activity.locks '' {.p2p [] (.datagram ⟨(10, 0, 0, 1), 9000⟩
        (P2PMessage.make 0 .handshake (ascii "eve|key|sig")).toBytes 31)}) := by
  have twice {a : Activity} (h : ¬ a.LocksOnce) : ¬ Disciplined (Activity.locks '' {a}) :=
    (Activity.relocks h).not_disciplined (Set.mem_image_of_mem _ rfl)
  constructor
  · exact twice (Bool.ne_false_iff.2 (by decide))
  · exact twice (Bool.ne_false_iff.2 (by decide +kernel))

end Orcashi
