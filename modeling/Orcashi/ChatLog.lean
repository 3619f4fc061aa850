import Orcashi.Daemon
import Orcashi.DataPath

/-!
# The log of received texts

A DATA message that is accepted is logged when it arrives, and an event with its text is put into
the queue; when the event thread comes to that event, it logs the text as well.  Whatever the order
in which datagrams arrive and events are processed, in the end every text is in the log twice.
-/

namespace Orcashi

open CMemory

/-! ## Accepted messages -/

/-- The text a DATA message is accepted with; a payload that does not open is not accepted. -/
def acceptedText (env : Env) (peer : P2PPeer) (msg : P2PMessage) : Option CString :=
  if peer.isSecure ∧ sealSize < msg.payloadLen.toNat then
    (openPayload env peer msg).map fun plaintext => strAt plaintext 0
  else some (payloadText msg)

theorem handleData_accepted {env : Env} {peer : P2PPeer} {msg : P2PMessage} {text : CString}
    (h : acceptedText env peer msg = some text) (sh : Shared) :
    ∃ es, handleData env peer msg sh =
      ⟨0, { peer with lastActivity := env.now }, receiveText env peer text (sh.record es)⟩ := by
  unfold acceptedText at h
  unfold handleData
  split_ifs at h ⊢
  · obtain ⟨plaintext, opened, rfl⟩ := Option.map_eq_some_iff.1 h
    rw [opened]
    exact ⟨_, rfl⟩
  · obtain rfl := Option.some.inj h
    exact ⟨_, rfl⟩

/-- A message that is not accepted leaves the record and the store alone. -/
theorem handleData_refused {env : Env} {peer : P2PPeer} {msg : P2PMessage}
    (h : acceptedText env peer msg = none) (sh : Shared) :
    ∃ es, handleData env peer msg sh = ⟨-1, peer, sh.record es⟩ := by
  unfold acceptedText at h
  unfold handleData
  split_ifs at h ⊢
  rw [Option.map_eq_none_iff.1 h]
  exact ⟨_, rfl⟩

/-- From whom, and with which text, the listener accepts a DATA message. -/
def heardFrom (env : Env) (sender : SockAddrIn) (buffer : Bytes) (n : ℕ) (node : Node) :
    Option (CString × CString) :=
  let msg := P2PMessage.ofBuffer buffer
  if headerOk msg n ∧ msg.type = P2PMessageType.data.code then
    (findAddr sender node.peers).bind fun c =>
      (acceptedText env c.val msg).map fun text => (c.val.id.val, text)
  else none

/-- What a step of the daemon accepts. -/
def heard (node : Node) (l : Env × DaemonCall) : List (CString × CString) :=
  match l.2 with
  | .p2p (.datagram sender buffer n) => (heardFrom l.1 sender buffer n node).toList
  | _ => []

/-- A turn of the listener that accepts a DATA message, or a turn of the event thread, with room in
the queue and in the log. -/
structure ChatTurn (node : Node) (l : Env × DaemonCall) : Prop where
  queue : node.shared.queue.count < eventQueueSize
  log : node.shared.sm.messages.length < maxMessages
  turn : l.2 = .processEvent ∨ heard node l ≠ []

/-! ## What is logged and what is queued -/

/-- The entry `from|text` of a message. -/
def entry (h : CString × CString) : CString := logEntry h.1 h.2

/-- The entry the event thread will make of an event. -/
def Event.entry (ev : Event) : CString := logEntry ev.fromId ev.message

/-- An accepted text is logged and queued. -/
theorem receiveText_chat (env : Env) (peer : P2PPeer) (text : CString) {sh : Shared}
    (queue : sh.queue.count < eventQueueSize) (log : sh.sm.messages.length < maxMessages) :
    (receiveText env peer text sh).queue.toList = sh.queue.toList ++ [textEvent env peer text] ∧
      (receiveText env peer text sh).sm.messages =
        sh.sm.messages ++ [logEntry peer.id.val text] := by
  rw [receiveText_queue, receiveText_messages, if_neg (Nat.not_le.2 log)]
  refine ⟨?_, rfl⟩
  congr 1
  apply List.take_of_length_le
  rw [List.length_singleton]
  omega

/-- The store after a turn of the listener that accepts a message. -/
theorem listenerReceive_heard {env : Env} {sender : SockAddrIn} {buffer : Bytes} {n : ℕ}
    {node : Node} {h : CString × CString} (accepted : heardFrom env sender buffer n node = some h) :
    ∃ peer es, peer.id.val = h.1 ∧ (listenerReceive env sender buffer n node).2.shared =
      receiveText env peer h.2 (node.shared.record es) := by
  unfold heardFrom at accepted
  dsimp only at accepted
  split_ifs at accepted with ok
  obtain ⟨header, data⟩ := ok
  obtain ⟨c, found, mapped⟩ := Option.bind_eq_some_iff.1 accepted
  obtain ⟨text, opened, rfl⟩ := Option.map_eq_some_iff.1 mapped
  obtain ⟨es, handled⟩ := handleData_accepted opened node.shared
  refine ⟨c.val, es, rfl, ?_⟩
  rw [listenerReceive_known found header]
  unfold Node.write dispatch
  rw [data, P2PMessageType.ofCode_code]
  dsimp only
  rw [handled]

/-- What the event thread makes of the event of a text. -/
theorem eventProcess_message (now : Time) {ev : Event} (type : ev.type = .messageReceived)
    {s : Store} (log : s.sm.messages.length < maxMessages) :
    (eventProcess now ev s).2.sm.messages = s.sm.messages ++ [ev.entry] ∧
      (eventProcess now ev s).2.queue = s.queue := by
  have kept (id : CString) (f : Peer → Peer) (sm : StateManager) :
      (modifyPeer id f sm).2.messages = sm.messages := by
    unfold modifyPeer
    split_ifs
    · rfl
    · cases findRecord (normalizeId id) sm.peers <;> rfl
  unfold eventProcess
  rw [type]
  refine ⟨?_, rfl⟩
  show (stateAddMessage ev.fromId ev.message (stateUpdateLastSeen now ev.fromId
    (stateSetOnline now ev.fromId true s.sm).2).2).2.messages = _
  have before : (stateUpdateLastSeen now ev.fromId
      (stateSetOnline now ev.fromId true s.sm).2).2.messages = s.sm.messages :=
    (kept _ _ _).trans (kept _ _ _)
  unfold stateAddMessage
  rw [if_neg (by rw [before]; omega), before]
  rfl

/-! ## Runs -/

/-- Since `start` every text heard was logged or queued twice: once on arrival, and once by the event
thread or as an event that waits for it. -/
structure LoggedTwice (start node : Node) (texts : List (CString × CString)) : Prop where
  events : ∀ ev ∈ node.shared.queue.toList, ev.type = .messageReceived
  log : ∃ entries, node.shared.sm.messages = start.shared.sm.messages ++ entries ∧
    (entries ++ node.shared.queue.toList.map Event.entry).Perm
      (texts.map entry ++ texts.map entry)

theorem LoggedTwice.receive {start node : Node} {texts : List (CString × CString)}
    (h : LoggedTwice start node texts) {l : Env × DaemonCall} (turn : ChatTurn node l)
    (hears : heard node l ≠ []) : LoggedTwice start (daemonStep node l) (texts ++ heard node l) := by
  obtain ⟨env, call⟩ := l
  unfold heard at hears ⊢
  -- only a datagram is heard
  cases call with
  | p2p call =>
    cases call with
    | datagram sender buffer n =>
      dsimp only at hears ⊢
      cases accepted : heardFrom env sender buffer n node with
      | none =>
        rw [accepted] at hears
        exact absurd rfl hears
      | some text =>
        obtain ⟨peer, es, from_, shared⟩ := listenerReceive_heard accepted
        have room : (node.shared.record es).queue.count < eventQueueSize := turn.queue
        obtain ⟨queue, log⟩ := receiveText_chat env peer text.2 room turn.log
        have after : (daemonStep node (env, .p2p (.datagram sender buffer n))).shared =
            receiveText env peer text.2 (node.shared.record es) := shared
        obtain ⟨entries, logged, perm⟩ := h.log
        refine ⟨?_, entries ++ [entry text], ?_, ?_⟩
        · intro ev hev
          rw [after, queue] at hev
          rcases List.mem_append.1 hev with hev | hev
          · exact h.events ev hev
          · rw [List.mem_singleton.1 hev]
            rfl
        · rw [after, log, from_, ← List.append_assoc, ← logged]
          rfl
        · have event : (textEvent env peer text.2).entry = entry text := by
            show logEntry peer.id.val text.2 = logEntry text.1 text.2
            rw [from_]
          rw [after, queue, List.perm_iff_count]
          intro e
          have counts := List.perm_iff_count.1 perm e
          simp only [List.map_append, List.map_cons, List.map_nil, List.count_append, event,
            Option.toList_some] at counts ⊢
          have same : (node.shared.record es).queue = node.shared.queue := rfl
          rw [same]
          omega
    | _ => exact absurd rfl hears
  | _ => exact absurd rfl hears

theorem LoggedTwice.process {start node : Node} {texts : List (CString × CString)}
    (h : LoggedTwice start node texts) {env : Env} (turn : ChatTurn node (env, .processEvent)) :
    LoggedTwice start (daemonStep node (env, .processEvent)) texts := by
  have step : (daemonStep node (env, .processEvent)).shared.toStore =
      eventLoopStep env.now node.shared.toStore := rfl
  unfold eventLoopStep at step
  cases pop : node.shared.queue.pop with
  | none =>
    rw [pop] at step
    refine ⟨?_, ?_⟩
    · rw [step]
      exact h.events
    · rw [step]
      exact h.log
  | some r =>
    obtain ⟨ev, q⟩ := r
    rw [pop] at step
    have list := RingBuffer.toList_pop pop
    have type := h.events ev (list ▸ List.mem_cons_self)
    have room : (Store.mk node.shared.sm q).sm.messages.length < maxMessages := turn.log
    obtain ⟨messages, queue⟩ := eventProcess_message env.now type room
    obtain ⟨entries, logged, perm⟩ := h.log
    refine ⟨?_, entries ++ [ev.entry], ?_, ?_⟩
    · intro ev' hev'
      rw [step, queue] at hev'
      exact h.events ev' (list ▸ List.mem_cons_of_mem ev hev')
    · rw [step, messages, ← List.append_assoc, ← logged]
    · rw [step, queue]
      rw [list, List.map_cons] at perm
      rwa [List.append_assoc, List.singleton_append]

theorem LoggedTwice.turn {start node : Node} {texts : List (CString × CString)}
    {l : Env × DaemonCall} (h : LoggedTwice start node texts) (turn : ChatTurn node l) :
    LoggedTwice start (daemonStep node l) (texts ++ heard node l) := by
  rcases turn.turn with process | hears
  · obtain ⟨env, call⟩ := l
    obtain rfl : call = .processEvent := process
    have silent : heard node (env, .processEvent) = [] := rfl
    rw [silent, List.append_nil]
    exact h.process turn
  · exact h.receive turn hears

/-- In every run of such turns that empties the queue, every text was logged exactly twice. -/
theorem logged_twice {node : Node} (idle : node.shared.queue.toList = [])
    {ls : List (Env × DaemonCall)} (turns : History.Meets daemonStep ChatTurn node ls)
    (drained : (History.run daemonStep node ls).shared.queue.toList = []) :
    ∃ entries, (History.run daemonStep node ls).shared.sm.messages =
        node.shared.sm.messages ++ entries ∧
      entries.Perm ((History.outputs daemonStep heard node ls).map entry ++
        (History.outputs daemonStep heard node ls).map entry) := by
  have start : LoggedTwice node node [] := by
    refine ⟨?_, [], (List.append_nil _).symm, ?_⟩
    · rw [idle]
      exact fun ev hev => absurd hev List.not_mem_nil
    · rw [idle]
      exact .refl _
  have final := History.run_invariant_outputs (LoggedTwice node)
    (fun s l texts h turn => h.turn turn) start turns
  obtain ⟨entries, logged, perm⟩ := final.log
  rw [drained, List.map_nil, List.append_nil] at perm
  exact ⟨entries, logged, perm⟩

/-- Between `before` and `after` every text heard was logged once, those of one peer in the order in
which they were heard. -/
def LoggedOnce (before after : StateManager) (texts : List (CString × CString)) : Prop :=
  ∃ logged : List (CString × CString),
    after.messages = before.messages ++ logged.map entry ∧
      ∀ x, logged.filter (fun h => h.1 = x) = texts.filter fun h => h.1 = x

theorem length_eq_of_filter_eq {l l' : List (CString × CString)}
    (h : ∀ x, l.filter (fun h => h.1 = x) = l'.filter fun h => h.1 = x) : l.length = l'.length := by
  apply List.Perm.length_eq
  rw [List.perm_iff_count]
  intro a
  have own (l : List (CString × CString)) :
      l.count a = (l.filter fun h => h.1 = a.1).count a :=
    (List.count_filter (by simp)).symm
  rw [own l, own l', h a.1]

/-- Once the queue is empty again, every accepted DATA message was logged exactly once only if there
was none. -/
theorem logged_once_iff {node : Node} (idle : node.shared.queue.toList = [])
    {ls : List (Env × DaemonCall)} (turns : History.Meets daemonStep ChatTurn node ls)
    (drained : (History.run daemonStep node ls).shared.queue.toList = []) :
    LoggedOnce node.shared.sm (History.run daemonStep node ls).shared.sm
        (History.outputs daemonStep heard node ls) ↔
      History.outputs daemonStep heard node ls = [] := by
  obtain ⟨entries, messages, perm⟩ := logged_twice idle turns drained
  have twice := perm.length_eq
  rw [List.length_append, List.length_map] at twice
  constructor
  · rintro ⟨logged, once, order⟩
    have same : entries = logged.map entry := List.append_cancel_left (messages.symm.trans once)
    have count := length_eq_of_filter_eq order
    rw [same, List.length_map] at twice
    apply List.eq_nil_of_length_eq_zero
    omega
  · intro silent
    rw [silent] at twice ⊢
    refine ⟨[], ?_, fun x => rfl⟩
    rw [messages, List.eq_nil_of_length_eq_zero twice]
    rfl

/-- `bob` with a connection, before any message. -/
def bobReached : Node :=
  History.run p2pStep .init
    [(reachesBob, .connect (ascii "bob")), (reachesBob, datagramOf .handshakeResponse [1])]

/-- One message of his, and a turn of the event thread. -/
def greetingTurns : List (Env × DaemonCall) :=
  [(reachesBob, .p2p (datagramOf .data (ascii "hi"))), (reachesBob, .processEvent)]

theorem greetingTurns_meet : History.Meets daemonStep ChatTurn bobReached greetingTurns :=
  ⟨⟨by decide, by decide, Or.inr (by decide)⟩, ⟨by decide, by decide, Or.inl rfl⟩, trivial⟩

theorem logged_once_iff_greeting :
    LoggedOnce bobReached.shared.sm (History.run daemonStep bobReached greetingTurns).shared.sm
        (History.outputs daemonStep heard bobReached greetingTurns) ↔
      History.outputs daemonStep heard bobReached greetingTurns = [] :=
  logged_once_iff (by decide) greetingTurns_meet (by decide)

/-- The message is in the log twice. -/
theorem greeting_logged_twice :
    History.outputs daemonStep heard bobReached greetingTurns = [(ascii "bob", ascii "hi")] ∧
      (History.run daemonStep bobReached greetingTurns).shared.sm.messages =
        [ascii "bob|hi", ascii "bob|hi"] ∧
      ¬ LoggedOnce bobReached.shared.sm
        (History.run daemonStep bobReached greetingTurns).shared.sm
        (History.outputs daemonStep heard bobReached greetingTurns) := by
  have heard_once : History.outputs daemonStep heard bobReached greetingTurns =
      [(ascii "bob", ascii "hi")] := by decide
  have twice : (History.run daemonStep bobReached greetingTurns).shared.sm.messages =
      [ascii "bob|hi", ascii "bob|hi"] := by decide
  refine ⟨heard_once, twice, ?_⟩
  rintro ⟨logged, once, order⟩
  rw [heard_once] at order
  have count := length_eq_of_filter_eq order
  have entries : bobReached.shared.sm.messages = [] := by decide
  rw [twice, entries, List.nil_append] at once
  have length := congrArg List.length once
  rw [List.length_map, count] at length
  cases length

end Orcashi
