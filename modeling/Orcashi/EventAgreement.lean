import Orcashi.StoreEffects

/-!
# Confirmations between the P2P manager and the event loop

The P2P manager announces a confirmation by an event that carries the peer as `peer_id`; the
handlers of confirmations act on `from_id`, which it leaves empty.  So the events of the P2P manager
are processed without effect.
-/

namespace Orcashi

open CMemory

/-! ## The events of the P2P manager -/

/-- The events the P2P manager and the deliveries it starts push. -/
def Event.Reported (ev : Event) : Prop :=
  match ev.type with
  | .acceptConfirm | .rejectConfirm => ev.fromId = []
  | .addRequest | .messageReceived | .peerOffline | .ghostDelivered => True
  | _ => False

/-- A step that adds to the queue such events only. -/
structure Reports (s s' : Store) : Prop where
  events : ∃ evs, s'.queue.toList = s.queue.toList ++ evs ∧ ∀ ev ∈ evs, ev.Reported

namespace Reports

variable {s t u : Store}

theorem of_queue (h : t.queue = s.queue) : Reports s t :=
  ⟨[], by rw [h, List.append_nil], fun _ hev => absurd hev List.not_mem_nil⟩

theorem trans (hst : Reports s t) (htu : Reports t u) : Reports s u := by
  obtain ⟨evs, queue, reported⟩ := hst.events
  obtain ⟨evs', queue', reported'⟩ := htu.events
  refine ⟨evs ++ evs', ?_, ?_⟩
  · rw [queue', queue, List.append_assoc]
  · intro ev hev
    rcases List.mem_append.1 hev with hev | hev
    · exact reported ev hev
    · exact reported' ev hev

theorem push (h : Reports s t) {ev : Event} (reported : ev.Reported) : Reports s (t.push ev) := by
  apply h.trans
  refine ⟨[ev].take (eventQueueSize - t.queue.count), ?_, ?_⟩
  · show (eventQueuePush ev t.queue).2.toList = _
    rw [eventQueuePush_snd]
    exact toList_offer ev t.queue
  · intro ev' hev'
    rw [List.mem_singleton.1 (List.mem_of_mem_take hev')]
    exact reported

theorem deliver (h : Reports s t) (now : Time) (id : CString) : Reports s (t.deliver now id) := by
  apply h.trans
  obtain ⟨-, -, queue, -⟩ := stateDeliverGhostMessages_spec now now id t
  refine ⟨_, queue, ?_⟩
  intro ev hev
  obtain ⟨gm, -, rfl⟩ := List.mem_map.1 (List.mem_of_mem_take hev)
  trivial

end Reports

theorem messageEffect_reports (env : Env) (peer : P2PPeer) (text : CString) (s : Store)
    (type : P2PMessageType) : Reports s (messageEffect env peer text s type) := by
  have same := Reports.of_queue (s := s) (t := s) rfl
  cases type with
  | handshake =>
    have written : Reports s ((((s.call (stateUpdatePeer env.now peer.id.val .friend)).call
        (stateSetOnline env.now peer.id.val true)).call (stateSetIp peer.id.val peer.ip.val)).call
          (stateSetPort peer.id.val peer.port)) := .of_queue rfl
    exact written.push rfl
  | handshakeResponse | keepalive | close => exact same
  | data =>
    have pushed : Reports s (s.push (textEvent env peer text)) := same.push trivial
    exact pushed.trans (.of_queue rfl)
  | addRequest =>
    have written : Reports s (((s.call (stateUpdatePeer env.now text .requestReceived)).call
        (stateSetIp text peer.ip.val)).call (stateSetPort text peer.port)) := .of_queue rfl
    exact written.push trivial
  | acceptConfirm =>
    have written : Reports s ((((s.call (stateUpdatePeer env.now text .friend)).call
        (stateSetOnline env.now text true)).call (stateSetIp text peer.ip.val)).call
          (stateSetPort text peer.port)) := .of_queue rfl
    exact (written.deliver env.now text).push rfl
  | rejectConfirm =>
    have removed : Reports s (s.call (stateRemovePeer text)) := .of_queue rfl
    exact removed.push rfl

theorem goOffline_reports (env : Env) (id : CString) (s : Store) :
    Reports s (goOffline env id s) := by
  have written : Reports s (s.call (stateSetOnline env.now id false)) := .of_queue rfl
  exact written.push trivial

theorem p2pStep_reports (node : Node) (l : Env × P2PCall) :
    Reports node.shared.toStore (p2pStep node l).shared.toStore := by
  obtain ⟨env, call⟩ := l
  show Reports node.shared.toStore (call.step env node).shared.toStore
  rcases p2pStep_store node env call with
    ⟨-, store⟩ | ⟨-, a, -, store⟩ | ⟨-, -, id, store⟩ <;> rw [store]
  · apply List.foldlRecOn (motive := Reports node.shared.toStore)
    · exact .of_queue rfl
    · exact fun s told id _ => told.trans (goOffline_reports env id.val s)
  · exact messageEffect_reports env a.peer a.text _ a.type
  · have written : Reports node.shared.toStore
        (node.shared.toStore.call (stateUpdatePeer env.now id .friend)) := .of_queue rfl
    exact written.push rfl

/-! ## Processing confirmations -/

/-- Processing a confirmation acts on `x`: an ACCEPT_CONFIRM leaves an online friend with a place to
reach it and without waiting messages, a REJECT_CONFIRM leaves no record; nothing else changes. -/
def ActsOn (x : CString) (ev : Event) (s s' : Store) : Prop :=
  s.FrameExcept x s' ∧
    match ev.type with
    | .acceptConfirm => ∃ p', stateGetPeer x s'.sm = some p' ∧ p'.state = .friend ∧
        p'.online = true ∧ pendingMessages x s'.sm = [] ∧
        ∀ p, stateGetPeer x s.sm = some p → (p.ip ≠ [] → p'.ip ≠ []) ∧ (p.port ≠ 0 → p'.port ≠ 0)
    | .rejectConfirm => stateGetPeer x s'.sm = none
    | _ => True

theorem modifyPeer_nil (f : Peer → Peer) (sm : StateManager) : modifyPeer [] f sm = (-1, sm) := by
  unfold modifyPeer
  rw [if_pos normalizeId_nil]

/-- Without a sender a confirmation has no effect. -/
theorem eventProcess_confirm {ev : Event}
    (confirms : ev.type = .acceptConfirm ∨ ev.type = .rejectConfirm)
    (anonymous : ev.fromId = []) (now : Time) (s : Store) : (eventProcess now ev s).2 = s := by
  have skip (f : Peer → Peer) : s.call (modifyPeer [] f) = s := by
    unfold Store.call
    rw [modifyPeer_nil]
  unfold eventProcess
  rcases confirms with type | type
  · rw [type]
    show eventHandleAcceptConfirm now ev s = s
    unfold eventHandleAcceptConfirm stateUpdatePeer stateSetOnline stateSetIp stateSetPort
    rw [anonymous, skip, skip, skip, skip]
    unfold Store.deliver
    rw [stateDeliverGhostMessages_eq, if_pos normalizeId_nil]
  · rw [type]
    show eventHandleRejectConfirm ev s = s
    unfold eventHandleRejectConfirm Store.call stateRemovePeer
    rw [anonymous, if_pos normalizeId_nil]

/-- Processing a confirmation that the P2P manager enqueued acts on a peer exactly if it is an
ACCEPT_CONFIRM and there is nothing left to do for that peer. -/
theorem confirm_acts_iff {node : Node} {l : Env × P2PCall} {ev : Event}
    (enqueued : ev ∈ (p2pStep node l).shared.queue.toList.drop node.shared.queue.count)
    (confirms : ev.type = .acceptConfirm ∨ ev.type = .rejectConfirm) {x : CString} {s : Store}
    {p : Peer} (present : stateGetPeer x s.sm = some p) (now : Time) :
    ActsOn x ev s (eventProcess now ev s).2 ↔
      ev.type = .acceptConfirm ∧ p.state = .friend ∧ p.online = true ∧
        pendingMessages x s.sm = [] := by
  obtain ⟨evs, queue, reported⟩ := (p2pStep_reports node l).events
  rw [queue, ← RingBuffer.length_toList, List.drop_left] at enqueued
  have anonymous : ev.fromId = [] := by
    have kind := reported ev enqueued
    unfold Event.Reported at kind
    rcases confirms with type | type <;> rw [type] at kind <;> exact kind
  rw [eventProcess_confirm confirms anonymous]
  unfold ActsOn
  rcases confirms with type | type
  · rw [type]
    constructor
    · rintro ⟨-, p', found, friend, online, delivered, -⟩
      obtain rfl : p = p' := Option.some.inj (present.symm.trans found)
      exact ⟨rfl, friend, online, delivered⟩
    · rintro ⟨-, friend, online, delivered⟩
      refine ⟨.refl x s, p, present, friend, online, delivered, ?_⟩
      intro q hq
      obtain rfl : p = q := Option.some.inj (present.symm.trans hq)
      exact ⟨fun h => h, fun h => h⟩
  · rw [type]
    constructor
    · rintro ⟨-, absent⟩
      rw [present] at absent
      cases absent
    · rintro ⟨h, -⟩
      cases h

/-! ## A friend who goes away -/

/-- A store with one record of `bob`, a friend. -/
def knowsBob (online : Bool) : Store :=
  { Store.init with
    sm := { StateManager.init with
      peers := [{ Peer.zero with id := ascii "bob", state := .friend, online := online }] } }

theorem confirm_acts_iff_bob :
    ActsOn (ascii "bob") (eventCreate 0 .acceptConfirm (ascii "bob")) (knowsBob true)
        (eventProcess 1 (eventCreate 0 .acceptConfirm (ascii "bob")) (knowsBob true)).2 ↔
      (eventCreate 0 .acceptConfirm (ascii "bob")).type = .acceptConfirm ∧
        PeerState.friend = .friend ∧ true = true ∧
          pendingMessages (ascii "bob") (knowsBob true).sm = [] := by
  have enqueued : eventCreate 0 .acceptConfirm (ascii "bob") ∈ (p2pStep bobReached
      (reachesBob, datagramOf .acceptConfirm (ascii "bob"))).shared.queue.toList.drop
        bobReached.shared.queue.count := by
    decide
  have present : stateGetPeer (ascii "bob") (knowsBob true).sm =
      some { Peer.zero with id := ascii "bob", state := .friend, online := true } := rfl
  exact confirm_acts_iff enqueued (Or.inl rfl) present 1

/-- The events of both confirmations of `bob` leave him as he is, away and known. -/
theorem confirm_ignored :
    eventCreate 0 .acceptConfirm (ascii "bob") ∈ (p2pStep bobReached
        (reachesBob, datagramOf .acceptConfirm (ascii "bob"))).shared.queue.toList ∧
      ¬ ActsOn (ascii "bob") (eventCreate 0 .acceptConfirm (ascii "bob")) (knowsBob false)
        (eventProcess 1 (eventCreate 0 .acceptConfirm (ascii "bob")) (knowsBob false)).2 ∧
      eventCreate 0 .rejectConfirm (ascii "bob") ∈ (p2pStep bobReached
        (reachesBob, datagramOf .rejectConfirm (ascii "bob"))).shared.queue.toList ∧
      ¬ ActsOn (ascii "bob") (eventCreate 0 .rejectConfirm (ascii "bob")) (knowsBob false)
        (eventProcess 1 (eventCreate 0 .rejectConfirm (ascii "bob")) (knowsBob false)).2 := by
  refine ⟨by decide, ?_, by decide, ?_⟩
  · rintro ⟨-, p, found, -, online, -⟩
    have away : (stateGetPeer (ascii "bob") (eventProcess 1
        (eventCreate 0 .acceptConfirm (ascii "bob")) (knowsBob false)).2.sm).map Peer.online =
          some false := by decide
    rw [found, Option.map_some, online] at away
    cases away
  · rintro ⟨-, absent⟩
    have known : (stateGetPeer (ascii "bob") (eventProcess 1
        (eventCreate 0 .rejectConfirm (ascii "bob")) (knowsBob false)).2.sm).isSome = true := by
      decide
    have none : stateGetPeer (ascii "bob") (eventProcess 1
        (eventCreate 0 .rejectConfirm (ascii "bob")) (knowsBob false)).2.sm = none := absent
    rw [none] at known
    cases known

end Orcashi
