import Orcashi.EventLoop

/-!
# Delivering ghost messages

One call of `state_deliver_ghost_messages` marks all that is pending for the recipient and offers an
event for each message to the queue, which takes as many as it has room for and drops the rest.
-/

namespace Orcashi

open CMemory

theorem eventQueuePush_snd (ev : Event) (q : EventQueue) : (eventQueuePush ev q).2 = q.offer ev := by
  unfold eventQueuePush RingBuffer.offer
  cases q.push ev <;> rfl

/-- The text a queue holds after a push: the event at the end, if there was room. -/
theorem toList_offer (ev : Event) (q : EventQueue) :
    (q.offer ev).toList = q.toList ++ [ev].take (eventQueueSize - q.count) :=
  q.toList_foldl_offer [ev]

/-! ## The loop -/

/-- What a delivery makes of a stored message. -/
def GhostMessage.markFor (now : Time) (normId : CString) (gm : GhostMessage) : GhostMessage :=
  if gm.pendingFor normId then { gm with delivered := true, deliveredAt := now } else gm

/-- The loop marks what is pending, counts it, and offers its events in storage order. -/
theorem deliverLoop_eq (now : Time) (normId : CString) (gms : List GhostMessage) (q : EventQueue) :
    deliverLoop now normId gms q =
      (gms.map (·.markFor now normId),
        ((gms.filter (·.pendingFor normId)).map (ghostDeliveredEvent now normId)).foldl
          RingBuffer.offer q,
        (gms.filter (·.pendingFor normId)).length) := by
  induction gms generalizing q with
  | nil => rfl
  | cons gm gms ih =>
    unfold deliverLoop
    by_cases hp : gm.pendingFor normId = true
    · have event : ghostDeliveredEvent now normId { gm with delivered := true, deliveredAt := now } =
          ghostDeliveredEvent now normId gm := rfl
      simp only [hp, if_true, ih, eventQueuePush_snd, event, List.map_cons, List.filter_cons_of_pos,
        List.foldl_cons, List.length_cons, GhostMessage.markFor]
    · simp only [hp, if_false, ih, List.map_cons, List.filter_cons_of_neg, not_false_eq_true,
        GhostMessage.markFor, Bool.false_eq_true]

theorem pendingFor_markFor (now : Time) (normId : CString) (gm : GhostMessage) :
    (gm.markFor now normId).pendingFor normId = false := by
  unfold GhostMessage.markFor
  by_cases hp : gm.pendingFor normId = true
  · rw [if_pos hp]
    simp [GhostMessage.pendingFor]
  · rw [if_neg hp]
    simpa using hp

theorem markFor_eq_self {now : Time} {normId : CString} {gm : GhostMessage}
    (h : gm.pendingFor normId = false) : gm.markFor now normId = gm := by
  unfold GhostMessage.markFor
  rw [h]
  rfl

theorem toId_markFor (now : Time) (normId : CString) (gm : GhostMessage) :
    (gm.markFor now normId).toId = gm.toId := by
  unfold GhostMessage.markFor
  split_ifs <;> rfl

theorem pendingFor_normalizeId_eq_false {toId x : CString} {gm : GhostMessage}
    (h : isSameId gm.toId x = false) (same : normalizeId toId = normalizeId x) :
    gm.pendingFor (normalizeId toId) = false := by
  unfold GhostMessage.pendingFor
  rw [same, isSameId_normalizeId_right, h]
  rfl

/-! ## The call -/

/-- The messages one call delivers: those stored for the recipient and not delivered before. -/
def pendingMessages (toId : CString) (sm : StateManager) : List GhostMessage :=
  if normalizeId toId = [] then []
  else sm.ghosts.filter (·.pendingFor (normalizeId toId))

/-- Whether a call delivers the message. -/
def deliverable (toId : CString) (gm : GhostMessage) : Bool :=
  normalizeId toId ≠ [] && gm.pendingFor (normalizeId toId)

/-- Adjusting a count that does not change under the second adjustment. -/
theorem adjustGhostCount_twice {normId : CString} {f g : ℤ → ℤ} (stable : ∀ n, g (f n) = f n)
    (peers : List Peer) :
    adjustGhostCount normId g (adjustGhostCount normId f peers) =
      adjustGhostCount normId f peers := by
  unfold adjustGhostCount
  cases hf : findRecord normId peers with
  | none => simp only [hf]
  | some c =>
    have again : findRecord normId (c.set { c.val with ghostCount := f c.val.ghostCount }).toList =
        some (c.set { c.val with ghostCount := f c.val.ghostCount }) :=
      Cursor.find_toList_set hf (findRecord_eq_some hf).2
    simp only [again, Cursor.set_val, stable, Cursor.set_set]

theorem stateDeliverGhostMessages_eq (now : Time) (toId : CString) (s : Store) :
    stateDeliverGhostMessages now toId s =
      if normalizeId toId = [] then (0, s)
      else
        let pending := s.sm.ghosts.filter (·.pendingFor (normalizeId toId))
        (pending.length,
          { sm :=
              { s.sm with
                ghosts := s.sm.ghosts.map (·.markFor now (normalizeId toId))
                peers :=
                  adjustGhostCount (normalizeId toId) (fun n => max (n - pending.length) 0)
                    s.sm.peers }
            queue :=
              (pending.map (ghostDeliveredEvent now (normalizeId toId))).foldl RingBuffer.offer
                s.queue }) := by
  unfold stateDeliverGhostMessages
  simp only [deliverLoop_eq]

/-- A second call finds nothing to deliver and changes nothing. -/
theorem deliver_again (now now' : Time) (toId : CString) (s : Store) :
    stateDeliverGhostMessages now' toId (stateDeliverGhostMessages now toId s).2 =
      (0, (stateDeliverGhostMessages now toId s).2) := by
  rw [stateDeliverGhostMessages_eq now]
  by_cases hid : normalizeId toId = []
  · rw [if_pos hid, stateDeliverGhostMessages_eq, if_pos hid]
  · rw [if_neg hid, stateDeliverGhostMessages_eq, if_neg hid]
    have none_pending : (s.sm.ghosts.map (·.markFor now (normalizeId toId))).filter
        (·.pendingFor (normalizeId toId)) = [] := by
      rw [List.filter_eq_nil_iff]
      intro gm hgm
      obtain ⟨gm, -, rfl⟩ := List.mem_map.1 hgm
      rw [pendingFor_markFor]
      decide
    have unmarked : (s.sm.ghosts.map (·.markFor now (normalizeId toId))).map
        (·.markFor now' (normalizeId toId)) = s.sm.ghosts.map (·.markFor now (normalizeId toId)) := by
      rw [List.map_map]
      refine List.map_congr_left fun gm _ => ?_
      exact markFor_eq_self (pendingFor_markFor now (normalizeId toId) gm)
    simp only [none_pending, unmarked, List.length_nil, List.map_nil, List.foldl_nil]
    rw [adjustGhostCount_twice]
    intro n
    omega

theorem mem_deliver_ghosts {now : Time} {toId : CString} {s : Store} {gm : GhostMessage}
    (h : gm ∈ (stateDeliverGhostMessages now toId s).2.sm.ghosts) :
    gm ∈ s.sm.ghosts ∨ ∃ gm₀ ∈ s.sm.ghosts, deliverable toId gm₀ = true ∧
      gm = { gm₀ with delivered := true, deliveredAt := now } := by
  rw [stateDeliverGhostMessages_eq] at h
  by_cases hid : normalizeId toId = []
  · rw [if_pos hid] at h
    exact Or.inl h
  · rw [if_neg hid] at h
    obtain ⟨gm₀, hgm₀, rfl⟩ := List.mem_map.1 h
    by_cases hp : gm₀.pendingFor (normalizeId toId) = true
    · refine Or.inr ⟨gm₀, hgm₀, by simp [deliverable, hid, hp], ?_⟩
      unfold GhostMessage.markFor
      rw [if_pos hp]
    · rw [markFor_eq_self (by simpa using hp)]
      exact Or.inl hgm₀

/-- Delivering to `x` leaves what is stored under other ids alone. -/
theorem deliver_frame {toId x : CString}
    (names : Names toId x) (now : Time) (s : Store) :
    s.sm.FrameExcept x (s.deliver now toId).sm := by
  unfold Store.deliver
  rw [stateDeliverGhostMessages_eq]
  by_cases hid : normalizeId toId = []
  · rw [if_pos hid]
    exact .refl x s.sm
  · rw [if_neg hid]
    have same := names.resolve_right hid
    refine ⟨?_, ?_⟩
    · dsimp only
      exact adjustGhostCount_filter same _ _
    · show (s.sm.ghosts.map _).filter _ = _
      induction s.sm.ghosts with
      | nil => rfl
      | cons gm gms ih =>
        rw [List.map_cons, List.filter_cons, List.filter_cons, toId_markFor, ih]
        by_cases hx : isSameId gm.toId x = true
        · simp [hx]
        · rw [markFor_eq_self (pendingFor_normalizeId_eq_false (by simpa using hx) same)]

/-! ## What one call does -/

/-- Everything pending for the recipient is marked, once and in place; the queue takes the events of
the first messages, as many as it has room for, in storage order; the call returns how many messages
it marked; and a second call changes nothing. -/
theorem stateDeliverGhostMessages_spec (now now' : Time) (toId : CString) (s : Store) :
    let pending := pendingMessages toId s.sm
    let r := stateDeliverGhostMessages now toId s
    r.1 = pending.length ∧
      r.2.sm.ghosts = s.sm.ghosts.map (fun gm =>
        if deliverable toId gm then { gm with delivered := true, deliveredAt := now } else gm) ∧
      r.2.queue.toList = s.queue.toList ++
        (pending.map (ghostDeliveredEvent now (normalizeId toId))).take
          (eventQueueSize - s.queue.count) ∧
      stateDeliverGhostMessages now' toId r.2 = (0, r.2) := by
  intro pending r
  refine ⟨?_, ?_, ?_, deliver_again now now' toId s⟩
  · show (stateDeliverGhostMessages now toId s).1 = (pendingMessages toId s.sm).length
    rw [stateDeliverGhostMessages_eq, pendingMessages]
    split_ifs <;> rfl
  · show (stateDeliverGhostMessages now toId s).2.sm.ghosts = _
    rw [stateDeliverGhostMessages_eq]
    by_cases hid : normalizeId toId = []
    · simp [hid, deliverable]
    · rw [if_neg hid]
      refine List.map_congr_left fun gm _ => ?_
      simp [GhostMessage.markFor, deliverable, hid]
  · show (stateDeliverGhostMessages now toId s).2.queue.toList = _ ++
      ((pendingMessages toId s.sm).map _).take _
    rw [stateDeliverGhostMessages_eq, pendingMessages]
    by_cases hid : normalizeId toId = []
    · simp [hid]
    · rw [if_neg hid, if_neg hid]
      exact RingBuffer.toList_foldl_offer _ _

/-- A message for a peer that has not been delivered. -/
def messageForBob : GhostMessage where
  id := ascii "ghost_1_1"
  fromId := []
  toId := ascii "bob"
  message := ascii "hi"
  timestamp := 1
  delivered := false
  deliveredAt := 0
  retryCount := 0

/-- A queue that has filled up. -/
def fullQueue : EventQueue where
  slot := fun _ => Event.zero
  head := 0
  tail := 0
  count := eventQueueSize
  head_lt := Nat.zero_lt_succ 1023
  count_le := Nat.le_refl _
  tail_eq := by decide

/-- With a full queue the message is marked and counted and no event is enqueued. -/
theorem deliver_full_queue :
    let s : Store := ⟨{ StateManager.init with ghosts := [messageForBob] }, fullQueue⟩
    let r := stateDeliverGhostMessages 7 (ascii "bob") s
    r.1 = 1 ∧ r.2.sm.ghosts = [{ messageForBob with delivered := true, deliveredAt := 7 }] ∧
      r.2.queue = s.queue := by
  refine ⟨?_, ?_, ?_⟩
  · decide
  · decide
  · rfl

end Orcashi
