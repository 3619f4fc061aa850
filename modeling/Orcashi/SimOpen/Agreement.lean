import Orcashi.SimOpen.Side

/-!
# Agreement on the token

Where SYNCs cross, each side takes over the token of the other one, and the acknowledgements that follow
carry a token their receiver has given up.  Where only one side sends SYNCs, both end with its token.
-/

namespace Orcashi

open History

/-! ## What every run keeps -/

/-- What a side has read. -/
def SimOpenLink.heard (s : SimOpenLink) (x : SimOpenSide) : List SimPacket :=
  (s x.other).sent.take (s x).taken

/-- What holds of two sides in every state of a run. -/
structure SimOpenLink.Inv (start : SimOpenSide → SimOpenStart) (s : SimOpenLink) : Prop where
  taken : ∀ x, (s x).taken ≤ (s x.other).sent.length
  side : ∀ x, (s x).Inv (start x) (start x.other).token (s.heard x) (∃ y, Synced (s y).sent)

section Runs

variable {start : SimOpenSide → SimOpenStart} {s : SimOpenLink}

theorem SimOpenLink.inv_init : (init start).Inv start where
  taken := fun _ => Nat.le_refl _
  side := by
    intro x
    refine ⟨⟨?_, ?_, ?_, ?_, ?_⟩, ?_, Or.inl rfl, ?_⟩ <;>
      simp [init, SimOpenParty.init, SimOpenSession.init, heard, Closed]

/-- The next packet is one the other side has sent, and no CLOSE came before it. -/
theorem SimOpenLink.Inv.arrives (inv : s.Inv start) {x : SimOpenSide} {q : SimPacket}
    (next : (s x).next (s x.other) = some q) :
    Arrives (start x.other).token (s.heard x) (∃ y, Synced (s y).sent) q ∧
      0 ≤ (s x).session.socketFd := by
  unfold SimOpenParty.next at next
  split_ifs at next with socket
  have sent := (inv.side x.other).sent
  have mem : q ∈ (s x.other).sent := List.mem_of_getElem? next
  refine ⟨⟨sent.proper q mem, sent.syncs q mem, ?_, ?_⟩, Int.not_lt.1 socket⟩
  · rintro (sync | answer)
    · exact ⟨x.other, q, mem, sync⟩
    · exact sent.answers q mem answer
  · rintro ⟨r, hr, close⟩
    refine sent.last ⟨r, ?_, close⟩
    have more : (s x).taken ≤ (s x.other).sent.length - 1 := by
      have := (List.getElem?_eq_some_iff.1 next).1
      omega
    rw [List.dropLast_eq_take]
    exact (List.take_subset_take_left _ more) hr

/-- What a step makes of the side that takes it, of the other side and of what both have sent. -/
theorem SimOpenLink.Inv.step (inv : s.Inv start) (l : SimOpenSide × SimOpenMove) :
    (simOpenStep start s l).Inv start := by
  obtain ⟨x, m⟩ := l
  obtain ⟨read, found, taken, ⟨new, sent⟩, moved⟩ :=
    (inv.side x).move (fun q hq => inv.arrives hq) m
  set p' := (s x).move (start x) ((s x).next (s x.other)) m with hp'
  have mover : simOpenStep start s (x, m) x = p' := Function.update_self ..
  have other : simOpenStep start s (x, m) x.other = s x.other :=
    Function.update_of_ne x.other_ne ..
  have cause : (∃ y, Synced (s y).sent) → ∃ y, Synced (simOpenStep start s (x, m) y).sent := by
    rintro ⟨y, synced⟩
    refine ⟨y, ?_⟩
    obtain rfl | rfl := x.eq_or_eq_other y
    · rw [mover, sent.1]
      exact synced_append.2 (Or.inl synced)
    · rwa [other]
  have mover_taken : p'.taken ≤ (s x.other).sent.length ∧
      (s x.other).sent.take p'.taken = s.heard x ++ read := by
    rw [taken]
    obtain rfl | ⟨q, next, rfl⟩ := found
    · exact ⟨inv.taken x, (List.append_nil _).symm⟩
    · unfold SimOpenParty.next at next
      split_ifs at next
      refine ⟨(List.getElem?_eq_some_iff.1 next).1, ?_⟩
      rw [List.length_singleton, List.take_add_one, next]
      rfl
  have other_heard : p'.sent.take (s x.other).taken = s.heard x.other := by
    have bound := inv.taken x.other
    rw [SimOpenSide.other_other] at bound
    rw [sent.1, List.take_append_of_le_length bound, heard, SimOpenSide.other_other]
  constructor
  · intro y
    obtain rfl | rfl := x.eq_or_eq_other y
    · rw [mover, other]
      exact mover_taken.1
    · have bound := inv.taken x.other
      rw [SimOpenSide.other_other] at bound
      rw [other, SimOpenSide.other_other, mover, sent.1, List.length_append]
      omega
  · intro y
    obtain rfl | rfl := x.eq_or_eq_other y
    · unfold heard
      rw [mover, other, mover_taken.2]
      exact moved.mono cause
    · unfold heard
      rw [SimOpenSide.other_other, other, mover, other_heard]
      have side := (inv.side x.other).mono cause
      rwa [SimOpenSide.other_other] at side

theorem SimOpenLink.inv_run (ls : List (SimOpenSide × SimOpenMove)) :
    (run (simOpenStep start) (init start) ls).Inv start :=
  have meets : Meets (simOpenStep start) (fun _ _ => True) (init start) ls :=
    meets_of_forall fun _ _ => trivial
  run_invariant (SimOpenLink.Inv start) (fun _ l inv _ => inv.step l) inv_init meets

/-- A step adds a SYNC to what its side has sent, or nothing of the kind. -/
theorem SimOpenLink.Inv.synced_step (inv : s.Inv start) (l : SimOpenSide × SimOpenMove)
    (y : SimOpenSide) : Synced (simOpenStep start s l y).sent ↔
      Synced (s y).sent ∨ y = l.1 ∧ l.2.Syncs (start l.1) (s l.1) := by
  obtain ⟨x, m⟩ := l
  obtain ⟨-, -, -, ⟨new, sent, syncs⟩, -⟩ := (inv.side x).move (fun q hq => inv.arrives hq) m
  dsimp only
  unfold simOpenStep
  by_cases same : y = x
  · subst same
    rw [Function.update_self, sent, synced_append, syncs]
    simp
  · rw [Function.update_of_ne same, or_iff_left fun h => same h.1]

/-- At most one of the sides has sent a SYNC. -/
def SimOpenLink.OneSided (s : SimOpenLink) : Prop :=
  ∀ x : SimOpenSide, Synced (s x).sent → ¬ Synced (s x.other).sent

theorem SimOpenLink.Inv.oneSided_step (inv : s.Inv start) (l : SimOpenSide × SimOpenMove) :
    (simOpenStep start s l).OneSided ↔ s.OneSided ∧ OneWay start s l := by
  unfold OneSided OneWay
  simp only [inv.synced_step l]
  constructor
  · intro h
    constructor
    · exact fun z sent other => h z (Or.inl sent) (Or.inl other)
    · exact fun syncs other => h l.1 (Or.inr ⟨rfl, syncs⟩) (Or.inl other)
  · rintro ⟨before, oneWay⟩ z (sent | ⟨rfl, syncs⟩) (other | ⟨side, syncs'⟩)
    · exact before z sent other
    · rw [← side, SimOpenSide.other_other] at oneWay
      exact oneWay (side ▸ syncs') sent
    · exact oneWay syncs other
    · exact absurd side l.1.other_ne

/-- At most one side has sent a SYNC exactly if no step sent one behind one of the other side. -/
theorem oneSided_run_iff {ls : List (SimOpenSide × SimOpenMove)} :
    (run (simOpenStep start) (SimOpenLink.init start) ls).OneSided ↔
      Meets (simOpenStep start) (OneWay start) (SimOpenLink.init start) ls := by
  refine run_iff_meets (SimOpenLink.Inv start) (fun _ l inv => inv.step l)
    (fun _ l inv => inv.oneSided_step l) SimOpenLink.inv_init ?_
  rintro x ⟨q, hq, -⟩
  cases hq

theorem SimOpenLink.oneSided_iff :
    s.OneSided ↔ ¬ (Synced (s .left).sent ∧ Synced (s .right).sent) := by
  constructor
  · exact fun h both => h .left both.1 both.2
  · rintro h (_ | _) sent other
    · exact h ⟨sent, other⟩
    · exact h ⟨other, sent⟩

/-- What is sent and read decides about the tokens of two sessions that are established. -/
theorem SimOpenLink.Inv.agree_iff (inv : s.Inv start)
    (distinct : (start .left).token ≠ (start .right).token) (established : s.Established)
    (quiet : s.Quiet) : s.Agree ↔ s.OneSided := by
  have whole (x : SimOpenSide) : s.heard x = (s x.other).sent := by
    unfold heard
    rw [quiet x, List.take_length]
  have side (x : SimOpenSide) := (inv.side x).established (established x)
  have left := (side .left).2
  have right := (side .right).2
  rw [whole] at left right
  obtain ⟨y, cause⟩ := (side .left).1
  rw [oneSided_iff]
  unfold Agree
  by_cases fromLeft : Synced (s .left).sent
  · rw [right.adopted fromLeft]
    by_cases fromRight : Synced (s .right).sent
    · rw [left.adopted fromRight]
      exact iff_of_false (Ne.symm distinct) fun h => h ⟨fromLeft, fromRight⟩
    · rw [left.kept fromRight]
      exact iff_of_true rfl fun h => fromRight h.2
  · have fromRight : Synced (s .right).sent := by
      cases y with
      | left => exact absurd cause fromLeft
      | right => exact cause
    rw [left.adopted fromRight, right.kept fromLeft]
    exact iff_of_true rfl fun h => fromLeft h.1

end Runs

/-! ## Agreement -/

section Runs

variable {start : SimOpenSide → SimOpenStart}

/-- A side that was started by `simultaneous_open_accept` never sends a SYNC, so every run with one is
one-way. -/
theorem oneWay_of_accept {x : SimOpenSide} (accepts : (start x).initiator = false)
    {ls : List (SimOpenSide × SimOpenMove)} :
    Meets (simOpenStep start) (OneWay start) (SimOpenLink.init start) ls := by
  have silent (p : SimOpenParty) (m : SimOpenMove) : ¬ m.Syncs (start x) p := by
    cases m <;> simp [SimOpenMove.Syncs, accepts]
  have kept (s : SimOpenLink) (l : SimOpenSide × SimOpenMove) (inv : s.Inv start ∧ ¬ Synced (s x).sent)
      (_ : True) :
      (simOpenStep start s l).Inv start ∧ ¬ Synced (simOpenStep start s l x).sent := by
    refine ⟨inv.1.step l, ?_⟩
    rw [inv.1.synced_step l]
    rintro (sent | ⟨rfl, syncs⟩)
    · exact inv.2 sent
    · exact silent _ _ syncs
  have meets : Meets (simOpenStep start) (fun _ _ => True) (SimOpenLink.init start) ls :=
    meets_of_forall fun _ _ => trivial
  have unsent := (run_invariant _ kept ⟨SimOpenLink.inv_init, not_synced_nil⟩ meets).2
  refine oneSided_run_iff.1 fun y sent other => ?_
  obtain rfl | rfl := x.eq_or_eq_other y
  · exact unsent sent
  · rw [SimOpenSide.other_other] at other
    exact unsent other

/-- Where both sessions are established and nothing is in flight, their tokens are equal exactly if no
side sent a SYNC when the other one had sent one: they have crossed otherwise. -/
theorem sync_tokens_agree_iff (distinct : (start .left).token ≠ (start .right).token)
    (ls : List (SimOpenSide × SimOpenMove))
    (established : (run (simOpenStep start) (SimOpenLink.init start) ls).Established)
    (quiet : (run (simOpenStep start) (SimOpenLink.init start) ls).Quiet) :
    (run (simOpenStep start) (SimOpenLink.init start) ls).Agree ↔
      Meets (simOpenStep start) (OneWay start) (SimOpenLink.init start) ls :=
  ((SimOpenLink.inv_run ls).agree_iff distinct established quiet).trans oneSided_run_iff

end Runs

/-- A side with this token on a system where everything succeeds. -/
def SimOpenStart.smooth (initiator : Bool) (token : UInt32) : SimOpenStart where
  initiator := initiator
  targetIp := IpText.empty
  targetPort := 33450
  env := ⟨0, true⟩
  setup := ⟨0, 3, token, 0, true⟩

/-- Both sides begin, each reads what the other one has sent, and then once more. -/
def simOpenExchange : List (SimOpenSide × SimOpenMove) :=
  [(.left, .begin), (.right, .begin), (.right, .attempt ⟨0, true⟩ true),
    (.left, .attempt ⟨0, true⟩ true), (.right, .recv ⟨0, true⟩ 1 true false),
    (.left, .recv ⟨0, true⟩ 1 true false)]

/-- The exchange between a side that connects and one of the other kind. -/
def simOpenExchanged (initiator : Bool) : SimOpenLink :=
  let start : SimOpenSide → SimOpenStart
    | .left => .smooth true 1
    | .right => .smooth initiator 2
  run (simOpenStep start) (SimOpenLink.init start) simOpenExchange

/-- A side that connects and one that accepts take the token of the first. -/
theorem connect_and_accept_agree : (simOpenExchanged false).Agree := by
  refine (sync_tokens_agree_iff ?_ simOpenExchange ?_ ?_).2 ?_
  · decide
  · rintro (_ | _) <;> decide
  · rintro (_ | _) <;> decide
  · exact oneWay_of_accept (x := .right) rfl

/-- Where both sides connect, their SYNCs cross and they are established with each other's token. -/
theorem crossing_syncs_disagree : (simOpenExchanged true).Established ∧
    (simOpenExchanged true).Quiet ∧ ¬ (simOpenExchanged true).Agree := by
  refine ⟨?_, ?_, ?_⟩
  · rintro (_ | _) <;> decide
  · rintro (_ | _) <;> decide
  · unfold SimOpenLink.Agree
    decide

end Orcashi
