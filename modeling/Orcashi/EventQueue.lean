import Orcashi.EventLoop
import Orcashi.Lib.Refinement

/-!
# The event queue is a bounded first-in first-out list

`event_queue_push` and `event_queue_pop` work on four globals: an array of 1024 events, two indices
and a count, all plain integers.  Nothing but the two functions keeps the indices meaningful.
`QueueVars` has the globals as they are; from their start values on they are always those of a
`RingBuffer`, and so the two functions do what they would do to a list of at most 1024 events.
-/

namespace Orcashi

/-! ## The globals and the functions on them -/

/-- `g_event_queue`, `g_queue_head`, `g_queue_tail` and `g_queue_count`. -/
structure QueueVars where
  events : ℕ → Event
  head : ℤ
  tail : ℤ
  count : ℤ

/-- The globals of a program that starts. -/
def QueueVars.init : QueueVars := ⟨fun _ => Event.zero, 0, 0, 0⟩

/-- `event_queue_push` on the globals. -/
def pushVars (ev : Event) (q : QueueVars) : ℤ × QueueVars :=
  if (eventQueueSize : ℤ) ≤ q.count then (-1, q)
  else
    (0, { events := fun i => if i = q.tail.toNat then ev else q.events i
          head := q.head
          tail := (q.tail + 1).tmod eventQueueSize
          count := q.count + 1 })

/-- `event_queue_pop` on the globals, where -1 stands for the wait on an empty queue. -/
def popVars (q : QueueVars) : ℤ × Option Event × QueueVars :=
  if q.count = 0 then (-1, none, q)
  else
    (0, some (q.events q.head.toNat),
      { q with
        head := (q.head + 1).tmod eventQueueSize
        count := q.count - 1 })

/-- The events between the indices, oldest first. -/
def QueueVars.contents (q : QueueVars) : List Event :=
  (List.range q.count.toNat).map fun i => q.events ((q.head.toNat + i) % eventQueueSize)

/-- A call of the queue. -/
inductive QueueCall where
  | push (ev : Event)
  | pop

/-- What a call returns, and the event it hands out. -/
abbrev QueueReply := ℤ × Option Event

/-- What a call returns and leaves. -/
def QueueCall.exec (q : QueueVars) : QueueCall → QueueReply × QueueVars
  | .push ev => (((pushVars ev q).1, none), (pushVars ev q).2)
  | .pop => (((popVars q).1, (popVars q).2.1), (popVars q).2.2)

/-- The globals after a call. -/
def queueStep (q : QueueVars) (call : QueueCall) : QueueVars := (call.exec q).2

/-- The event of a push that succeeds. -/
def QueueCall.pushed (q : QueueVars) : QueueCall → List Event
  | .push ev => if (pushVars ev q).1 = 0 then [ev] else []
  | .pop => []

/-- The event of a pop that succeeds. -/
def QueueCall.popped (q : QueueVars) : QueueCall → List Event
  | .push _ => []
  | .pop => (popVars q).2.1.toList

/-! ## The list -/

/-- What a call may return from a queue of the events `l`, and the events that are then queued. -/
def Fifo.Allows (l : List Event) : QueueCall → QueueReply → List Event → Prop
  | .push ev, r, l' =>
    if l.length = eventQueueSize then r = (-1, none) ∧ l' = l else r = (0, none) ∧ l' = l ++ [ev]
  | .pop, r, l' =>
    match l with
    | [] => r = (-1, none) ∧ l' = []
    | ev :: rest => r = (0, some ev) ∧ l' = rest

/-- The globals hold the events `l`, and their indices and count fit together. -/
structure QueueVars.Holds (q : QueueVars) (l : List Event) : Prop where
  head_range : 0 ≤ q.head ∧ q.head < 1024
  tail_range : 0 ≤ q.tail ∧ q.tail < 1024
  count_range : 0 ≤ q.count ∧ q.count ≤ 1024
  tail_eq : q.tail = (q.head + q.count) % 1024
  contents_eq : q.contents = l

/-! ## The ring in between -/

/-- The globals a ring is kept in. -/
def QueueVars.ofRing (r : EventQueue) : QueueVars := ⟨r.slot, r.head, r.tail, r.count⟩

namespace QueueVars

theorem init_eq : init = ofRing EventQueue.init := rfl

theorem contents_ofRing (r : EventQueue) : (ofRing r).contents = r.toList := rfl

theorem holds_ofRing (r : EventQueue) : (ofRing r).Holds r.toList := by
  have head := r.head_lt
  have count := r.count_le
  have tail := r.tail_eq
  unfold eventQueueSize at head count tail
  refine ⟨?_, ?_, ?_, ?_, contents_ofRing r⟩
  · show 0 ≤ (r.head : ℤ) ∧ (r.head : ℤ) < 1024
    omega
  · show 0 ≤ (r.tail : ℤ) ∧ (r.tail : ℤ) < 1024
    omega
  · show 0 ≤ (r.count : ℤ) ∧ (r.count : ℤ) ≤ 1024
    omega
  · show (r.tail : ℤ) = ((r.head : ℤ) + (r.count : ℤ)) % 1024
    omega

/-- The next index, as the program computes it. -/
theorem tmod_succ (i : ℕ) : ((i : ℤ) + 1).tmod eventQueueSize = ((i + 1) % eventQueueSize : ℕ) := by
  rw [Int.tmod_eq_emod_of_nonneg (by omega)]
  push_cast
  rfl

theorem push_ofRing (ev : Event) (r : EventQueue) :
    pushVars ev (ofRing r) = ((eventQueuePush ev r).1, ofRing (eventQueuePush ev r).2) := by
  unfold pushVars eventQueuePush RingBuffer.push
  by_cases room : r.count < eventQueueSize
  · rw [if_neg (by simp only [ofRing]; omega), dif_pos room]
    simp only [ofRing, tmod_succ, Int.toNat_natCast]
    rfl
  · rw [if_pos (by simp only [ofRing]; omega), dif_neg room]

theorem pop_ofRing (r : EventQueue) :
    popVars (ofRing r) =
      match r.pop with
      | none => (-1, none, ofRing r)
      | some (ev, r') => (0, some ev, ofRing r') := by
  unfold popVars RingBuffer.pop
  by_cases hz : r.count = 0
  · rw [if_pos (by simp only [ofRing]; omega), dif_pos hz]
  · rw [if_neg (by simp only [ofRing]; omega), dif_neg hz]
    have count : ((r.count - 1 : ℕ) : ℤ) = (r.count : ℤ) - 1 := by omega
    simp only [ofRing, tmod_succ, Int.toNat_natCast, count]

end QueueVars

/-! ## Refinement -/

/-- A call on the globals of a ring leaves the globals of a ring, and is answered as by its list. -/
theorem queue_step_ring (r : EventQueue) (call : QueueCall) :
    ∃ r' : EventQueue, (call.exec (.ofRing r)).2 = .ofRing r' ∧
      Fifo.Allows r.toList call (call.exec (.ofRing r)).1 r'.toList ∧
      r.toList ++ call.pushed (.ofRing r) = call.popped (.ofRing r) ++ r'.toList := by
  cases call with
  | push ev =>
    simp only [QueueCall.exec, QueueCall.pushed, QueueCall.popped, Fifo.Allows,
      QueueVars.push_ofRing, RingBuffer.length_toList]
    unfold eventQueuePush
    have bound := r.count_le
    cases hp : r.push ev with
    | none =>
      have full := (RingBuffer.push_eq_none_iff r ev).1 hp
      refine ⟨r, rfl, ?_, by simp⟩
      rw [if_pos (by omega)]
      exact ⟨rfl, rfl⟩
    | some r' =>
      have count := RingBuffer.count_push hp
      have bound' := r'.count_le
      refine ⟨r', rfl, ?_, by simp [RingBuffer.toList_push hp]⟩
      rw [if_neg (by omega)]
      exact ⟨rfl, RingBuffer.toList_push hp⟩
  | pop =>
    simp only [QueueCall.exec, QueueCall.pushed, QueueCall.popped, Fifo.Allows,
      QueueVars.pop_ofRing]
    cases hp : r.pop with
    | none =>
      have empty := (RingBuffer.pop_eq_none_iff r).1 hp
      refine ⟨r, rfl, ?_, by simp⟩
      rw [empty]
      exact ⟨rfl, rfl⟩
    | some taken =>
      obtain ⟨ev, r'⟩ := taken
      refine ⟨r', rfl, ?_, by simp [RingBuffer.toList_pop hp]⟩
      rw [RingBuffer.toList_pop hp]
      exact ⟨rfl, rfl⟩

/-- What is pushed comes out again, in order, or is still queued. -/
theorem queue_conserves (r : EventQueue) (calls : List QueueCall) :
    r.toList ++ History.outputs queueStep QueueCall.pushed (.ofRing r) calls =
      History.outputs queueStep QueueCall.popped (.ofRing r) calls ++
        (History.run queueStep (.ofRing r) calls).contents := by
  induction calls generalizing r with
  | nil => simp [History.outputs, History.run, QueueVars.contents_ofRing]
  | cons call calls ih =>
    obtain ⟨r', next, -, conserved⟩ := queue_step_ring r call
    have step : queueStep (.ofRing r) call = .ofRing r' := next
    have run : History.run queueStep (.ofRing r) (call :: calls) =
        History.run queueStep (.ofRing r') calls := by
      rw [← step]
      rfl
    rw [History.outputs, History.outputs, run, step, ← List.append_assoc, conserved,
      List.append_assoc, ih r', List.append_assoc]

/-- For every sequence of calls, the queue behaves as a first-in first-out list of at most 1024
events: its indices stay in range and fit its count, a push fails with 1024 events queued and a pop
with none, a call that fails changes nothing, and what was taken followed by what is queued is what
was pushed. -/
theorem event_queue_refines_fifo (calls : List QueueCall) :
    Refinement.Refines QueueCall.exec Fifo.Allows QueueVars.Holds QueueVars.init [] calls ∧
      History.outputs queueStep QueueCall.pushed QueueVars.init calls =
        History.outputs queueStep QueueCall.popped QueueVars.init calls ++
          (History.run queueStep QueueVars.init calls).contents := by
  constructor
  · have refines : Refinement.Refines QueueCall.exec Fifo.Allows
        (fun q l => ∃ r : EventQueue, q = .ofRing r ∧ l = r.toList) QueueVars.init [] calls := by
      apply Refinement.refines_of_step fun _ _ => True
      · rintro q l call ⟨r, rfl, rfl⟩ -
        obtain ⟨r', next, allows, -⟩ := queue_step_ring r call
        exact ⟨r'.toList, allows, r', next, rfl⟩
      · exact ⟨EventQueue.init, rfl, rfl⟩
      · exact History.meets_of_forall fun _ _ => trivial
    apply refines.mono
    rintro q l ⟨r, rfl, rfl⟩
    exact QueueVars.holds_ofRing r
  · rw [QueueVars.init_eq]
    exact queue_conserves EventQueue.init calls

/-- A push into a queue of one event and two pops after it. -/
example (ev : Event) :
    (History.run queueStep QueueVars.init [.push ev, .pop, .pop]).contents = [] := rfl

end Orcashi
