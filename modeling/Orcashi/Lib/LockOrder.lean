import Mathlib.Computability.RegularExpressions
import Mathlib.Data.Set.Finite.Lemmas
import Mathlib.Logic.Relation

/-!
# Mutexes taken in order

Threads lock and unlock mutexes that are not re-entrant.  The control flow of a function is a regular
expression over these operations, and its paths are the words the expression matches.  Where every
thread takes mutexes in the order of a rank and gives back what it took, no thread waits for itself and
no set of threads waits for each other, whatever their number and however they interleave.
-/

namespace LockOrder

/-! ## Threads -/

/-- A mutex is locked or unlocked. -/
inductive LockOp (μ : Type*) where
  | lock (m : μ)
  | unlock (m : μ)
  deriving DecidableEq

/-- The owner of each mutex and what each thread still has to do. -/
structure Threads (ι μ : Type*) where
  owner : μ → Option ι
  todo : ι → List (LockOp μ)

namespace Threads

variable {ι μ : Type*}

/-- Threads that own nothing. -/
def start (todo : ι → List (LockOp μ)) : Threads ι μ := ⟨fun _ => none, todo⟩

/-- What a thread owns. -/
def held (s : Threads ι μ) (i : ι) : Set μ := {m | s.owner m = some i}

theorem start_held (todo : ι → List (LockOp μ)) (i : ι) : (start todo).held i = ∅ :=
  Set.eq_empty_of_forall_notMem fun m own => by cases own

/-- The next operation of a thread is to lock a mutex. -/
def Waits (s : Threads ι μ) (i : ι) (m : μ) : Prop := ∃ w, s.todo i = .lock m :: w

/-- A thread that owns the one mutex is about to lock the other. -/
def Nested (s : Threads ι μ) (m m' : μ) : Prop := ∃ i, s.owner m = some i ∧ s.Waits i m'

/-- Each of some threads waits for a mutex that one of them owns. -/
def Deadlocked (s : Threads ι μ) (D : Set ι) : Prop :=
  D.Nonempty ∧ ∀ i ∈ D, ∃ m, s.Waits i m ∧ ∃ j ∈ D, s.owner m = some j

/-- No thread waits for itself, a thread unlocks what it owns and ends up owning nothing, and no threads
wait for each other. -/
structure Sound (s : Threads ι μ) : Prop where
  no_relock : ∀ i m, s.Waits i m → s.owner m ≠ some i
  unlocks : ∀ i m w, s.todo i = .unlock m :: w → s.owner m = some i
  released : ∀ i, s.todo i = [] → ∀ m, s.owner m ≠ some i
  no_deadlock : ∀ D, ¬ s.Deadlocked D

variable [DecidableEq ι] [DecidableEq μ]

/-- The thread takes the mutex and goes on with the rest. -/
def take (s : Threads ι μ) (i : ι) (m : μ) (rest : List (LockOp μ)) : Threads ι μ where
  owner := Function.update s.owner m (some i)
  todo := Function.update s.todo i rest

/-- The thread gives the mutex back and goes on with the rest. -/
def giveBack (s : Threads ι μ) (i : ι) (m : μ) (rest : List (LockOp μ)) : Threads ι μ where
  owner := Function.update s.owner m none
  todo := Function.update s.todo i rest

@[simp] theorem take_todo (s : Threads ι μ) (i : ι) (m : μ) (rest : List (LockOp μ)) :
    (s.take i m rest).todo = Function.update s.todo i rest := rfl

@[simp] theorem giveBack_todo (s : Threads ι μ) (i : ι) (m : μ) (rest : List (LockOp μ)) :
    (s.giveBack i m rest).todo = Function.update s.todo i rest := rfl

theorem take_held_self (s : Threads ι μ) (i : ι) (m : μ) (rest : List (LockOp μ)) :
    (s.take i m rest).held i = insert m (s.held i) := by
  ext x
  by_cases hx : x = m <;> simp [held, take, hx]

theorem take_held_of_ne {s : Threads ι μ} {m : μ} (free : s.owner m = none) {i j : ι} (other : j ≠ i)
    (rest : List (LockOp μ)) : (s.take i m rest).held j = s.held j := by
  ext x
  by_cases hx : x = m
  · simp [held, take, hx, free, other.symm]
  · simp [held, take, hx]

theorem giveBack_held_self (s : Threads ι μ) (i : ι) (m : μ) (rest : List (LockOp μ)) :
    (s.giveBack i m rest).held i = s.held i \ {m} := by
  ext x
  by_cases hx : x = m <;> simp [held, giveBack, hx]

theorem giveBack_held_of_ne {s : Threads ι μ} {m : μ} {i j : ι} (own : s.owner m = some i)
    (other : j ≠ i) (rest : List (LockOp μ)) : (s.giveBack i m rest).held j = s.held j := by
  ext x
  by_cases hx : x = m
  · simp [held, giveBack, hx, own, other.symm]
  · simp [held, giveBack, hx]

/-- A thread takes a mutex that is free or gives back one that it owns. -/
inductive Step : Threads ι μ → Threads ι μ → Prop where
  | lock {s : Threads ι μ} {i : ι} {m : μ} {w : List (LockOp μ)} (next : s.todo i = .lock m :: w)
    (free : s.owner m = none) : Step s (s.take i m w)
  | unlock {s : Threads ι μ} {i : ι} {m : μ} {w : List (LockOp μ)} (next : s.todo i = .unlock m :: w)
    (own : s.owner m = some i) : Step s (s.giveBack i m w)

end Threads

open Threads

/-! ## Paths that keep the order -/

section Keeps

variable {μ : Type*} (rank : μ → ℕ)

/-- From the mutexes held, a path takes only ones of a higher rank and gives back only ones it holds;
in the end it holds those named last. -/
def Keeps : Set μ → List (LockOp μ) → Set μ → Prop
  | held, [], held' => held = held'
  | held, .lock m :: w, held' => (∀ x ∈ held, rank x < rank m) ∧ Keeps (insert m held) w held'
  | held, .unlock m :: w, held' => m ∈ held ∧ Keeps (held \ {m}) w held'

variable {rank}

theorem Keeps.append {held held' held'' : Set μ} {u v : List (LockOp μ)}
    (first : Keeps rank held u held') (second : Keeps rank held' v held'') :
    Keeps rank held (u ++ v) held'' := by
  induction u generalizing held with
  | nil =>
    obtain rfl : held = held' := first
    exact second
  | cons op u ih =>
    cases op with
    | lock m => exact ⟨first.1, ih first.2⟩
    | unlock m => exact ⟨first.1, ih first.2⟩

theorem Keeps.flatten {held : Set μ} {us : List (List (LockOp μ))}
    (each : ∀ u ∈ us, Keeps rank held u held) : Keeps rank held us.flatten held := by
  induction us with
  | nil => rfl
  | cons u us ih =>
    rw [List.flatten_cons]
    exact (each u List.mem_cons_self).append (ih fun v hv => each v (List.mem_cons_of_mem u hv))

end Keeps

/-! ## Threads that keep the order -/

section Ordered

variable {ι μ : Type*} {rank : μ → ℕ} {s s' : Threads ι μ}

/-- Every thread keeps the order in what it still has to do, and gives everything back. -/
def Ordered (rank : μ → ℕ) (s : Threads ι μ) : Prop := ∀ i, Keeps rank (s.held i) (s.todo i) ∅

theorem start_ordered {todo : ι → List (LockOp μ)} (keeps : ∀ i, Keeps rank ∅ (todo i) ∅) :
    Ordered rank (start todo) := by
  intro i
  rw [start_held]
  exact keeps i

theorem Ordered.nested (h : Ordered rank s) {m m' : μ} (nested : s.Nested m m') :
    rank m < rank m' := by
  obtain ⟨i, own, w, next⟩ := nested
  have now := h i
  rw [next] at now
  exact now.1 m own

/-- The thread that waits for the mutex of the highest rank waits for one that no waiting thread owns. -/
theorem Ordered.no_deadlock [Finite μ] (h : Ordered rank s) (D : Set ι) : ¬ s.Deadlocked D := by
  rintro ⟨⟨i, hi⟩, all⟩
  obtain ⟨m₀, waits₀, -⟩ := all i hi
  let waited : Set μ := {m | ∃ i ∈ D, s.Waits i m}
  obtain ⟨m, ⟨j, hj, waits⟩, greatest⟩ :=
    Set.exists_max_image waited rank (Set.toFinite waited) ⟨m₀, i, hi, waits₀⟩
  obtain ⟨m₁, waits₁, k, hk, own⟩ := all j hj
  obtain ⟨m₂, waits₂, -⟩ := all k hk
  have same : m = m₁ := by
    obtain ⟨w, next⟩ := waits
    obtain ⟨w₁, next₁⟩ := waits₁
    rw [next] at next₁
    cases next₁
    rfl
  subst same
  have higher : rank m < rank m₂ := h.nested ⟨k, own, waits₂⟩
  exact absurd (greatest m₂ ⟨k, hk, waits₂⟩) (Nat.not_le.2 higher)

theorem Ordered.sound [Finite μ] (h : Ordered rank s) : s.Sound where
  no_relock i m waits own := lt_irrefl _ (h.nested ⟨i, own, waits⟩)
  unlocks i m w next := by
    have now := h i
    rw [next] at now
    exact now.1
  released i done m own := by
    have now := h i
    rw [done] at now
    have none : s.held i = ∅ := now
    exact Set.eq_empty_iff_forall_notMem.1 none m own
  no_deadlock := h.no_deadlock

variable [DecidableEq ι] [DecidableEq μ]

theorem Ordered.step (h : Ordered rank s) (step : Step s s') : Ordered rank s' := by
  intro j
  have now := h j
  cases step with
  | @lock i m w next free =>
    by_cases hj : j = i
    · subst hj
      rw [next] at now
      rw [take_held_self, take_todo, Function.update_self]
      exact now.2
    · rw [take_held_of_ne free hj, take_todo, Function.update_of_ne hj]
      exact now
  | @unlock i m w next own =>
    by_cases hj : j = i
    · subst hj
      rw [next] at now
      rw [giveBack_held_self, giveBack_todo, Function.update_self]
      exact now.2
    · rw [giveBack_held_of_ne own hj, giveBack_todo, Function.update_of_ne hj]
      exact now

theorem Ordered.run (h : Ordered rank s) (run : Relation.ReflTransGen Step s s') :
    Ordered rank s' := by
  induction run with
  | refl => exact h
  | tail _ step ih => exact ih.step step

end Ordered

/-! ## A thread that runs alone -/

section Alone

variable {μ : Type*} [DecidableEq μ] {rank : μ → ℕ}

/-- What keeps the order is not held up where there is nobody else. -/
theorem Keeps.run_alone {held' : Set μ} {u v : List (LockOp μ)} {s : Threads Unit μ}
    (keeps : Keeps rank (s.held ()) u held') (todo : s.todo () = u ++ v) :
    ∃ s', Relation.ReflTransGen Step s s' ∧ s'.todo () = v ∧ s'.held () = held' := by
  induction u generalizing s with
  | nil => exact ⟨s, .refl, todo, keeps⟩
  | cons op u ih =>
    cases op with
    | lock m =>
      have free : s.owner m = none := by
        cases own : s.owner m with
        | none => rfl
        | some i => exact absurd (keeps.1 m own) (lt_irrefl _)
      have rest : (s.take () m (u ++ v)).todo () = u ++ v := by simp
      obtain ⟨s', run, done⟩ := ih (by rw [take_held_self]; exact keeps.2) rest
      exact ⟨s', .head (.lock todo free) run, done⟩
    | unlock m =>
      have rest : (s.giveBack () m (u ++ v)).todo () = u ++ v := by simp
      obtain ⟨s', run, done⟩ := ih (by rw [giveBack_held_self]; exact keeps.2) rest
      exact ⟨s', .head (.unlock todo keeps.1) run, done⟩

end Alone

/-! ## Programs -/

/-- The skeleton of a function: its lock and unlock operations and its control flow, with sequence as
`*`, choice as `+` and a loop as `star`. -/
abbrev LockProg (μ : Type*) := RegularExpression (LockOp μ)

namespace LockProg

open RegularExpression

variable {μ : Type*}

/-- A part of a function that holds the mutex. -/
def critical (m : μ) (P : LockProg μ) : LockProg μ := char (.lock m) * P * char (.unlock m)

/-- Waiting for a condition, which gives the mutex back for as long as it takes. -/
def condWait (m : μ) : LockProg μ := char (.unlock m) * char (.lock m)

theorem mem_critical {m : μ} {P : LockProg μ} {w : List (LockOp μ)} :
    w ∈ (critical m P).matches' ↔ ∃ u ∈ P.matches', w = .lock m :: (u ++ [.unlock m]) := by
  constructor
  · rintro ⟨_, ⟨_, rfl, u, hu, rfl⟩, _, rfl, rfl⟩
    exact ⟨u, hu, rfl⟩
  · rintro ⟨u, hu, rfl⟩
    exact ⟨.lock m :: u, ⟨_, rfl, u, hu, rfl⟩, _, rfl, rfl⟩

end LockProg

/-! ## Checking a program -/

section After

open RegularExpression LockProg

variable {μ : Type*} [DecidableEq μ] (rank : μ → ℕ)

/-- The mutexes held after a program, if every path of it keeps the order and they all end alike. -/
def after : LockProg μ → List μ → Option (List μ)
  | .zero, held => some held
  | .epsilon, held => some held
  | .char (.lock m), held => if ∀ x ∈ held, rank x < rank m then some (m :: held) else none
  | .char (.unlock m), held => if m ∈ held then some (held.filter fun x => x ≠ m) else none
  | .plus P Q, held => if after P held = after Q held then after P held else none
  | .comp P Q, held => (after P held).bind (after Q)
  | .star P, held => if after P held = some held then some held else none

variable {rank}

/-- What the check finds holds of every path. -/
theorem after_keeps {P : LockProg μ} {held held' : List μ} (h : after rank P held = some held')
    {w : List (LockOp μ)} (path : w ∈ P.matches') :
    Keeps rank {x | x ∈ held} w {x | x ∈ held'} := by
  induction P generalizing held held' w with
  | zero => exact absurd path (Set.notMem_empty w)
  | epsilon =>
    obtain rfl : w = [] := path
    obtain rfl := Option.some.inj h
    rfl
  | char op =>
    obtain rfl : w = [op] := path
    cases op with
    | lock m =>
      obtain ⟨above, done⟩ := Option.ite_none_right_eq_some.1 h
      obtain rfl := Option.some.inj done
      refine ⟨above, ?_⟩
      ext x
      simp
    | unlock m =>
      obtain ⟨own, done⟩ := Option.ite_none_right_eq_some.1 h
      obtain rfl := Option.some.inj done
      refine ⟨own, ?_⟩
      ext x
      simp
  | plus P Q ihP ihQ =>
    obtain ⟨same, left⟩ := Option.ite_none_right_eq_some.1 h
    rcases path with path | path
    · exact ihP left path
    · exact ihQ (same ▸ left) path
  | comp P Q ihP ihQ =>
    obtain ⟨between, first, second⟩ := Option.bind_eq_some_iff.1 h
    obtain ⟨u, hu, v, hv, rfl⟩ := path
    exact (ihP first hu).append (ihQ second hv)
  | star P ih =>
    obtain ⟨back, same⟩ := Option.ite_none_right_eq_some.1 h
    obtain rfl := Option.some.inj same
    obtain ⟨us, rfl, each⟩ := path
    exact Keeps.flatten fun u hu => ih back (each u hu)

section Rules

variable {P Q : LockProg μ} {held held' held'' : List μ}

theorem after_ite {test : Prop} [Decidable test] (yes : after rank P held = some held')
    (no : after rank Q held = some held') :
    after rank (if test then P else Q) held = some held' := by
  split
  · exact yes
  · exact no

theorem after_mul (first : after rank P held = some held') (second : after rank Q held' = some held'') :
    after rank (P * Q) held = some held'' := by
  show (after rank P held).bind (after rank Q) = some held''
  rw [first]
  exact second

end Rules

end After

/-! ## Discipline -/

section Discipline

open LockProg

variable {μ : Type*} [DecidableEq μ] {rank : μ → ℕ} {Ps : Set (LockProg μ)}

/-- What a thread may have to do that calls some programs, one after the other. -/
def Calls (Ps : Set (LockProg μ)) (w : List (LockOp μ)) : Prop :=
  ∃ us : List (List (LockOp μ)), w = us.flatten ∧ ∀ u ∈ us, ∃ P ∈ Ps, u ∈ P.matches'

/-- The states that such threads can reach. -/
def Reaches (Ps : Set (LockProg μ)) {ι : Type} [DecidableEq ι] (s : Threads ι μ) : Prop :=
  ∃ todo, (∀ i, Calls Ps (todo i)) ∧ Relation.ReflTransGen Step (start todo) s

/-- In some state that such threads can reach, one that owns the one mutex is about to lock the
other. -/
def TakenUnder (Ps : Set (LockProg μ)) (m m' : μ) : Prop :=
  ∃ (ι : Type) (_ : DecidableEq ι) (s : Threads ι μ), Reaches Ps s ∧ s.Nested m m'

/-- Whatever the number of threads: each state they reach is sound, and the order in which they take
mutexes while they own others is acyclic. -/
structure Disciplined (Ps : Set (LockProg μ)) : Prop where
  sound : ∀ (ι : Type) [DecidableEq ι] (s : Threads ι μ), Reaches Ps s → s.Sound
  acyclic : ∀ m, ¬ Relation.TransGen (TakenUnder Ps) m m

theorem Reaches.ordered (checked : ∀ P ∈ Ps, after rank P [] = some []) {ι : Type} [DecidableEq ι]
    {s : Threads ι μ} (reaches : Reaches Ps s) : Ordered rank s := by
  obtain ⟨todo, calls, run⟩ := reaches
  refine Ordered.run (start_ordered fun i => ?_) run
  obtain ⟨us, flat, each⟩ := calls i
  rw [flat]
  refine Keeps.flatten fun u hu => ?_
  obtain ⟨P, hP, path⟩ := each u hu
  simpa using after_keeps (checked P hP) path

theorem TakenUnder.lt (checked : ∀ P ∈ Ps, after rank P [] = some []) {m m' : μ} (h : TakenUnder Ps m m') :
    rank m < rank m' := by
  obtain ⟨ι, _, s, reaches, nested⟩ := h
  exact (reaches.ordered checked).nested nested

/-- Programs that keep one order are disciplined. -/
theorem disciplined_of_checked [Finite μ] (rank : μ → ℕ)
    (checked : ∀ P ∈ Ps, after rank P [] = some []) : Disciplined Ps where
  sound ι _ s reaches := (reaches.ordered checked).sound
  acyclic m cycle := by
    have rises {m' : μ} (path : Relation.TransGen (TakenUnder Ps) m m') : rank m < rank m' := by
      induction path with
      | single first => exact first.lt checked
      | tail _ last ih => exact ih.trans (last.lt checked)
    exact lt_irrefl _ (rises cycle)

/-- Some path of a program locks a mutex twice in a row, with nothing held before. -/
def Relocks (rank : μ → ℕ) (P : LockProg μ) : Prop :=
  ∃ u m v, Keeps rank ∅ u ∅ ∧ u ++ .lock m :: .lock m :: v ∈ P.matches'

/-- One thread that runs it alone waits for itself. -/
theorem Relocks.not_disciplined {P : LockProg μ} (h : Relocks rank P) (hP : P ∈ Ps) :
    ¬ Disciplined Ps := by
  intro disciplined
  obtain ⟨u, m, v, keeps, path⟩ := h
  let todo : Unit → List (LockOp μ) := fun _ => u ++ .lock m :: .lock m :: v
  have calls : ∀ i, Calls Ps (todo i) := fun _ =>
    ⟨[u ++ .lock m :: .lock m :: v], by simp [todo], by simpa using ⟨P, hP, path⟩⟩
  have twice : Keeps rank ((start todo).held ()) (u ++ [.lock m]) {m} := by
    rw [start_held]
    exact keeps.append ⟨fun x own => absurd own (Set.notMem_empty x), by simp [Keeps]⟩
  obtain ⟨s, run, next, own⟩ := twice.run_alone (v := .lock m :: v) (by simp [start, todo])
  have owned : m ∈ s.held () := by rw [own]; rfl
  exact (disciplined.sound Unit s ⟨todo, calls, run⟩).no_relock () m ⟨v, next⟩ owned

end Discipline

end LockOrder
