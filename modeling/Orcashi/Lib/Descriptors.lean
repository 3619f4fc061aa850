import Mathlib.Data.Finset.Basic
import Mathlib.Logic.Function.Basic
import Orcashi.Lib.History

/-!
# Descriptors of threads

The threads of a process open and close descriptors, and a descriptor that is opened is one that was
free.  Where every thread closes only what it holds, none takes a descriptor from another: after any
interleaving each thread owns what its own events leave.
-/

namespace Descriptors

open History

/-- A descriptor is opened or closed. -/
inductive Event (φ : Type*) where
  | opens (fd : φ)
  | closes (fd : φ)
  deriving DecidableEq

/-! ## One thread -/

section Thread

variable {φ : Type*} [DecidableEq φ] {h : Finset φ} {s t : List (Event φ)}

/-- What a thread that holds `h` holds after an event. -/
def heldStep (h : Finset φ) : Event φ → Finset φ
  | .opens fd => insert fd h
  | .closes fd => h.erase fd

/-- What a thread that holds `h` holds after its events. -/
def held (h : Finset φ) (t : List (Event φ)) : Finset φ := run heldStep h t

/-- The thread does not hold what it opens. -/
def Opens (h : Finset φ) (e : Event φ) : Prop := ∀ fd, e = .opens fd → fd ∉ h

/-- The thread holds what it closes. -/
def Closes (h : Finset φ) (e : Event φ) : Prop := ∀ fd, e = .closes fd → fd ∈ h

/-- The thread is given only what it does not hold. -/
def Fresh (h : Finset φ) (t : List (Event φ)) : Prop := Meets heldStep Opens h t

/-- As long as it is given what it does not hold, the thread closes only what it holds. -/
def Tidy : Finset φ → List (Event φ) → Prop
  | _, [] => True
  | h, e :: t => Closes h e ∧ (Opens h e → Tidy (heldStep h e) t)

@[simp] theorem held_nil : held h [] = h := rfl

@[simp] theorem held_opens {fd : φ} : held h (.opens fd :: t) = held (insert fd h) t := rfl

@[simp] theorem held_closes {fd : φ} : held h (.closes fd :: t) = held (h.erase fd) t := rfl

theorem held_append : held h (s ++ t) = held (held h s) t := run_append

@[simp] theorem fresh_nil : Fresh h [] := trivial

@[simp] theorem fresh_opens {fd : φ} : Fresh h (.opens fd :: t) ↔ fd ∉ h ∧ Fresh (insert fd h) t :=
  and_congr_left' ⟨fun new => new fd rfl, fun new _ same => Event.opens.inj same ▸ new⟩

@[simp] theorem fresh_closes {fd : φ} : Fresh h (.closes fd :: t) ↔ Fresh (h.erase fd) t :=
  and_iff_right fun _ => nofun

theorem fresh_append : Fresh h (s ++ t) ↔ Fresh h s ∧ Fresh (held h s) t := by
  induction s generalizing h with
  | nil => exact (and_iff_right trivial).symm
  | cons e s ih => exact (and_congr_right fun _ => ih).trans and_assoc.symm

@[simp] theorem tidy_nil : Tidy h [] := trivial

@[simp] theorem tidy_opens {fd : φ} : Tidy h (.opens fd :: t) ↔ (fd ∉ h → Tidy (insert fd h) t) :=
  ⟨fun tidy new => tidy.2 fun _ same => Event.opens.inj same ▸ new,
    fun tidy => ⟨fun _ => nofun, fun new => tidy (new fd rfl)⟩⟩

@[simp] theorem tidy_closes {fd : φ} : Tidy h (.closes fd :: t) ↔ fd ∈ h ∧ Tidy (h.erase fd) t :=
  ⟨fun tidy => ⟨tidy.1 fd rfl, tidy.2 fun _ => nofun⟩,
    fun tidy => ⟨fun _ same => Event.closes.inj same ▸ tidy.1, fun _ => tidy.2⟩⟩

theorem Tidy.append (first : Tidy h s) (rest : Fresh h s → Tidy (held h s) t) : Tidy h (s ++ t) := by
  induction s generalizing h with
  | nil => exact rest trivial
  | cons e s ih => exact ⟨first.1, fun new => ih (first.2 new) fun fresh => rest ⟨new, fresh⟩⟩

/-- Descriptors that are opened and closed again. -/
def passing (fds : List φ) : List (Event φ) := fds.flatMap fun fd => [.opens fd, .closes fd]

omit [DecidableEq φ] in
theorem passing_cons (fd : φ) (fds : List φ) :
    passing (fd :: fds) = .opens fd :: .closes fd :: passing fds := rfl

theorem tidy_passing (fds : List φ) : Tidy h (passing fds) := by
  induction fds generalizing h with
  | nil => trivial
  | cons fd fds ih =>
    rw [passing_cons, tidy_opens]
    intro new
    rw [tidy_closes, Finset.erase_insert new]
    exact ⟨Finset.mem_insert_self _ _, ih⟩

theorem held_passing {fds : List φ} (fresh : Fresh h (passing fds)) : held h (passing fds) = h := by
  induction fds generalizing h with
  | nil => rfl
  | cons fd fds ih =>
    rw [passing_cons, fresh_opens, fresh_closes] at fresh
    obtain ⟨new, rest⟩ := fresh
    rw [Finset.erase_insert new] at rest
    rw [passing_cons, held_opens, held_closes, Finset.erase_insert new]
    exact ih rest

end Thread

/-! ## All threads -/

section Threads

variable {ι φ : Type*} [DecidableEq ι] [DecidableEq φ]

/-- The table of the process after an event of a thread: a descriptor that is open has an owner. -/
def tableStep (table : φ → Option ι) (e : ι × Event φ) : φ → Option ι :=
  match e.2 with
  | .opens fd => Function.update table fd (some e.1)
  | .closes fd => Function.update table fd none

/-- What is opened is free. -/
def Free (table : φ → Option ι) (e : ι × Event φ) : Prop := ∀ fd, e.2 = .opens fd → table fd = none

/-- The events of one thread. -/
def own (i : ι) : List (ι × Event φ) → List (Event φ)
  | [] => []
  | e :: es => if e.1 = i then e.2 :: own i es else own i es

variable {table : φ → Option ι} {h : ι → Finset φ} {j : ι} {e : Event φ}

/-- An event of one thread changes what this thread owns, and nothing else. -/
theorem owner_step (owner : ∀ fd i, table fd = some i ↔ fd ∈ h i) (free : Free table (j, e))
    (closes : Closes (h j) e) (fd : φ) (i : ι) :
    tableStep table (j, e) fd = some i ↔ fd ∈ Function.update h j (heldStep (h j) e) i := by
  cases e with
  | opens x =>
    show Function.update table x (some j) fd = some i ↔ _
    by_cases here : fd = x
    · subst here
      rw [Function.update_self]
      by_cases same : i = j
      · subst same
        rw [Function.update_self]
        exact iff_of_true rfl (Finset.mem_insert_self _ _)
      · rw [Function.update_of_ne same, ← owner, free fd rfl]
        exact iff_of_false (fun eq => same (Option.some.inj eq).symm) nofun
    · rw [Function.update_of_ne here, owner]
      by_cases same : i = j
      · subst same
        rw [Function.update_self]
        exact (Finset.mem_insert.trans (or_iff_right here)).symm
      · rw [Function.update_of_ne same]
  | closes x =>
    show Function.update table x none fd = some i ↔ _
    by_cases here : fd = x
    · subst here
      rw [Function.update_self]
      refine iff_of_false nofun ?_
      by_cases same : i = j
      · subst same
        rw [Function.update_self]
        exact Finset.notMem_erase _ _
      · rw [Function.update_of_ne same, ← owner, (owner fd j).2 (closes fd rfl)]
        exact fun eq => same (Option.some.inj eq).symm
    · rw [Function.update_of_ne here, owner]
      by_cases same : i = j
      · subst same
        rw [Function.update_self]
        exact (Finset.mem_erase.trans (and_iff_right here)).symm
      · rw [Function.update_of_ne same]

/-- By induction on the interleaving, with what each thread holds at the moment. -/
theorem owner_iff {es : List (ι × Event φ)} (owner : ∀ fd i, table fd = some i ↔ fd ∈ h i)
    (free : Meets tableStep Free table es) (tidy : ∀ i, Tidy (h i) (own i es)) :
    (∀ i, Fresh (h i) (own i es)) ∧
      ∀ fd i, run tableStep table es fd = some i ↔ fd ∈ held (h i) (own i es) := by
  induction es generalizing table h with
  | nil => exact ⟨fun _ => trivial, owner⟩
  | cons e es ih =>
    obtain ⟨j, e⟩ := e
    have mine : own j ((j, e) :: es) = e :: own j es := if_pos rfl
    have others {i : ι} (other : i ≠ j) : own i ((j, e) :: es) = own i es :=
      if_neg fun same => other same.symm
    have tidyJ := tidy j
    rw [mine] at tidyJ
    have new : Opens (h j) e := fun fd opens mem => by
      have held := (owner fd j).2 mem
      rw [free.1 fd opens] at held
      cases held
    have later := ih (owner_step owner free.1 tidyJ.1) free.2 fun i => by
      by_cases same : i = j
      · subst same
        rw [Function.update_self]
        exact tidyJ.2 new
      · rw [Function.update_of_ne same, ← others same]
        exact tidy i
    have split (i : ι) : (Fresh (h i) (own i ((j, e) :: es)) ↔
          Fresh (Function.update h j (heldStep (h j) e) i) (own i es)) ∧
        held (h i) (own i ((j, e) :: es)) =
          held (Function.update h j (heldStep (h j) e) i) (own i es) := by
      by_cases same : i = j
      · subst same
        rw [Function.update_self, mine]
        exact ⟨and_iff_right new, rfl⟩
      · rw [Function.update_of_ne same, others same]
        exact ⟨Iff.rfl, rfl⟩
    constructor
    · exact fun i => (split i).1.2 (later.1 i)
    · intro fd i
      rw [(split i).2]
      exact later.2 fd i

end Threads

end Descriptors
