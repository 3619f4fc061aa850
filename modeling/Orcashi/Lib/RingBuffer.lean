import Mathlib.Data.List.Basic
import Mathlib.Data.Nat.ModEq
import Mathlib.Tactic.Common

/-!
# Bounded ring buffers

A ring of `cap` slots keeps its values from `head` on, wrapping at the end of the slots.  The
arithmetic that makes the indices meaningful is part of the structure, so every ring that can be
built satisfies it.  `toList` reads the values off in the order in which they were pushed, and the
two operations are those of a first-in first-out list of at most `cap` values.
-/

/-- `count` values in `cap` slots, from slot `head` on; `tail` is the next free slot. -/
structure RingBuffer (cap : ℕ) (α : Type*) where
  slot : ℕ → α
  head : ℕ
  tail : ℕ
  count : ℕ
  head_lt : head < cap
  count_le : count ≤ cap
  tail_eq : tail = (head + count) % cap

namespace RingBuffer

variable {cap : ℕ} {α : Type*}

/-- The ring without values. -/
def empty (a : α) (pos : 0 < cap) : RingBuffer cap α where
  slot := fun _ => a
  head := 0
  tail := 0
  count := 0
  head_lt := pos
  count_le := Nat.zero_le _
  tail_eq := (Nat.zero_mod _).symm

/-- Write `a` at the tail; a full ring takes nothing. -/
def push (r : RingBuffer cap α) (a : α) : Option (RingBuffer cap α) :=
  if h : r.count < cap then
    some
      { slot := fun i => if i = r.tail then a else r.slot i
        head := r.head
        tail := (r.tail + 1) % cap
        count := r.count + 1
        head_lt := r.head_lt
        count_le := h
        tail_eq := by rw [r.tail_eq, Nat.mod_add_mod, Nat.add_assoc] }
  else none

/-- Take the value at the head, if there is one. -/
def pop (r : RingBuffer cap α) : Option (α × RingBuffer cap α) :=
  if h : r.count = 0 then none
  else
    some (r.slot r.head,
      { slot := r.slot
        head := (r.head + 1) % cap
        tail := r.tail
        count := r.count - 1
        head_lt := Nat.mod_lt _ (Nat.lt_of_le_of_lt (Nat.zero_le _) r.head_lt)
        count_le := le_trans (Nat.sub_le _ _) r.count_le
        tail_eq := by
          rw [r.tail_eq, Nat.mod_add_mod]
          congr 1
          omega })

/-- Push and forget a value for which there is no room. -/
def offer (r : RingBuffer cap α) (a : α) : RingBuffer cap α := (r.push a).getD r

/-- The values of the ring, oldest first. -/
def toList (r : RingBuffer cap α) : List α :=
  (List.range r.count).map fun i => r.slot ((r.head + i) % cap)

@[simp] theorem length_toList (r : RingBuffer cap α) : r.toList.length = r.count := by
  simp [toList]

@[simp] theorem toList_empty (a : α) (pos : 0 < cap) : (empty a pos).toList = [] := rfl

theorem getElem?_toList (r : RingBuffer cap α) (i : ℕ) :
    r.toList[i]? = if i < r.count then some (r.slot ((r.head + i) % cap)) else none := by
  unfold toList
  rw [List.getElem?_map]
  split_ifs with hi
  · rw [List.getElem?_range hi, Option.map_some]
  · rw [List.getElem?_eq_none (by simpa using hi), Option.map_none]

theorem push_eq_none_iff (r : RingBuffer cap α) (a : α) : r.push a = none ↔ cap ≤ r.count := by
  unfold push
  split_ifs with h <;> simp <;> omega

theorem pop_eq_none_iff (r : RingBuffer cap α) : r.pop = none ↔ r.toList = [] := by
  rw [← List.length_eq_zero_iff, length_toList]
  unfold pop
  split_ifs with h <;> simp [h]

/-- The slots of the stored values differ from the slot that is written next. -/
theorem slot_ne_tail (r : RingBuffer cap α) {i : ℕ} (hi : i < r.count) (room : r.count < cap) :
    (r.head + i) % cap ≠ r.tail := by
  intro he
  have hmod : r.head + i ≡ r.head + r.count [MOD cap] := he.trans r.tail_eq
  have hi' := (Nat.ModEq.add_left_cancel' r.head hmod).eq_of_lt_of_lt (hi.trans room) room
  exact hi.ne hi'

/-- A value that is taken comes after all the values that were there. -/
theorem toList_push {r r' : RingBuffer cap α} {a : α} (h : r.push a = some r') :
    r'.toList = r.toList ++ [a] := by
  unfold push at h
  split_ifs at h with room
  obtain rfl := Option.some.inj h
  simp only [toList, List.range_succ, List.map_append, List.map_cons, List.map_nil]
  congr 1
  · apply List.map_congr_left
    intro i hi
    exact if_neg (r.slot_ne_tail (List.mem_range.mp hi) room)
  · rw [if_pos r.tail_eq.symm]

theorem count_push {r r' : RingBuffer cap α} {a : α} (h : r.push a = some r') :
    r'.count = r.count + 1 := by
  rw [← length_toList, toList_push h, List.length_append, length_toList, List.length_singleton]

/-- Of the values that are offered, those for which there is room are taken, in order. -/
theorem toList_foldl_offer (r : RingBuffer cap α) (l : List α) :
    (l.foldl offer r).toList = r.toList ++ l.take (cap - r.count) := by
  induction l generalizing r with
  | nil => simp
  | cons a l ih =>
    rw [List.foldl_cons, ih]
    cases hp : r.push a with
    | none =>
      have full : cap - r.count = 0 := Nat.sub_eq_zero_of_le ((push_eq_none_iff r a).1 hp)
      rw [offer, hp, Option.getD_none, full, List.take_zero, List.take_zero]
    | some r' =>
      have room : ¬ cap ≤ r.count := fun h => by
        rw [← push_eq_none_iff r a, hp] at h
        cases h
      have more : cap - r.count = cap - r'.count + 1 := by
        have := count_push hp
        omega
      rw [offer, hp, Option.getD_some, toList_push hp, more, List.take_succ_cons, List.append_assoc,
        List.singleton_append]

/-- The value taken is the oldest one, and the others stay in order. -/
theorem toList_pop {r r' : RingBuffer cap α} {a : α} (h : r.pop = some (a, r')) :
    r.toList = a :: r'.toList := by
  unfold pop at h
  split_ifs at h with hz
  simp only [Option.some.injEq, Prod.mk.injEq] at h
  obtain ⟨rfl, rfl⟩ := h
  refine List.ext_getElem? fun i => ?_
  cases i with
  | zero =>
    rw [getElem?_toList, if_pos (Nat.pos_of_ne_zero hz), Nat.add_zero, Nat.mod_eq_of_lt r.head_lt,
      List.getElem?_cons_zero]
  | succ i =>
    have index : (r.head + (i + 1)) % cap = ((r.head + 1) % cap + i) % cap := by
      rw [Nat.mod_add_mod, Nat.add_assoc, Nat.add_comm 1 i]
    rw [List.getElem?_cons_succ, getElem?_toList, getElem?_toList, index]
    exact if_congr (by simp only; omega) rfl rfl

end RingBuffer
