import Mathlib.Data.List.Basic
import Mathlib.Order.Lattice
import Mathlib.Tactic.Common

/-!
# Bubble sort

The elements at the front of an array are sorted in place by a key: each pass compares neighbours from
the front on and exchanges those in the wrong order, and so brings a greatest of the elements it goes over
behind the others.  Neighbours with equal keys are not exchanged.
-/

namespace BubbleSort

variable {α κ : Type*} [LinearOrder κ] (key : α → κ)

/-! ## In an array -/

/-- One of the first `count` elements. -/
def entry (count : ℕ) (a : List α) (j : ℕ) : Option α := if j < count then a[j]? else none

/-- Exchange element `j` with the next if its key is greater; none if they are not both among the first
`count`. -/
def compareSwap (count : ℕ) (a : List α) (j : ℕ) : Option (List α) := do
  let x ← entry count a j
  let y ← entry count a (j + 1)
  return if key y < key x then (a.set j y).set (j + 1) x else a

/-- The inner loop, with `n` comparisons. -/
def innerLoop (count n : ℕ) (a : List α) : Option (List α) :=
  (List.range n).foldlM (compareSwap key count) a

/-- The first `count` elements are sorted. -/
def sort (count : ℕ) (a : List α) : Option (List α) :=
  (List.range (count - 1)).foldlM (fun a i => innerLoop key count (count - i - 1) a) a

/-! ## On lists -/

/-- A pass of `n` comparisons. -/
def pass : ℕ → List α → List α
  | 0, l => l
  | n + 1, x :: y :: l => if key y < key x then y :: pass n (x :: l) else x :: pass n (y :: l)
  | _ + 1, l => l

/-- Passes of `n`, `n - 1`, down to one comparison. -/
def passes : ℕ → List α → List α
  | 0, l => l
  | n + 1, l => passes n (pass key (n + 1) l)

section Loops

variable {key} {front rest l tail : List α} {x y : α} {count n : ℕ}

theorem compareSwap_append (inside : front.length + 1 < count) (rest : List α) :
    compareSwap key count (front ++ x :: y :: rest) front.length =
      some (if key y < key x then front ++ y :: x :: rest else front ++ x :: y :: rest) := by
  have first : entry count (front ++ x :: y :: rest) front.length = some x := by
    unfold entry
    rw [if_pos (by omega), List.getElem?_append_right (Nat.le_refl _), Nat.sub_self,
      List.getElem?_cons_zero]
  have second : entry count (front ++ x :: y :: rest) (front.length + 1) = some y := by
    unfold entry
    rw [if_pos inside, List.getElem?_append_right (Nat.le_add_right _ 1), Nat.add_sub_cancel_left,
      List.getElem?_cons_succ, List.getElem?_cons_zero]
  unfold compareSwap
  rw [first, second]
  show some (if key y < key x then ((front ++ x :: y :: rest).set front.length y).set (front.length + 1) x
    else _) = _
  rw [List.set_append_right _ _ (Nat.le_refl _), Nat.sub_self, List.set_cons_zero,
    List.set_append_right _ _ (Nat.le_add_right _ 1), Nat.add_sub_cancel_left, List.set_cons_succ,
    List.set_cons_zero]

/-- The inner loop is a pass over what is behind the elements it has gone over. -/
theorem foldlM_compareSwap (size : front.length + l.length = count) (short : n < l.length) :
    (List.range' front.length n).foldlM (compareSwap key count) (front ++ (l ++ tail)) =
      some (front ++ (pass key n l ++ tail)) := by
  induction n generalizing front l with
  | zero => rfl
  | succ n ih =>
    match l, size, short with
    | [x], _, short => exact absurd short (by simp)
    | x :: y :: l, size, short =>
      rw [List.length_cons, List.length_cons] at size short
      have next (z w : α) : (List.range' (front.length + 1) n).foldlM (compareSwap key count)
          (front ++ z :: w :: (l ++ tail)) = some (front ++ z :: (pass key n (w :: l) ++ tail)) := by
        have step := @ih (front ++ [z]) (w :: l) (by
          rw [List.length_append, List.length_singleton, List.length_cons]
          omega) (by
          rw [List.length_cons]
          omega)
        rw [List.length_append, List.length_singleton] at step
        simpa only [List.append_assoc, List.cons_append, List.nil_append] using step
      rw [List.range'_succ, List.foldlM_cons, List.cons_append, List.cons_append,
        compareSwap_append (by omega), Option.bind_eq_bind, Option.bind_some, pass]
      split_ifs
      · exact next y x
      · exact next x y

theorem innerLoop_eq (size : l.length = count) (short : n < l.length) :
    innerLoop key count n (l ++ tail) = some (pass key n l ++ tail) := by
  have loop := @foldlM_compareSwap α κ _ key [] l tail count n (by simpa using size) short
  rw [List.length_nil, ← List.range_eq_range'] at loop
  exact loop

end Loops

/-! ## What a pass keeps -/

section Pass

variable {key} {l : List α} {n : ℕ}

theorem pass_perm (n : ℕ) (l : List α) : (pass key n l).Perm l := by
  induction n generalizing l with
  | zero => rfl
  | succ n ih =>
    match l with
    | [] => rfl
    | [x] => rfl
    | x :: y :: l =>
      rw [pass]
      split_ifs
      · exact ((ih (x :: l)).cons y).trans (List.Perm.swap x y l)
      · exact (ih (y :: l)).cons x

theorem length_pass (n : ℕ) (l : List α) : (pass key n l).length = l.length := (pass_perm n l).length_eq

/-- Elements with one key stay in their order. -/
theorem pass_stable (k : κ) (n : ℕ) (l : List α) :
    (pass key n l).filter (fun x => key x = k) = l.filter fun x => key x = k := by
  induction n generalizing l with
  | zero => rfl
  | succ n ih =>
    match l with
    | [] => rfl
    | [x] => rfl
    | x :: y :: l =>
      rw [pass]
      split_ifs with wrong
      · -- only one of the two has the key
        have apart : ¬ (key x = k ∧ key y = k) := fun h => by
          rw [h.1, h.2] at wrong
          exact lt_irrefl k wrong
        rw [List.filter_cons, ih, List.filter_cons, List.filter_cons, List.filter_cons]
        by_cases hx : key x = k
        · have hy : ¬ key y = k := fun hy => apart ⟨hx, hy⟩
          simp [hx, hy]
        · simp [hx]
      · simp only [List.filter_cons, ih]

theorem pass_of_sorted (sorted : l.Pairwise fun a b => key a ≤ key b) : pass key n l = l := by
  induction n generalizing l with
  | zero => rfl
  | succ n ih =>
    match l, sorted with
    | [], _ => rfl
    | [x], _ => rfl
    | x :: y :: l, sorted =>
      obtain ⟨first, rest⟩ := List.pairwise_cons.1 sorted
      rw [pass, if_neg (not_lt.2 (first y List.mem_cons_self)), ih rest]

/-- A greatest of the elements gone over ends behind the others. -/
theorem pass_max (short : n < l.length) :
    ∃ front m, pass key n l = front ++ m :: l.drop (n + 1) ∧ front.length = n ∧
      ∀ x ∈ l.take (n + 1), key x ≤ key m := by
  induction n generalizing l with
  | zero =>
    match l, short with
    | m :: l, _ => exact ⟨[], m, rfl, rfl, by simp⟩
  | succ n ih =>
    match l, short with
    | [x], short => exact absurd short (by simp)
    | x :: y :: l, short =>
      rw [List.length_cons, List.length_cons] at short
      -- `z` stays behind, and `w`, which is not less, goes on
      have goes {z w : α} (le : key z ≤ key w) :
          ∃ front m, z :: pass key n (w :: l) = front ++ m :: l.drop n ∧ front.length = n + 1 ∧
            ∀ u ∈ z :: w :: l.take n, key u ≤ key m := by
        obtain ⟨front, m, split, length, greatest⟩ := @ih (w :: l) (by rw [List.length_cons]; omega)
        refine ⟨z :: front, m, by rw [split]; rfl, by rw [List.length_cons, length], ?_⟩
        intro u mem
        rcases List.mem_cons.1 mem with rfl | mem
        · exact le.trans (greatest w List.mem_cons_self)
        · exact greatest u mem
      rw [pass]
      split_ifs with wrong
      · obtain ⟨front, m, split, length, greatest⟩ := goes wrong.le
        refine ⟨front, m, split, length, fun u mem => greatest u ?_⟩
        exact (List.Perm.swap y x (l.take n)).mem_iff.1 mem
      · exact goes (not_lt.1 wrong)

end Pass

/-! ## All passes -/

section Passes

variable {key} {A B l tail : List α} {n count : ℕ}

theorem passes_perm (n : ℕ) (l : List α) : (passes key n l).Perm l := by
  induction n generalizing l with
  | zero => rfl
  | succ n ih => exact (ih _).trans (pass_perm (n + 1) l)

theorem length_passes (n : ℕ) (l : List α) : (passes key n l).length = l.length :=
  (passes_perm n l).length_eq

theorem passes_stable (k : κ) (n : ℕ) (l : List α) :
    (passes key n l).filter (fun x => key x = k) = l.filter fun x => key x = k := by
  induction n generalizing l with
  | zero => rfl
  | succ n ih => exact (ih _).trans (pass_stable k (n + 1) l)

theorem passes_of_sorted (sorted : l.Pairwise fun a b => key a ≤ key b) : passes key n l = l := by
  induction n with
  | zero => rfl
  | succ n ih => rw [passes, pass_of_sorted sorted, ih]

/-- The elements at the end are sorted, and none before them is greater than one of them. -/
structure Settled (key : α → κ) (A B : List α) : Prop where
  sorted : B.Pairwise fun a b => key a ≤ key b
  above : ∀ a ∈ A, ∀ b ∈ B, key a ≤ key b

/-- A pass over all that is not settled settles one element more. -/
theorem Settled.pass (h : Settled key A B) (length : A.length = n + 1) :
    ∃ front m, BubbleSort.pass key n (A ++ B) = front ++ m :: B ∧ front.length = n ∧
      Settled key front (m :: B) := by
  obtain ⟨front, m, split, size, greatest⟩ := @pass_max _ _ _ key (A ++ B) n (by
    rw [List.length_append]
    omega)
  rw [List.take_left' length] at greatest
  rw [List.drop_left' length] at split
  -- the elements before the settled ones are those of `A`
  have same : (front ++ [m]).Perm A := by
    have perm := @pass_perm _ _ _ key n (A ++ B)
    rw [split, List.append_cons] at perm
    exact (List.perm_append_right_iff B).1 perm
  have hm : m ∈ A := same.mem_iff.1 (List.mem_append_right _ (List.mem_singleton_self m))
  have hfront {a : α} (mem : a ∈ front) : a ∈ A := same.mem_iff.1 (List.mem_append_left _ mem)
  refine ⟨front, m, split, size, List.pairwise_cons.2 ⟨h.above m hm, h.sorted⟩, ?_⟩
  intro a ha b hb
  rcases List.mem_cons.1 hb with rfl | hb
  · exact greatest a (hfront ha)
  · exact h.above a (hfront ha) b hb

theorem passes_sorted (h : Settled key A B) (length : A.length = n + 1) :
    (passes key n (A ++ B)).Pairwise fun a b => key a ≤ key b := by
  induction n generalizing A B with
  | zero =>
    obtain ⟨a, rfl⟩ := List.length_eq_one_iff.1 length
    exact List.pairwise_cons.2 ⟨fun b hb => h.above a (List.mem_singleton_self a) b hb, h.sorted⟩
  | succ n ih =>
    obtain ⟨front, m, split, size, settled⟩ := h.pass length
    rw [passes, split]
    exact ih settled size

/-- The passes over all of a list sort it. -/
theorem passes_sorts (l : List α) : (passes key (l.length - 1) l).Pairwise fun a b => key a ≤ key b := by
  cases hl : l.length with
  | zero =>
    rw [List.length_eq_zero_iff.1 hl]
    exact List.Pairwise.nil
  | succ n =>
    have sorts := @passes_sorted _ _ _ key l [] n ⟨List.Pairwise.nil, by simp⟩ hl
    rwa [List.append_nil] at sorts

/-- The outer loop makes the passes. -/
theorem foldlM_innerLoop (size : l.length = count) {i : ℕ} (left : i + n = count - 1) :
    (List.range' i n).foldlM (fun a i => innerLoop key count (count - i - 1) a) (l ++ tail) =
      some (passes key n l ++ tail) := by
  induction n generalizing i l with
  | zero => rfl
  | succ n ih =>
    have comparisons : count - i - 1 = n + 1 := by omega
    rw [List.range'_succ, List.foldlM_cons, comparisons, innerLoop_eq size (by omega),
      Option.bind_eq_bind, Option.bind_some, passes]
    exact ih (by rw [length_pass, size]) (by omega)

/-- Sorting stays among the first elements, and makes the passes over them. -/
theorem sort_append (size : l.length = count) (tail : List α) :
    sort key count (l ++ tail) = some (passes key (count - 1) l ++ tail) := by
  have loop := @foldlM_innerLoop _ _ _ key l tail (count - 1) count size 0 (by omega)
  rw [← List.range_eq_range'] at loop
  exact loop

end Passes

end BubbleSort
