import Mathlib.Data.List.DropRight
import Orcashi.Lib.CMemory

/-!
# Trimming a string in place

A pointer to the last character of a string goes back over blanks, no further than to the first
character, and a terminator is stored behind it; then the front pointer goes forward over blanks.  What is
left is the string without the blanks at its ends.
-/

namespace CMemory

/-- `while (end > body && blank(*end)) end--;` -/
def trimEnd (blank : UInt8 → Bool) (mem : Bytes) (body : ℕ) : ℕ → ℕ
  | 0 => 0
  | e + 1 =>
    if body < e + 1 ∧ blank (mem.getD (e + 1) 0) = true then trimEnd blank mem body e else e + 1

/-- What is left of a string when its end is trimmed: its first character stays. -/
def trimmed (blank : UInt8 → Bool) : CString → CString
  | [] => []
  | c :: s => c :: s.rdropWhile blank

/-- A string without the blanks at its ends. -/
def stripped (blank : UInt8 → Bool) (s : CString) : CString := (s.rdropWhile blank).dropWhile blank

variable {blank : UInt8 → Bool} {mem : Bytes} {i : ℕ}

/-- The loop stays where it is or goes back to the first character at most. -/
theorem trimEnd_stays (blank : UInt8 → Bool) (mem : Bytes) (body e : ℕ) :
    trimEnd blank mem body e = e ∨ body ≤ trimEnd blank mem body e := by
  induction e with
  | zero => exact Or.inl rfl
  | succ e ih =>
    rw [trimEnd]
    split_ifs with goes
    · rcases ih with same | behind
      · rw [same]
        exact Or.inr (Nat.le_of_lt_succ goes.1)
      · exact Or.inr behind
    · exact Or.inl rfl

theorem trimEnd_of_drop {c : UInt8} {s R : Bytes} (h : mem.drop i = c :: (s ++ R)) :
    trimEnd blank mem i (i + s.length) = i + (s.rdropWhile blank).length := by
  induction s using List.reverseRecOn generalizing R with
  | nil =>
    rw [List.rdropWhile_nil, List.length_nil, Nat.add_zero]
    cases i with
    | zero => rfl
    | succ i => exact if_neg fun goes => Nat.lt_irrefl _ goes.1
  | append_singleton s x ih =>
    have last : mem.getD (i + s.length + 1) 0 = x := by
      have at_ : (mem.drop i)[s.length + 1]? = some x := by
        rw [h, List.getElem?_cons_succ, List.append_assoc,
          List.getElem?_append_right (Nat.le_refl _), Nat.sub_self]
        rfl
      rw [List.getElem?_drop] at at_
      rw [List.getD_eq_getElem?_getD, Nat.add_assoc, at_, Option.getD_some]
    rw [List.append_assoc] at h
    rw [List.length_append, List.length_singleton, ← Nat.add_assoc, trimEnd, last,
      List.rdropWhile_concat, ih h]
    by_cases hx : blank x = true
    · rw [if_pos ⟨by omega, hx⟩, if_pos hx]
    · rw [if_neg fun goes => hx goes.2, if_neg hx, List.length_append, List.length_singleton,
        Nat.add_assoc]

/-- Where the terminator is stored. -/
theorem trimEnd_strAt (pos : 0 < i) :
    trimEnd blank mem i (i + (strAt mem i).length - 1) + 1 = i + (trimmed blank (strAt mem i)).length := by
  have whole : mem.drop i = strAt mem i ++ (mem.drop i).dropWhile fun b => b != 0 :=
    List.takeWhile_append_dropWhile.symm
  cases text : strAt mem i with
  | nil =>
    have stays : trimEnd blank mem i (i - 1) = i - 1 := by
      rcases trimEnd_stays blank mem i (i - 1) with same | behind
      · exact same
      · cases i with
        | zero => rfl
        | succ i =>
          cases i with
          | zero => rfl
          | succ i => exact if_neg fun goes => by omega
    show trimEnd blank mem i (i - 1) + 1 = i
    rw [stays, Nat.sub_add_cancel pos]
  | cons c s =>
    rw [text] at whole
    rw [List.length_cons, ← Nat.add_assoc, Nat.add_sub_cancel, trimEnd_of_drop whole]
    rfl

section TakeWhile

variable {α : Type*} {p : α → Bool} {l : List α} {k : ℕ}

theorem takeWhile_set {x : α} (hx : p x = false) (inside : k ≤ (l.takeWhile p).length)
    (room : k < l.length) : (l.set k x).takeWhile p = (l.takeWhile p).take k := by
  induction l generalizing k with
  | nil => cases room
  | cons b l ih =>
    cases k with
    | zero => rw [List.set_cons_zero, List.takeWhile_cons_of_neg (by simp [hx]), List.take_zero]
    | succ k =>
      by_cases hb : p b = true
      · rw [List.takeWhile_cons_of_pos hb] at inside ⊢
        rw [List.set_cons_succ, List.takeWhile_cons_of_pos hb, List.take_succ_cons,
          ih (Nat.le_of_succ_le_succ inside) (Nat.lt_of_succ_lt_succ room)]
      · rw [List.takeWhile_cons_of_neg hb] at inside
        cases inside

theorem takeWhile_drop (inside : k ≤ (l.takeWhile p).length) :
    (l.drop k).takeWhile p = (l.takeWhile p).drop k := by
  induction l generalizing k with
  | nil => simp
  | cons b l ih =>
    cases k with
    | zero => rfl
    | succ k =>
      by_cases hb : p b = true
      · rw [List.takeWhile_cons_of_pos hb] at inside ⊢
        rw [List.drop_succ_cons, List.drop_succ_cons, ih (Nat.le_of_succ_le_succ inside)]
      · rw [List.takeWhile_cons_of_neg hb] at inside
        cases inside

end TakeWhile

/-- A terminator stored inside a string ends it there. -/
theorem strAt_set_zero {k : ℕ} (inside : k ≤ (strAt mem i).length) (room : i + k < mem.length) :
    strAt (mem.set (i + k) 0) i = (strAt mem i).take k := by
  have drop : (mem.set (i + k) 0).drop i = (mem.drop i).set k 0 := by
    rw [List.drop_set, if_neg (by omega), Nat.add_sub_cancel_left]
  unfold strAt at inside ⊢
  rw [drop]
  refine takeWhile_set rfl inside ?_
  rw [List.length_drop]
  omega

/-- A string from one of its characters on. -/
theorem strAt_add {k : ℕ} (inside : k ≤ (strAt mem i).length) :
    strAt mem (i + k) = (strAt mem i).drop k := by
  unfold strAt at inside ⊢
  rw [← List.drop_drop]
  exact takeWhile_drop inside

theorem isPrefix_trimmed (s : CString) : trimmed blank s <+: s := by
  cases s with
  | nil => exact List.prefix_rfl
  | cons c s => exact (List.prefix_cons_inj c).2 (List.rdropWhile_prefix blank s)

/-- The string that is left when the terminator was stored. -/
theorem strAt_trimmed (pos : 0 < i) (room : i + (trimmed blank (strAt mem i)).length < mem.length) :
    strAt (mem.set (trimEnd blank mem i (i + (strAt mem i).length - 1) + 1) 0) i =
      trimmed blank (strAt mem i) := by
  have part := @isPrefix_trimmed blank (strAt mem i)
  rw [trimEnd_strAt pos, strAt_set_zero part.length_le room]
  exact (List.prefix_iff_eq_take.1 part).symm

/-- Without its leading blanks it is the stripped string. -/
theorem dropWhile_trimmed (s : CString) : (trimmed blank s).dropWhile blank = stripped blank s := by
  cases s with
  | nil => rfl
  | cons c s =>
    show (c :: s.rdropWhile blank).dropWhile blank = ((c :: s).rdropWhile blank).dropWhile blank
    by_cases all : s.rdropWhile blank = []
    · have first : (c :: s).rdropWhile blank = [c].rdropWhile blank := by
        unfold List.rdropWhile at all ⊢
        rw [List.reverse_cons, List.dropWhile_append, List.reverse_eq_nil_iff.1 all]
        rfl
      rw [all, first, List.rdropWhile_singleton]
      by_cases hc : blank c = true
      · rw [if_pos hc, List.dropWhile_cons_of_pos hc]
      · rw [if_neg hc]
    · have whole : (c :: s).rdropWhile blank = c :: s.rdropWhile blank := by
        unfold List.rdropWhile at all ⊢
        rw [List.reverse_cons, List.dropWhile_append, if_neg, List.reverse_append]
        · rfl
        · rwa [List.isEmpty_iff, ← List.reverse_eq_nil_iff]
      rw [whole]

end CMemory
