import Mathlib.Data.Int.Notation
import Mathlib.Data.List.TakeWhile
import Mathlib.Tactic.Common

/-!
# C strings in a byte memory

A pointer into a buffer is an index into a list of bytes, and a C string is what lies between an
index and the next NUL.  The end of the list ends every string; a scan that stops there has read
past the buffer, which the position returned by `scan` shows.
-/

/-- A stretch of memory. -/
abbrev Bytes := List UInt8

/-- The bytes of a C string, without the terminator. -/
abbrev CString := List UInt8

namespace CMemory

/-- Where a scan for `c` or a NUL that starts at `i` stops. -/
def scan (c : UInt8) (mem : Bytes) (i : ℕ) : ℕ :=
  i + (mem.drop i).findIdx fun b => b == 0 || b == c

/-- The C string at `i`. -/
def strAt (mem : Bytes) (i : ℕ) : CString := (mem.drop i).takeWhile fun b => b != 0

/-- The position of the first `c` at or after `i`, within the string at `i`. -/
def strchr (mem : Bytes) (i : ℕ) (c : UInt8) : Option ℕ :=
  if mem[scan c mem i]? = some c then some (scan c mem i) else none

/-- The bytes as they are written into an array of `size` chars, truncated to leave room for the
terminator: `snprintf`, and `strncpy` with the terminator set. -/
def cut (size : ℕ) (s : CString) : CString := s.take (size - 1)

/-- The bytes of a string constant. -/
def ascii (s : String) : Bytes := s.toList.map fun c => c.toNat.toUInt8

/-- The text of `%ld` and `%d`. -/
def decimal : ℤ → CString
  | .ofNat n => (Nat.toDigits 10 n).map fun c => c.toNat.toUInt8
  | .negSucc n => 45 :: (Nat.toDigits 10 (n + 1)).map fun c => c.toNat.toUInt8

variable {c : UInt8} {mem : Bytes} {i j m : ℕ}

theorem le_scan_self : i ≤ scan c mem i := Nat.le_add_right _ _

/-- A NUL or a `c` stops a scan. -/
theorem scan_le {b : UInt8} (hij : i ≤ j) (hb : mem[j]? = some b) (stops : b = 0 ∨ b = c) :
    scan c mem i ≤ j := by
  obtain ⟨hlt, hget⟩ := List.getElem?_eq_some_iff.1 hb
  have hlt' : j - i < (mem.drop i).length := by
    rw [List.length_drop]
    omega
  have hval : (mem.drop i)[j - i] = b := by
    rw [List.getElem_drop, ← hget]
    simp only [Nat.add_sub_cancel' hij]
  have hle : (mem.drop i).findIdx (fun b => b == 0 || b == c) ≤ j - i := by
    by_contra hgt
    have hno := List.not_of_lt_findIdx (Nat.lt_of_not_le hgt)
    rw [hval] at hno
    rcases stops with rfl | rfl <;> simp at hno
  unfold scan
  omega

theorem mem_take_iff {b : UInt8} : b ∈ mem.take m ↔ ∃ j < m, mem[j]? = some b := by
  rw [List.mem_iff_getElem?]
  refine exists_congr fun j => ?_
  rw [List.getElem?_take]
  split_ifs with h <;> simp [h]

/-- What stops a scan within the memory is a NUL or a `c`. -/
theorem getElem?_scan (h : scan c mem i < mem.length) :
    mem[scan c mem i]? = some 0 ∨ mem[scan c mem i]? = some c := by
  unfold scan at h ⊢
  have hlen : (mem.drop i).findIdx (fun b => b == 0 || b == c) < (mem.drop i).length := by
    rw [List.length_drop]
    omega
  have hstop := List.findIdx_getElem (w := hlen)
  rw [List.getElem_drop] at hstop
  rw [List.getElem?_eq_getElem h]
  simpa using hstop

/-- A scan stays below `m` exactly if something stops it there. -/
theorem scan_lt_iff (hm : m ≤ mem.length) :
    scan c mem i < m ↔ ∃ j < m, i ≤ j ∧ (mem[j]? = some 0 ∨ mem[j]? = some c) := by
  constructor
  · intro h
    exact ⟨_, h, le_scan_self, getElem?_scan (Nat.lt_of_lt_of_le h hm)⟩
  · rintro ⟨j, hj, hij, hb | hb⟩
    · exact Nat.lt_of_le_of_lt (scan_le hij hb (Or.inl rfl)) hj
    · exact Nat.lt_of_le_of_lt (scan_le hij hb (Or.inr rfl)) hj

/-- A scan of the whole memory stays below `m` exactly if a NUL or a `c` is among the first bytes. -/
theorem scan_start_lt_iff (hm : m ≤ mem.length) :
    scan c mem 0 < m ↔ 0 ∈ mem.take m ∨ c ∈ mem.take m := by
  rw [scan_lt_iff hm, mem_take_iff, mem_take_iff]
  constructor
  · rintro ⟨j, hj, -, h | h⟩
    · exact Or.inl ⟨j, hj, h⟩
    · exact Or.inr ⟨j, hj, h⟩
  · rintro (⟨j, hj, h⟩ | ⟨j, hj, h⟩)
    · exact ⟨j, hj, Nat.zero_le j, Or.inl h⟩
    · exact ⟨j, hj, Nat.zero_le j, Or.inr h⟩

/-- What a scan passes over is neither a NUL nor `c`. -/
theorem ne_of_lt_scan (hij : i ≤ j) (hj : j < scan c mem i) {b : UInt8} (hb : mem[j]? = some b) :
    b ≠ 0 ∧ b ≠ c := by
  by_contra h
  have : scan c mem i ≤ j := scan_le hij hb (by tauto)
  omega

theorem strchr_eq_some {k : ℕ} (h : strchr mem i c = some k) :
    k = scan c mem i ∧ mem[k]? = some c := by
  unfold strchr at h
  split_ifs at h with hc
  obtain rfl := Option.some.inj h
  exact ⟨rfl, hc⟩

theorem lt_length_of_strchr {k : ℕ} (h : strchr mem i c = some k) : k < mem.length :=
  (List.getElem?_eq_some_iff.1 (strchr_eq_some h).2).1

theorem le_of_strchr {k : ℕ} (h : strchr mem i c = some k) : i ≤ k :=
  (strchr_eq_some h).1 ▸ le_scan_self

/-- A search that fails within the memory has met a NUL. -/
theorem getElem?_of_strchr_eq_none (h : strchr mem i c = none) (hlt : scan c mem i < mem.length) :
    mem[scan c mem i]? = some 0 := by
  rcases getElem?_scan hlt with hz | hc
  · exact hz
  · unfold strchr at h
    rw [if_pos hc] at h
    cases h

/-- What a search finds lies before every NUL. -/
theorem lt_of_strchr {k z : ℕ} (h : strchr mem i c = some k) (hc : c ≠ 0) (hz : mem[z]? = some 0)
    (hiz : i ≤ z) : k < z := by
  obtain ⟨hk, hget⟩ := strchr_eq_some h
  have hle : k ≤ z := hk ▸ scan_le hiz hz (Or.inl rfl)
  refine Nat.lt_of_le_of_ne hle ?_
  rintro rfl
  rw [hz] at hget
  exact hc (Option.some.inj hget).symm

/-- Once a NUL is stored over it, a search does not get past the first `c`. -/
theorem strchr_set_eq_none {k : ℕ} (h : strchr mem i c = some k) (hc : c ≠ 0) :
    strchr (mem.set k 0) i c = none := by
  obtain ⟨hk, -⟩ := strchr_eq_some h
  have hik := le_of_strchr h
  have hlt := lt_length_of_strchr h
  have nul : (mem.set k 0)[k]? = some 0 := List.getElem?_set_self hlt
  cases hs : strchr (mem.set k 0) i c with
  | none => rfl
  | some j =>
    obtain ⟨hj, hget⟩ := strchr_eq_some hs
    have hle : j ≤ k := hj ▸ scan_le hik nul (Or.inl rfl)
    have hne : j ≠ k := by
      rintro rfl
      rw [nul] at hget
      exact hc (Option.some.inj hget).symm
    rw [List.getElem?_set_ne (Ne.symm hne)] at hget
    have hlt' : j < scan c mem i := by omega
    exact absurd rfl (ne_of_lt_scan (le_of_strchr hs) hlt' hget).2

theorem scan_zero_eq : scan 0 mem i = i + (strAt mem i).length := by
  unfold scan strAt
  congr 1
  induction mem.drop i with
  | nil => rfl
  | cons b l ih =>
    rw [List.findIdx_cons, List.takeWhile_cons]
    by_cases hb : b = 0
    · simp [hb]
    · have hb' : (b == 0) = false := beq_eq_false_iff_ne.2 hb
      simpa [hb, hb'] using ih

theorem strAt_eq_take : strAt mem i = (mem.drop i).take (strAt mem i).length :=
  List.prefix_iff_eq_take.1 (List.takeWhile_prefix _)

/-- A NUL at or after `i` bounds the string at `i`. -/
theorem length_strAt_le (hij : i ≤ j) (hb : mem[j]? = some 0) : (strAt mem i).length ≤ j - i := by
  have h := scan_le (c := 0) hij hb (Or.inl rfl)
  rw [scan_zero_eq] at h
  omega

theorem length_strAt_le_length : (strAt mem i).length ≤ mem.length - i := by
  rw [strAt_eq_take, List.length_take, List.length_drop]
  omega

/-! ## The front of a memory -/

theorem getD_append_front {p : Bytes} (h : i < p.length) (q : Bytes) : (p ++ q).getD i 0 = p.getD i 0 := by
  rw [List.getD_eq_getElem?_getD, List.getD_eq_getElem?_getD, List.getElem?_append_left h]

theorem take_drop_append_front {p : Bytes} {i n : ℕ} (h : i + n ≤ p.length) (q : Bytes) :
    ((p ++ q).drop i).take n = (p.drop i).take n := by
  rw [List.drop_append_of_le_length (by omega), List.take_append_of_le_length]
  rw [List.length_drop]
  omega

/-! ## Copying into an array -/

/-- `memcpy(mem + i, b, len)`; none where it would leave the array. -/
def memcpy (mem : Bytes) (i : ℕ) (b : Bytes) : Option Bytes :=
  if i + b.length ≤ mem.length then some (mem.take i ++ b ++ mem.drop (i + b.length)) else none

/-- A copy keeps what is before it and what is behind it. -/
theorem memcpy_append {p b : Bytes} (fits : b.length ≤ mem.length) (at_ : i = p.length) :
    memcpy (p ++ mem) i b = some (p ++ (b ++ mem.drop b.length)) := by
  subst at_
  unfold memcpy
  rw [if_pos (by rw [List.length_append]; omega), List.take_left', List.drop_append,
    Nat.add_sub_cancel_left, List.drop_eq_nil_of_le (Nat.le_add_right _ _), List.nil_append,
    List.append_assoc]
  rfl

theorem memcpy_zero {b : Bytes} (fits : b.length ≤ mem.length) :
    memcpy mem 0 b = some (b ++ mem.drop b.length) :=
  memcpy_append fits (p := []) rfl

end CMemory
