import Orcashi.Lib.CMemory

/-!
# Strings copied into arrays

What `strncpy`, `strcpy` and the store of a terminator leave in an array, and where they leave the array.
`strncpy` writes as many bytes as it is told to, and fills up with NULs.
-/

namespace CMemory

/-- `mem[i] = b`; none outside the array. -/
def storeByte (mem : Bytes) (i : ℕ) (b : UInt8) : Option Bytes :=
  if i < mem.length then some (mem.set i b) else none

/-- What `strncpy` writes. -/
def padded (s : CString) (n : ℕ) : Bytes := s.take n ++ List.replicate (n - s.length) 0

/-- `strncpy` -/
def strncpy (mem : Bytes) (s : CString) (n : ℕ) : Option Bytes := memcpy mem 0 (padded s n)

/-- `strcpy` -/
def strcpy (mem : Bytes) (s : CString) : Option Bytes := memcpy mem 0 (s ++ [0])

/-- `strncpy(mem, s, n); mem[n] = '\0';` -/
def strncpyTerminated (mem : Bytes) (s : CString) (n : ℕ) : Option Bytes := do
  let mem ← strncpy mem s n
  storeByte mem n 0

variable {mem R : Bytes} {s : CString} {n : ℕ} {c : UInt8}

theorem length_padded (s : CString) (n : ℕ) : (padded s n).length = n := by
  unfold padded
  rw [List.length_append, List.length_take, List.length_replicate]
  omega

theorem replicate_append_cons (k : ℕ) (b : UInt8) (R : Bytes) :
    List.replicate k b ++ b :: R = b :: (List.replicate k b ++ R) := by
  rw [List.append_cons, ← List.replicate_succ', List.replicate_succ, List.cons_append]

/-- With the terminator the first `n` bytes are a string in the array, if the array is longer than that. -/
theorem strncpyTerminated_eq (h : n < mem.length) (s : CString) :
    ∃ R, strncpyTerminated mem s n = some (s.take n ++ 0 :: R) ∧
      (s.take n ++ 0 :: R).length = mem.length := by
  have fits : (padded s n).length ≤ mem.length := by
    rw [length_padded]
    omega
  obtain ⟨b, rest, behind⟩ : ∃ b rest, mem.drop n = b :: rest := ⟨_, _, List.drop_eq_getElem_cons h⟩
  have stored : storeByte (padded s n ++ b :: rest) n 0 = some (padded s n ++ 0 :: rest) := by
    unfold storeByte
    rw [if_pos, List.set_append_right _ _ (length_padded s n).le, length_padded, Nat.sub_self,
      List.set_cons_zero]
    rw [List.length_append, length_padded, List.length_cons]
    omega
  have text : padded s n ++ 0 :: rest =
      s.take n ++ 0 :: (List.replicate (n - s.length) 0 ++ rest) := by
    unfold padded
    rw [List.append_assoc, replicate_append_cons]
  refine ⟨List.replicate (n - s.length) 0 ++ rest, ?_, ?_⟩
  · unfold strncpyTerminated strncpy
    rw [memcpy_zero fits, length_padded, behind, Option.bind_eq_bind, Option.bind_some, stored, text]
  · have total := congrArg List.length behind
    rw [← text, List.length_append, length_padded, List.length_cons]
    rw [List.length_drop, List.length_cons] at total
    omega

theorem strncpyTerminated_eq_none (h : mem.length ≤ n) (s : CString) : strncpyTerminated mem s n = none := by
  unfold strncpyTerminated strncpy memcpy
  rw [length_padded, Nat.zero_add]
  split_ifs with fits
  · rw [Option.bind_eq_bind, Option.bind_some]
    unfold storeByte
    refine if_neg ?_
    rw [List.length_append, List.length_append, List.length_drop, length_padded, List.take_zero,
      List.length_nil]
    omega
  · rfl

theorem strcpy_eq (h : s.length < mem.length) : strcpy mem s = some (s ++ 0 :: mem.drop (s.length + 1)) := by
  unfold strcpy
  have length : (s ++ [0]).length = s.length + 1 := List.length_append
  rw [memcpy_zero (by omega), length, List.append_assoc]
  rfl

/-! ## Searching a string in an array -/

theorem strAt_zero (hs : 0 ∉ s) (R : Bytes) : strAt (s ++ 0 :: R) 0 = s := by
  have inside : ∀ b ∈ s, (b != 0) = true := by
    intro b mem
    rw [bne_iff_ne]
    rintro rfl
    exact hs mem
  unfold strAt
  rw [List.drop_zero, List.takeWhile_append_of_pos inside, List.takeWhile_cons_of_neg (by decide),
    List.append_nil]

/-- A string and a search in it are where they were when other bytes are in front. -/
theorem strAt_behind (A mem : Bytes) : strAt (A ++ mem) A.length = strAt mem 0 := by
  unfold strAt
  rw [List.drop_left, List.drop_zero]

theorem strchr_behind (A mem : Bytes) (c : UInt8) :
    strchr (A ++ mem) A.length c = (strchr mem 0 c).map (A.length + ·) := by
  have same : scan c (A ++ mem) A.length = A.length + scan c mem 0 := by
    unfold scan
    rw [List.drop_left, List.drop_zero, Nat.zero_add]
  unfold strchr
  rw [same, List.getElem?_append_right (Nat.le_add_right _ _), Nat.add_sub_cancel_left]
  split_ifs <;> rfl

theorem strchr_found (hs : 0 ∉ s) (hc : c ∉ s) (R : Bytes) : strchr (s ++ c :: R) 0 c = some s.length := by
  have here : (s ++ c :: R)[s.length]? = some c := by
    rw [List.getElem?_append_right (Nat.le_refl _), Nat.sub_self, List.getElem?_cons_zero]
  have stop : scan c (s ++ c :: R) 0 = s.length := by
    refine Nat.le_antisymm (scan_le (Nat.zero_le _) here (Or.inr rfl)) (Nat.not_lt.1 fun early => ?_)
    have inside : (s ++ c :: R)[scan c (s ++ c :: R) 0]? = s[scan c (s ++ c :: R) 0]? :=
      List.getElem?_append_left early
    have inArray : scan c (s ++ c :: R) 0 < (s ++ c :: R).length := by
      rw [List.length_append]
      omega
    have stopped := getElem?_scan inArray
    rw [inside] at stopped
    rcases stopped with nul | found
    · exact hs (List.mem_of_getElem? nul)
    · exact hc (List.mem_of_getElem? found)
  unfold strchr
  rw [stop, if_pos here]

theorem strchr_not_found (hc : c ∉ s) (ne : c ≠ 0) (R : Bytes) :
    strchr (s ++ 0 :: R) 0 c = none := by
  cases found : strchr (s ++ 0 :: R) 0 c with
  | none => rfl
  | some k =>
    have nul : (s ++ 0 :: R)[s.length]? = some 0 := by
      rw [List.getElem?_append_right (Nat.le_refl _), Nat.sub_self, List.getElem?_cons_zero]
    have before := lt_of_strchr found ne nul (Nat.zero_le _)
    have here := (strchr_eq_some found).2
    rw [List.getElem?_append_left before] at here
    exact absurd (List.mem_of_getElem? here) hc

end CMemory
