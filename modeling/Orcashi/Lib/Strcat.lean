import Orcashi.Lib.CMemory

/-!
# Joining strings in place

`strcat` writes behind a string in the memory it lies in.  Where strings lie one after the other,
as the arguments of a program do, what is written behind one goes over the next ones.  Copying runs
from the front, byte by byte, so that a string can be moved down over itself.
-/

namespace CMemory

/-! ## Stores -/

/-- `strcpy` within the memory; `fuel` bounds the number of bytes copied. -/
def copyStr (mem : Bytes) (dst src : ℕ) : ℕ → Bytes
  | 0 => mem
  | fuel + 1 =>
    match mem[src]? with
    | none => mem
    | some c => if c = 0 then mem.set dst 0 else copyStr (mem.set dst c) (dst + 1) (src + 1) fuel

/-- `strcpy` of a string that lies elsewhere. -/
def storeStr (mem : Bytes) (dst : ℕ) : CString → Bytes
  | [] => mem.set dst 0
  | c :: s => storeStr (mem.set dst c) (dst + 1) s

/-- Where the string at `i` ends. -/
def strEnd (mem : Bytes) (i : ℕ) : ℕ := i + (strAt mem i).length

/-- `strcat(mem + dest, s)`. -/
def strcatText (mem : Bytes) (dest : ℕ) (s : CString) : Bytes := storeStr mem (strEnd mem dest) s

/-- `strcat(mem + dest, mem + src)`. -/
def strcat (mem : Bytes) (dest src : ℕ) : Bytes := copyStr mem (strEnd mem dest) src mem.length

/-- The strings with their terminators, one after the other. -/
def layout (strings : List CString) : Bytes := strings.flatMap (· ++ [0])

/-- Where each of them starts. -/
def starts (i : ℕ) : List CString → List ℕ
  | [] => []
  | s :: ss => i :: starts (i + s.length + 1) ss

/-- For each string in turn, `strcat` a blank and the string behind the one at `dest`. -/
def appendWords (mem : Bytes) (dest : ℕ) : List ℕ → Bytes
  | [] => mem
  | src :: srcs => appendWords (strcat (strcatText mem dest [32]) dest src) dest srcs

/-- What is joined so: behind a string with no room, the next one that is not empty is lost to the
blank and the terminator, and the room it leaves is enough for all others. -/
def glue (text : CString) (gap : ℕ) : List CString → CString
  | [] => text
  | w :: ws => if gap = 0 then glue (text ++ [32]) w.length ws else glue (text ++ 32 :: w) gap ws

/-- The words behind `text`, each after a blank. -/
def joined (text : CString) (ws : List CString) : CString := text ++ ws.flatMap (32 :: ·)

/-! ## Single calls -/

theorem set_append_cons (A : Bytes) (a b : UInt8) (R : Bytes) :
    (A ++ a :: R).set A.length b = A ++ b :: R := by
  rw [List.set_append_right _ _ (Nat.le_refl _), Nat.sub_self, List.set_cons_zero]

theorem getElem?_append_cons {A : Bytes} {a : UInt8} {R : Bytes} {i : ℕ} (hi : i = A.length) :
    (A ++ a :: R)[i]? = some a := by
  rw [hi, List.getElem?_append_right (Nat.le_refl _), Nat.sub_self, List.getElem?_cons_zero]

theorem strAt_append {A s : Bytes} (hs : 0 ∉ s) (R : Bytes) :
    strAt (A ++ (s ++ 0 :: R)) A.length = s := by
  have inside : ∀ c ∈ s, (c != 0) = true := by
    intro c hc
    rw [bne_iff_ne]
    rintro rfl
    exact hs hc
  unfold strAt
  rw [List.drop_left, List.takeWhile_append_of_pos inside]
  simp

theorem strEnd_append {A s : Bytes} (hs : 0 ∉ s) (R : Bytes) :
    strEnd (A ++ (s ++ 0 :: R)) A.length = (A ++ s).length := by
  unfold strEnd
  rw [strAt_append hs, List.length_append]

/-- A string is moved down whole, over the bytes before it; as many bytes are left behind it. -/
theorem copyStr_down {A D w R : Bytes} (ne : D ≠ []) (hw : 0 ∉ w) {fuel : ℕ}
    (enough : w.length < fuel) :
    ∃ D', D'.length = D.length ∧
      copyStr (A ++ (D ++ (w ++ 0 :: R))) A.length (A.length + D.length) fuel
        = A ++ (w ++ 0 :: (D' ++ R)) := by
  induction w generalizing A D fuel with
  | nil =>
    obtain ⟨d, D, rfl⟩ := List.exists_cons_of_ne_nil ne
    obtain ⟨fuel, rfl⟩ := Nat.exists_eq_add_one_of_ne_zero (Nat.ne_of_gt enough)
    have read : (A ++ (d :: D ++ ([] ++ 0 :: R)))[A.length + (d :: D).length]? = some 0 := by
      rw [List.nil_append, ← List.append_assoc]
      exact getElem?_append_cons List.length_append.symm
    refine ⟨D ++ [0], by simp, ?_⟩
    rw [copyStr, read]
    dsimp only
    rw [if_pos rfl, List.cons_append, set_append_cons]
    simp
  | cons c w ih =>
    obtain ⟨d, D, rfl⟩ := List.exists_cons_of_ne_nil ne
    obtain ⟨fuel, rfl⟩ := Nat.exists_eq_add_one_of_ne_zero (Nat.ne_of_gt (Nat.zero_lt_of_lt enough))
    have hc : c ≠ 0 := fun h => hw (h ▸ List.mem_cons_self)
    have read : (A ++ (d :: D ++ (c :: w ++ 0 :: R)))[A.length + (d :: D).length]? = some c := by
      rw [show c :: w ++ 0 :: R = c :: (w ++ 0 :: R) from rfl, ← List.append_assoc]
      exact getElem?_append_cons List.length_append.symm
    have shift : A ++ c :: (D ++ (c :: w ++ 0 :: R)) =
        (A ++ [c]) ++ ((D ++ [c]) ++ (w ++ 0 :: R)) := by simp
    obtain ⟨D', len, moved⟩ := ih (A := A ++ [c]) (D := D ++ [c]) (by simp)
      (fun h => hw (List.mem_cons_of_mem c h)) (Nat.lt_of_succ_lt_succ enough)
    refine ⟨D', by simpa using len, ?_⟩
    rw [copyStr, read]
    dsimp only
    rw [if_neg hc, List.cons_append, set_append_cons, shift]
    rw [List.length_append, List.length_append, List.length_singleton] at moved
    rw [List.length_cons, show A.length + (D.length + 1) + 1 = A.length + 1 + (D.length + 1) by omega,
      moved]
    simp

/-- A blank behind a string takes the place of the terminator, and the terminator that of the byte
after it. -/
theorem strcatText_blank {A text : Bytes} (ht : 0 ∉ text) (x : UInt8) (R : Bytes) :
    strcatText (A ++ (text ++ 0 :: x :: R)) A.length [32] = A ++ (text ++ [32] ++ 0 :: R) := by
  unfold strcatText
  rw [strEnd_append ht, storeStr, storeStr, ← List.append_assoc, set_append_cons]
  have next : A ++ text ++ 32 :: x :: R = (A ++ text ++ [32]) ++ x :: R := by simp
  have last : (A ++ text).length + 1 = (A ++ text ++ [32]).length := by
    rw [List.length_append, List.length_append, List.length_append, List.length_singleton]
  rw [next, last, set_append_cons, List.append_assoc, List.append_assoc, List.append_assoc]

/-- An empty string adds nothing. -/
theorem strcat_empty {A text R : Bytes} (ht : 0 ∉ text) {src : ℕ}
    (empty : (A ++ (text ++ 0 :: R))[src]? = some 0) :
    strcat (A ++ (text ++ 0 :: R)) A.length src = A ++ (text ++ 0 :: R) := by
  have len : (A ++ (text ++ 0 :: R)).length = A.length + text.length + R.length + 1 := by
    simp only [List.length_append, List.length_cons]
    omega
  unfold strcat
  rw [len, copyStr, empty]
  dsimp only
  rw [if_pos rfl, strEnd_append ht, ← List.append_assoc, set_append_cons]

/-! ## A whole row of words -/

/-- What is joined stands where the first string stood, and nothing before it has changed. -/
theorem appendWords_eq {A text gap : Bytes} {ws : List CString} {i : ℕ} (ht : 0 ∉ text)
    (hws : ∀ w ∈ ws, 0 ∉ w) (hi : i = A.length + text.length + 1 + gap.length) (R : Bytes) :
    0 ∉ glue text gap.length ws ∧
      ∃ R', appendWords (A ++ (text ++ 0 :: (gap ++ (layout ws ++ R)))) A.length (starts i ws)
        = A ++ (glue text gap.length ws ++ 0 :: R') := by
  induction ws generalizing text gap i with
  | nil => exact ⟨ht, gap ++ R, by simp [appendWords, starts, layout, glue]⟩
  | cons w ws ih =>
    have hw := hws w List.mem_cons_self
    have hws' : ∀ w ∈ ws, 0 ∉ w := fun v hv => hws v (List.mem_cons_of_mem w hv)
    have row : layout (w :: ws) ++ R = w ++ 0 :: (layout ws ++ R) := by simp [layout]
    have ht' : 0 ∉ text ++ [32] := by simpa using ht
    rw [row, starts, appendWords]
    cases gap with
    | nil =>
      have empty (L : Bytes) : (A ++ (text ++ [32] ++ 0 :: L))[i]? = some 0 := by
        rw [← List.append_assoc]
        refine getElem?_append_cons ?_
        rw [hi, List.length_append, List.length_append]
        rfl
      rw [glue, List.length_nil, if_pos rfl, List.nil_append]
      cases w with
      | nil =>
        rw [List.nil_append, strcatText_blank ht, strcat_empty ht' (empty _)]
        exact @ih (text ++ [32]) [] _ ht' hws' (by simp [hi]; omega)
      | cons c w =>
        -- the first byte of the word is where the terminator goes
        have done := @ih (text ++ [32]) (w ++ [0]) (i + (c :: w).length + 1) ht' hws'
          (by simp [hi]; omega)
        rw [List.cons_append, strcatText_blank ht, strcat_empty ht' (empty _)]
        simpa using done
    | cons x gap =>
      have ht'' : 0 ∉ text ++ 32 :: w := by
        intro h
        rcases List.mem_append.1 h with h | h
        · exact ht h
        · rcases List.mem_cons.1 h with h | h
          · cases h
          · exact hw h
      rw [List.cons_append, strcatText_blank ht, glue, List.length_cons, if_neg (Nat.succ_ne_zero _)]
      unfold strcat
      rw [strEnd_append ht']
      obtain ⟨D', len, moved⟩ := @copyStr_down (A ++ (text ++ [32])) (0 :: gap) w (layout ws ++ R)
        (by simp) hw (A ++ (text ++ [32] ++ 0 :: (gap ++ (w ++ 0 :: (layout ws ++ R))))).length
        (by simp only [List.length_append, List.length_cons]; omega)
      have done := @ih (text ++ 32 :: w) D' (i + w.length + 1) ht'' hws'
        (by rw [len]; simp [hi]; omega)
      have place : i = (A ++ (text ++ [32])).length + (0 :: gap).length := by simp [hi]; omega
      rw [place]
      rw [len, List.length_cons] at done
      rw [List.append_assoc, List.cons_append] at moved
      rw [moved]
      simpa [hi, Nat.add_assoc] using done

/-- With room behind the first string all words are joined. -/
theorem glue_of_gap {gap : ℕ} (h : gap ≠ 0) (text : CString) (ws : List CString) :
    glue text gap ws = joined text ws := by
  induction ws generalizing text with
  | nil => simp [glue, joined]
  | cons w ws ih =>
    rw [glue, if_neg h, ih]
    simp [joined]

theorem length_glue_le (text : CString) (gap : ℕ) (ws : List CString) :
    (glue text gap ws).length ≤ (joined text ws).length := by
  induction ws generalizing text gap with
  | nil => simp [glue, joined]
  | cons w ws ih =>
    rw [glue]
    split_ifs
    · refine (ih _ _).trans ?_
      simp only [joined, List.flatMap_cons, List.length_append, List.length_cons, List.length_nil]
      omega
    · refine (ih _ _).trans ?_
      simp [joined]

/-- Without room nothing is lost exactly if every further word is empty. -/
theorem glue_eq_joined_iff (text : CString) (ws : List CString) :
    glue text 0 ws = joined text ws ↔ ∀ w ∈ ws, w = [] := by
  induction ws generalizing text with
  | nil => simp [glue, joined]
  | cons w ws ih =>
    rw [glue, if_pos rfl]
    cases w with
    | nil =>
      have rest : joined text ([] :: ws) = joined (text ++ [32]) ws := by simp [joined]
      rw [rest, List.length_nil, ih]
      simp
    | cons c w =>
      have lost : glue (text ++ [32]) (c :: w).length ws ≠ joined text ((c :: w) :: ws) := by
        intro h
        have len := congrArg List.length h
        rw [glue_of_gap (by simp)] at len
        simp only [joined, List.flatMap_cons, List.length_append, List.length_cons,
          List.length_nil] at len
        omega
      exact ⟨fun h => absurd h lost, fun h => absurd (h _ List.mem_cons_self) (List.cons_ne_nil c w)⟩

end CMemory
