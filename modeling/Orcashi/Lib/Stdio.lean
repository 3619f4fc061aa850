import Orcashi.Lib.CMemory

/-!
# Reading text with the C library

`fgets` cuts a file into lines; `sscanf` matches a line against a format.  A format that has its one
conversion at the end is read in two steps: `scanText` for the characters before the conversion, then
`scanLong`, `scanInt` or `scanSet` for the conversion, each of which fails where `sscanf` does not
count it.  What `printf` writes for a number, `sscanf` reads back.
-/

namespace Stdio

open CMemory

/-! ## Lines -/

/-- The lines that successive calls of `fgets(line, size, f)` read: up to a newline, or as far as the
array has room.  `line` is what the call has read so far. -/
def fgetsFrom (size : ℕ) (line : Bytes) : Bytes → List Bytes
  | [] => if line = [] then [] else [line]
  | c :: s =>
    if c = 10 ∨ line.length + 2 = size then (line ++ [c]) :: fgetsFrom size [] s
    else fgetsFrom size (line ++ [c]) s

/-- The lines that `fgets` reads from a file. -/
def fgets (size : ℕ) (file : Bytes) : List Bytes := fgetsFrom size [] file

/-- A line that has room is read whole. -/
theorem fgetsFrom_line {size : ℕ} {line text rest : Bytes} (oneLine : 10 ∉ text)
    (room : line.length + text.length + 1 < size) :
    fgetsFrom size line (text ++ 10 :: rest) = (line ++ text ++ [10]) :: fgets size rest := by
  induction text generalizing line with
  | nil =>
    rw [List.nil_append, fgetsFrom, if_pos (Or.inl rfl), List.append_nil]
    rfl
  | cons c text ih =>
    rw [List.length_cons] at room
    have hc : c ≠ 10 := fun h => oneLine (h ▸ List.mem_cons_self)
    have more : ¬ (c = 10 ∨ line.length + 2 = size) := by
      rintro (h | h)
      · exact hc h
      · omega
    rw [List.cons_append, fgetsFrom, if_neg more, ih]
    · rw [List.append_assoc line, List.singleton_append]
    · exact fun h => oneLine (List.mem_cons_of_mem c h)
    · rw [List.length_append, List.length_singleton]
      omega

theorem fgets_line {size : ℕ} {text rest : Bytes} (oneLine : 10 ∉ text)
    (room : text.length + 1 < size) :
    fgets size (text ++ 10 :: rest) = (text ++ [10]) :: fgets size rest := by
  have h := @fgetsFrom_line size [] text rest oneLine (by simpa using room)
  rwa [List.nil_append] at h

/-- What follows a newline is read by itself. -/
theorem fgetsFrom_append {size : ℕ} {line a b : Bytes} (closed : a.getLast? = some 10) :
    fgetsFrom size line (a ++ b) = fgetsFrom size line a ++ fgets size b := by
  induction a generalizing line with
  | nil => cases closed
  | cons c s ih =>
    rw [List.cons_append, fgetsFrom, fgetsFrom]
    cases s with
    | nil =>
      obtain rfl : c = 10 := Option.some.inj closed
      rw [if_pos (Or.inl rfl), if_pos (Or.inl rfl)]
      rfl
    | cons d s =>
      rw [List.getLast?_cons_cons] at closed
      rw [ih closed, ih closed]
      split_ifs <;> rfl

theorem fgets_append {size : ℕ} {a b : Bytes} (closed : a.getLast? = some 10) :
    fgets size (a ++ b) = fgets size a ++ fgets size b :=
  fgetsFrom_append closed

/-- A newline ends a line. -/
theorem newline_last {size : ℕ} {line file l : Bytes} (before : 10 ∉ line)
    (h : l ∈ fgetsFrom size line file) : 10 ∉ l.dropLast := by
  induction file generalizing line with
  | nil =>
    unfold fgetsFrom at h
    split_ifs at h with hl
    · cases h
    · obtain rfl := List.mem_singleton.1 h
      exact fun hmem => before (List.dropLast_subset _ hmem)
  | cons c s ih =>
    unfold fgetsFrom at h
    split_ifs at h with hc
    · rcases List.mem_cons.1 h with rfl | h
      · rwa [List.dropLast_concat]
      · exact ih List.not_mem_nil h
    · refine ih ?_ h
      intro hmem
      rcases List.mem_append.1 hmem with hmem | hmem
      · exact before hmem
      · exact hc (Or.inl (List.mem_singleton.1 hmem).symm)

/-! ## Formats -/

/-- `isspace`. -/
def isSpace (c : UInt8) : Bool := c == 32 || (9 ≤ c && c ≤ 13)

/-- What follows the white space. -/
def skipSpace (s : CString) : CString := s.dropWhile isSpace

/-- The part of a format before its conversion: white space stands for any amount of white space,
every other character for itself.  The result is what is left of the input. -/
def scanText : CString → CString → Option CString
  | [], s => some s
  | f :: fs, s =>
    if isSpace f then scanText fs (skipSpace s)
    else
      match s with
      | [] => none
      | c :: s => if c = f then scanText fs s else none

/-- `%<width>[^<stop>]`. -/
def scanSet (width : ℕ) (stop : UInt8) (s : CString) : Option CString :=
  let text := (s.takeWhile fun c => c != stop).take width
  if text = [] then none else some text

/-- `isdigit` -/
def isDigit (c : UInt8) : Bool := 48 ≤ c && c ≤ 57

/-- The number that decimal digits write. -/
def ofDigits (s : CString) : ℕ := s.foldl (fun n c => 10 * n + (c.toNat - 48)) 0

/-- `LONG_MIN` -/
def longMin : ℤ := -9223372036854775808

/-- `LONG_MAX` -/
def longMax : ℤ := 9223372036854775807

/-- The digits of `strtol`, after the sign. -/
def scanDigits (negative : Bool) (s : CString) : Option ℤ :=
  let digits := s.takeWhile isDigit
  if digits = [] then none
  else some (max longMin (min longMax (if negative then -ofDigits digits else ofDigits digits)))

/-- `%ld`: white space, a sign, digits; a number out of range becomes the nearest `long`. -/
def scanLong (s : CString) : Option ℤ :=
  match skipSpace s with
  | 45 :: t => scanDigits true t
  | 43 :: t => scanDigits false t
  | t => scanDigits false t

/-- `%d`, which keeps the low 32 bits. -/
def scanInt (s : CString) : Option ℤ := (scanLong s).map fun n => n.bmod 4294967296

/-- The values of `long` and `int`. -/
def IsLong (n : ℤ) : Prop := longMin ≤ n ∧ n ≤ longMax

/-- The values of `int`. -/
def IsInt (n : ℤ) : Prop := -2147483648 ≤ n ∧ n < 2147483648

/-! ## Formats on known input -/

theorem takeWhile_append_stop {p : UInt8 → Bool} {text rest : CString}
    (inside : ∀ c ∈ text, p c = true) (ends : ∀ c ∈ rest.head?, p c = false) :
    (text ++ rest).takeWhile p = text := by
  rw [List.takeWhile_append_of_pos inside]
  cases rest with
  | nil => exact List.append_nil text
  | cons c rest =>
    rw [List.takeWhile_cons_of_neg (by rw [ends c rfl]; exact Bool.false_ne_true), List.append_nil]

theorem scanText_cons_self {c : UInt8} (hc : isSpace c = false) (fs s : CString) :
    scanText (c :: fs) (c :: s) = scanText fs s := by
  rw [scanText, hc, if_neg Bool.false_ne_true]
  exact if_pos rfl

theorem scanText_cons_ne {c f : UInt8} (hf : isSpace f = false) (hc : c ≠ f) (fs s : CString) :
    scanText (f :: fs) (c :: s) = none := by
  rw [scanText, hf, if_neg Bool.false_ne_true]
  exact if_neg hc

theorem scanText_space {f : UInt8} (hf : isSpace f = true) (fs s : CString) :
    scanText (f :: fs) s = scanText fs (skipSpace s) := by
  rw [scanText.eq_def]
  exact if_pos hf

/-- What is left after a format is a piece of the input. -/
theorem suffix_of_scanText {fs s rest : CString} (h : scanText fs s = some rest) : rest <:+ s := by
  induction fs, s using scanText.induct with
  | case1 s =>
    obtain rfl := Option.some.inj h
    exact List.suffix_rfl
  | case2 f fs s space ih =>
    rw [scanText_space space] at h
    exact (ih h).trans (List.dropWhile_suffix _)
  | case3 f fs space =>
    rw [scanText.eq_def] at h
    simp [space] at h
  | case4 fs c s space ih =>
    rw [scanText_cons_self (Bool.eq_false_iff.2 space)] at h
    exact (ih h).trans (List.suffix_cons c s)
  | case5 f fs space c s ne =>
    rw [scanText_cons_ne (Bool.eq_false_iff.2 space) ne] at h
    cases h

/-- A name between quotes is matched by the same name only. -/
theorem scanText_name {stop : UInt8} (hstop : isSpace stop = false) {a b fs s : CString}
    (ha : ∀ c ∈ a, c ≠ stop ∧ isSpace c = false) (hb : stop ∉ b) :
    scanText (a ++ stop :: fs) (b ++ stop :: s) = if a = b then scanText fs s else none := by
  induction a generalizing b with
  | nil =>
    cases b with
    | nil => rw [List.nil_append, List.nil_append, scanText_cons_self hstop, if_pos rfl]
    | cons d b =>
      have hd : d ≠ stop := fun h => hb (h ▸ List.mem_cons_self)
      rw [List.nil_append, List.cons_append, scanText_cons_ne hstop hd, if_neg (by simp)]
  | cons c a ih =>
    obtain ⟨hc, space⟩ := ha c List.mem_cons_self
    have ha' : ∀ x ∈ a, x ≠ stop ∧ isSpace x = false :=
      fun x hx => ha x (List.mem_cons_of_mem c hx)
    cases b with
    | nil =>
      rw [List.nil_append, List.cons_append, scanText_cons_ne space (Ne.symm hc), if_neg (by simp)]
    | cons d b =>
      rw [List.cons_append, List.cons_append]
      by_cases hd : d = c
      · rw [hd, scanText_cons_self space, ih ha' fun h => hb (List.mem_cons_of_mem d h)]
        simp
      · rw [scanText_cons_ne space hd, if_neg]
        intro h
        exact hd (List.cons.inj h).1.symm

/-- A text up to its stop is read whole. -/
theorem scanSet_append {width : ℕ} {stop : UInt8} {text rest : CString} (ne : text ≠ [])
    (short : text.length ≤ width) (free : stop ∉ text) (ends : ∀ c ∈ rest.head?, c = stop) :
    scanSet width stop (text ++ rest) = some text := by
  unfold scanSet
  dsimp only
  rw [takeWhile_append_stop, List.take_of_length_le short, if_neg ne]
  · intro c hc
    exact bne_iff_ne.2 fun h => free (h ▸ hc)
  · intro c hc
    rw [ends c hc]
    exact bne_self_eq_false stop

/-- What is read is a piece of the input without the stop. -/
theorem scanSet_eq_some {width : ℕ} {stop : UInt8} {s text : CString}
    (h : scanSet width stop s = some text) :
    text <+: s ∧ stop ∉ text ∧ text.length ≤ width ∧ text ≠ [] := by
  unfold scanSet at h
  dsimp only at h
  split_ifs at h with ne
  obtain rfl := Option.some.inj h
  refine ⟨(List.take_prefix _ _).trans (List.takeWhile_prefix _), ?_, List.length_take_le _ _, ne⟩
  intro hmem
  have hstop := List.mem_takeWhile_imp (List.mem_of_mem_take hmem)
  simp at hstop

/-! ## Numbers that were printed -/

theorem isDigit_of_char {c : Char} (h : c.isDigit = true) : isDigit c.toNat.toUInt8 = true := by
  unfold Char.isDigit at h
  rw [Bool.and_eq_true, decide_eq_true_eq, decide_eq_true_eq] at h
  have hlo : 48 ≤ c.toNat := h.1
  have hhi : c.toNat ≤ 57 := h.2
  unfold isDigit
  rw [Bool.and_eq_true, decide_eq_true_eq, decide_eq_true_eq, UInt8.le_iff_toNat_le,
    UInt8.le_iff_toNat_le, Nat.toUInt8_eq, UInt8.toNat_ofNat']
  have small : c.toNat % 2 ^ 8 = c.toNat := Nat.mod_eq_of_lt (by omega)
  rw [small]
  exact ⟨hlo, hhi⟩

theorem ofDigits_map {cs : List Char} (h : ∀ c ∈ cs, c.isDigit = true) :
    ofDigits (cs.map fun c => c.toNat.toUInt8) = Nat.ofDigitChars 10 cs 0 := by
  rw [Nat.ofDigitChars_eq_foldl]
  unfold ofDigits
  rw [List.foldl_map]
  generalize 0 = init
  induction cs generalizing init with
  | nil => rfl
  | cons c cs ih =>
    have hc := h c List.mem_cons_self
    unfold Char.isDigit at hc
    rw [Bool.and_eq_true, decide_eq_true_eq, decide_eq_true_eq] at hc
    have small : c.toNat % 2 ^ 8 = c.toNat := by
      have hhi : c.toNat ≤ 57 := hc.2
      omega
    rw [List.foldl_cons, List.foldl_cons, Nat.toUInt8_eq, UInt8.toNat_ofNat', small]
    exact ih (fun x hx => h x (List.mem_cons_of_mem c hx)) _

/-- The digits `printf` writes for a natural number. -/
def digits (n : ℕ) : CString := (Nat.toDigits 10 n).map fun c => c.toNat.toUInt8

theorem isDigit_of_mem_digits {n : ℕ} {c : UInt8} (h : c ∈ digits n) : isDigit c = true := by
  obtain ⟨d, hd, rfl⟩ := List.mem_map.1 h
  exact isDigit_of_char (Nat.isDigit_of_mem_toDigits (by decide) (by decide) hd)

theorem digits_ne_nil (n : ℕ) : digits n ≠ [] := by
  unfold digits
  rw [ne_eq, List.map_eq_nil_iff]
  exact Nat.toDigits_ne_nil

theorem ofDigits_digits (n : ℕ) : ofDigits (digits n) = n := by
  unfold digits
  rw [ofDigits_map fun c hc => Nat.isDigit_of_mem_toDigits (by decide) (by decide) hc,
    Nat.ofDigitChars_ten_toDigits]

/-- Digits are read up to the first character that is none. -/
theorem scanDigits_digits (negative : Bool) (n : ℕ) {rest : CString}
    (ends : ∀ c ∈ rest.head?, isDigit c = false)
    (range : IsLong (if negative then -(n : ℤ) else n)) :
    scanDigits negative (digits n ++ rest) = some (if negative then -(n : ℤ) else n) := by
  unfold scanDigits
  dsimp only
  rw [takeWhile_append_stop (fun c hc => isDigit_of_mem_digits hc) ends, if_neg (digits_ne_nil n),
    ofDigits_digits]
  obtain ⟨hlo, hhi⟩ := range
  rw [Int.min_eq_right hhi, Int.max_eq_right hlo]

theorem mem_decimal {n : ℤ} {c : UInt8} (h : c ∈ decimal n) : c = 45 ∨ isDigit c = true := by
  cases n with
  | ofNat n => exact Or.inr (isDigit_of_mem_digits h)
  | negSucc n =>
    rcases List.mem_cons.1 h with rfl | h
    · exact Or.inl rfl
    · exact Or.inr (isDigit_of_mem_digits h)

theorem length_digits_le {n : ℕ} (h : n < 10000000000000000000) : (digits n).length ≤ 19 := by
  unfold digits
  rw [List.length_map, Nat.length_toDigits_le_iff (by decide) (by decide)]
  omega

/-- A `long` is written in at most twenty characters. -/
theorem length_decimal_le {n : ℤ} (range : IsLong n) : (decimal n).length ≤ 20 := by
  obtain ⟨hlo, hhi⟩ := range
  unfold longMin at hlo
  unfold longMax at hhi
  cases n with
  | ofNat n =>
    have small : n < 10000000000000000000 := by
      rw [Int.ofNat_eq_natCast] at hhi
      omega
    exact Nat.le_succ_of_le (length_digits_le small)
  | negSucc n =>
    have small : n + 1 < 10000000000000000000 := by omega
    exact Nat.succ_le_succ (length_digits_le small)

theorem IsInt.isLong {n : ℤ} (h : IsInt n) : IsLong n := by
  obtain ⟨hlo, hhi⟩ := h
  unfold IsLong longMin longMax
  omega

/-- `%ld` yields a `long`, whatever it reads. -/
theorem isLong_of_scanLong {s : CString} {n : ℤ} (h : scanLong s = some n) : IsLong n := by
  have clamped (negative : Bool) (t : CString) (ht : scanDigits negative t = some n) : IsLong n := by
    unfold scanDigits at ht
    dsimp only at ht
    split_ifs at ht
    all_goals
      obtain rfl := Option.some.inj ht
      unfold IsLong longMin longMax
      omega
  unfold scanLong at h
  split at h
  · exact clamped true _ h
  · exact clamped false _ h
  · exact clamped false _ h

/-- `%d` yields an `int`. -/
theorem isInt_of_scanInt {s : CString} {n : ℤ} (h : scanInt s = some n) : IsInt n := by
  unfold scanInt at h
  obtain ⟨m, -, rfl⟩ := Option.map_eq_some_iff.1 h
  have lo : -((4294967296 : ℕ) / 2 : ℤ) ≤ m.bmod 4294967296 := Int.le_bmod (by decide)
  have hi : m.bmod 4294967296 < ((4294967296 : ℕ) + 1) / 2 := Int.bmod_lt (by decide)
  unfold IsInt
  omega

/-- All white space is in front of the digits. -/
theorem not_space_of_le {c : UInt8} (h : 48 ≤ c.toNat) : isSpace c = false := by
  unfold isSpace
  rw [Bool.or_eq_false_iff, beq_eq_false_iff_ne, Bool.and_eq_false_iff, decide_eq_false_iff_not,
    decide_eq_false_iff_not, UInt8.le_iff_toNat_le, UInt8.le_iff_toNat_le]
  constructor
  · rintro rfl
    exact absurd h (by decide)
  · right
    show ¬ c.toNat ≤ 13
    omega

theorem not_space_of_isDigit {c : UInt8} (h : isDigit c = true) :
    isSpace c = false ∧ c ≠ 45 ∧ c ≠ 43 := by
  unfold isDigit at h
  rw [Bool.and_eq_true, decide_eq_true_eq, decide_eq_true_eq] at h
  have hlo : 48 ≤ c.toNat := UInt8.le_iff_toNat_le.1 h.1
  refine ⟨not_space_of_le hlo, ?_, ?_⟩
  · rintro rfl
    exact absurd hlo (by decide)
  · rintro rfl
    exact absurd hlo (by decide)

/-- A number starts with a digit, which is neither white space nor a sign. -/
theorem digits_eq_cons (n : ℕ) :
    ∃ c t, digits n = c :: t ∧ isSpace c = false ∧ c ≠ 45 ∧ c ≠ 43 := by
  obtain ⟨c, t, hc⟩ := List.exists_cons_of_ne_nil (digits_ne_nil n)
  exact ⟨c, t, hc, not_space_of_isDigit (isDigit_of_mem_digits (hc ▸ List.mem_cons_self))⟩

theorem skipSpace_digits (n : ℕ) (rest : CString) : skipSpace (digits n ++ rest) = digits n ++ rest := by
  obtain ⟨c, t, hc, space, -, -⟩ := digits_eq_cons n
  unfold skipSpace
  rw [hc, List.cons_append, List.dropWhile_cons_of_neg (by rw [space]; exact Bool.false_ne_true)]

/-- `%ld` reads what it printed. -/
theorem scanLong_decimal {n : ℤ} (range : IsLong n) {rest : CString}
    (ends : ∀ c ∈ rest.head?, isDigit c = false) : scanLong (decimal n ++ rest) = some n := by
  cases n with
  | ofNat n =>
    have printed : decimal (Int.ofNat n) = digits n := rfl
    obtain ⟨c, t, hc, -, minus, plus⟩ := digits_eq_cons n
    have read := scanDigits_digits false n ends range
    unfold scanLong
    rw [printed, skipSpace_digits]
    rw [hc, List.cons_append] at read ⊢
    split
    · rename_i h
      exact absurd (List.cons.inj h).1 minus
    · rename_i h
      exact absurd (List.cons.inj h).1 plus
    · exact read
  | negSucc n =>
    have read := scanDigits_digits true (n + 1) ends range
    exact read

/-- `%d` reads what it printed. -/
theorem scanInt_decimal {n : ℤ} (range : IsInt n) {rest : CString}
    (ends : ∀ c ∈ rest.head?, isDigit c = false) : scanInt (decimal n ++ rest) = some n := by
  obtain ⟨hlo, hhi⟩ := range
  unfold scanInt
  rw [scanLong_decimal (IsInt.isLong ⟨hlo, hhi⟩) ends, Option.map_some]
  congr 1
  exact Int.bmod_eq_of_le (by omega) (by omega)

end Stdio
