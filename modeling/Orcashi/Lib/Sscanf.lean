import Mathlib.Algebra.Group.Nat.Defs
import Mathlib.Data.List.Induction
import Orcashi.Lib.Stdio

/-!
# Several conversions in one format

`sscanf` with more than one `%d` goes on where a conversion has stopped, so each conversion also has
to say what it leaves.  `atoi` is one conversion that does not say whether it failed.  Of the
numerals a number has, `printf` writes the one without a sign and without leading zeros.
-/

namespace Stdio

open CMemory

/-! ## Numerals -/

/-- Digits, the first of them not 0. -/
def IsNumeral (s : CString) : Prop := (∀ c ∈ s, isDigit c = true) ∧ s.head? ≠ some 48

theorem toNat_of_isDigit {c : UInt8} (h : isDigit c = true) : 48 ≤ c.toNat ∧ c.toNat ≤ 57 := by
  unfold isDigit at h
  rw [Bool.and_eq_true, decide_eq_true_eq, decide_eq_true_eq] at h
  exact ⟨UInt8.le_iff_toNat_le.1 h.1, UInt8.le_iff_toNat_le.1 h.2⟩

/-- The numeral of a digit is that digit. -/
theorem digits_of_isDigit {c : UInt8} (h : isDigit c = true) : digits (c.toNat - 48) = [c] := by
  obtain ⟨lo, hi⟩ := toNat_of_isDigit h
  have char : ∀ d < 10, d.digitChar.toNat = 48 + d := by decide
  have small : c.toNat - 48 < 10 := by omega
  unfold digits
  rw [Nat.toDigits_of_lt_base small, List.map_singleton, char _ small, Nat.add_sub_cancel' lo]
  simp

/-- Digits behind a numeral continue it. -/
theorem digits_append {n : ℕ} (hn : 0 < n) {s : CString} (hs : ∀ c ∈ s, isDigit c = true) :
    digits n ++ s = digits (s.foldl (fun n c => 10 * n + (c.toNat - 48)) n) := by
  induction s generalizing n with
  | nil => rw [List.append_nil, List.foldl_nil]
  | cons c s ih =>
    have digit := hs c List.mem_cons_self
    obtain ⟨lo, hi⟩ := toNat_of_isDigit digit
    have next : digits n ++ [c] = digits (10 * n + (c.toNat - 48)) := by
      rw [← digits_of_isDigit digit]
      unfold digits
      rw [← List.map_append, Nat.toDigits_append_toDigits (by decide) hn (by omega)]
    have rest := ih (n := 10 * n + (c.toNat - 48)) (by omega) fun x hx => hs x (List.mem_cons_of_mem c hx)
    calc digits n ++ c :: s = (digits n ++ [c]) ++ s := by simp
      _ = digits (10 * n + (c.toNat - 48)) ++ s := by rw [next]
      _ = _ := rest

/-- A numeral is what `printf` writes for its value. -/
theorem digits_ofDigits {s : CString} (ne : s ≠ []) (h : IsNumeral s) : digits (ofDigits s) = s := by
  obtain ⟨hs, first⟩ := h
  cases s with
  | nil => exact absurd rfl ne
  | cons c s =>
    have digit := hs c List.mem_cons_self
    obtain ⟨lo, hi⟩ := toNat_of_isDigit digit
    have positive : 0 < c.toNat - 48 := by
      have hc : c.toNat ≠ 48 := by
        intro hc
        obtain rfl : c = 48 := UInt8.toNat_inj.1 hc
        exact first rfl
      omega
    unfold ofDigits
    rw [List.foldl_cons, Nat.mul_zero, Nat.zero_add,
      ← digits_append positive fun x hx => hs x (List.mem_cons_of_mem c hx), digits_of_isDigit digit,
      List.singleton_append]

/-- The numeral of a positive number. -/
theorem isNumeral_digits {n : ℕ} (h : 0 < n) : IsNumeral (digits n) := by
  refine ⟨fun c hc => isDigit_of_mem_digits hc, ?_⟩
  induction n using Nat.strong_induction_on with
  | _ n ih =>
    by_cases small : n < 10
    · have char : ∀ d < 10, 0 < d → d.digitChar.toNat.toUInt8 ≠ 48 := by decide
      unfold digits
      rw [Nat.toDigits_of_lt_base small, List.map_singleton, List.head?_cons, ne_eq, Option.some_inj]
      exact char n small h
    · have tens := ih (n / 10) (by omega) (by omega)
      have split : digits n = digits (n / 10) ++ [(n % 10).digitChar.toNat.toUInt8] := by
        unfold digits
        rw [Nat.toDigits_of_base_le (by decide) (Nat.not_lt.1 small), List.map_append,
          List.map_singleton]
      obtain ⟨c, t, hc⟩ := List.exists_cons_of_ne_nil (digits_ne_nil (n / 10))
      rw [split, hc]
      rwa [hc] at tens

theorem length_digits_lt {n k : ℕ} (hk : 0 < k) (h : n < 10 ^ k) : (digits n).length ≤ k := by
  unfold digits
  rw [List.length_map, Nat.length_toDigits_le_iff (by decide) hk]
  exact h

theorem ofDigits_lt {s : CString} (hs : ∀ c ∈ s, isDigit c = true) : ofDigits s < 10 ^ s.length := by
  induction s using List.reverseRecOn with
  | nil => decide
  | append_singleton s c ih =>
    have digit := toNat_of_isDigit (hs c (List.mem_append_right _ (List.mem_singleton_self c)))
    have init := ih fun x hx => hs x (List.mem_append_left _ hx)
    unfold ofDigits at init ⊢
    rw [List.foldl_append, List.foldl_cons, List.foldl_nil, List.length_append, List.length_singleton,
      Nat.pow_succ]
    omega

/-! ## Conversions that go on -/

/-- What `%d` leaves of its input. -/
def afterLong (s : CString) : CString :=
  match skipSpace s with
  | 45 :: t => t.dropWhile isDigit
  | 43 :: t => t.dropWhile isDigit
  | t => t.dropWhile isDigit

/-- `atoi`; without digits it is 0. -/
def atoi (s : CString) : ℤ := (scanInt s).getD 0

/-- `"%d"` as often as there are numbers to read, with `sep` between. -/
def scanInts (sep : UInt8) : ℕ → CString → Option (List ℤ)
  | 0, _ => some []
  | 1, s => (scanInt s).map fun x => [x]
  | n + 2, s => do
    let x ← scanInt s
    let s ← scanText [sep] (afterLong s)
    let xs ← scanInts sep (n + 1) s
    return x :: xs

/-- The numbers with `sep` between. -/
def joinInts (sep : UInt8) : List ℤ → CString
  | [] => []
  | [x] => decimal x
  | x :: y :: xs => decimal x ++ sep :: joinInts sep (y :: xs)

theorem dropWhile_append_stop {p : UInt8 → Bool} {text rest : CString}
    (inside : ∀ c ∈ text, p c = true) (ends : ∀ c ∈ rest.head?, p c = false) :
    (text ++ rest).dropWhile p = rest := by
  rw [List.dropWhile_append_of_pos inside]
  cases rest with
  | nil => rfl
  | cons c rest =>
    exact List.dropWhile_cons_of_neg (by rw [ends c rfl]; exact Bool.false_ne_true)

/-- After what `printf` wrote stands what was written next. -/
theorem afterLong_decimal (n : ℤ) {rest : CString} (ends : ∀ c ∈ rest.head?, isDigit c = false) :
    afterLong (decimal n ++ rest) = rest := by
  cases n with
  | ofNat n =>
    have printed : decimal (Int.ofNat n) = digits n := rfl
    obtain ⟨c, t, hc, -, minus, plus⟩ := digits_eq_cons n
    have read : (digits n ++ rest).dropWhile isDigit = rest :=
      dropWhile_append_stop (fun c hc => isDigit_of_mem_digits hc) ends
    unfold afterLong
    rw [printed, skipSpace_digits]
    rw [hc, List.cons_append] at read ⊢
    split
    · rename_i h
      exact absurd (List.cons.inj h).1 minus
    · rename_i h
      exact absurd (List.cons.inj h).1 plus
    · exact read
  | negSucc n =>
    have inside : ∀ c ∈ digits (n + 1), isDigit c = true := fun c hc => isDigit_of_mem_digits hc
    exact dropWhile_append_stop inside ends

/-- The numbers that were printed with a separator are read again. -/
theorem scanInts_joinInts {sep : UInt8} (hsep : isDigit sep = false ∧ isSpace sep = false)
    {xs : List ℤ} (range : ∀ x ∈ xs, IsInt x) :
    scanInts sep xs.length (joinInts sep xs) = some xs := by
  induction xs with
  | nil => rfl
  | cons x xs ih =>
    have hx := range x List.mem_cons_self
    have hxs := ih fun y hy => range y (List.mem_cons_of_mem x hy)
    cases xs with
    | nil =>
      have read : scanInt (decimal x ++ []) = some x := scanInt_decimal hx (by simp)
      rw [List.append_nil] at read
      show (scanInt (decimal x)).map _ = _
      rw [read, Option.map_some]
    | cons y ys =>
      have ends : ∀ c ∈ (sep :: joinInts sep (y :: ys)).head?, isDigit c = false := by
        intro c hc
        obtain rfl := Option.some.inj hc
        exact hsep.1
      rw [List.length_cons, List.length_cons, joinInts, scanInts, scanInt_decimal hx ends,
        afterLong_decimal x ends, Option.bind_eq_bind, Option.bind_some, scanText_cons_self hsep.2,
        scanText, Option.bind_eq_bind, Option.bind_some, ← List.length_cons]
      rw [hxs]
      rfl

/-- `atoi` reads the digits in front. -/
theorem atoi_digits {n : ℕ} (h : n < 2147483648) {rest : CString}
    (ends : ∀ c ∈ rest.head?, isDigit c = false) : atoi (digits n ++ rest) = n := by
  have range : IsInt (n : ℤ) := ⟨by omega, by omega⟩
  unfold atoi
  rw [show digits n = decimal n from rfl, scanInt_decimal range ends, Option.getD_some]

/-- What `%u` printed of an `unsigned int`, `atoi` reads up to the sign: the low 32 bits are the same. -/
theorem ofInt_atoi_decimal (x : UInt32) : UInt32.ofInt (atoi (decimal x.toNat)) = x := by
  have small := x.toNat_lt
  have range : IsLong (x.toNat : ℤ) := by
    unfold IsLong longMin longMax
    omega
  have read : scanLong (decimal x.toNat ++ []) = some (x.toNat : ℤ) := scanLong_decimal range (by simp)
  rw [List.append_nil] at read
  have low : ((x.toNat : ℤ).bmod 4294967296 % 2 ^ 32).toNat = x.toNat := by
    unfold Int.bmod
    dsimp only
    split_ifs <;> omega
  unfold atoi scanInt
  rw [read, Option.map_some, Option.getD_some]
  show UInt32.ofNat _ = x
  rw [low, UInt32.ofNat_toNat]

end Stdio
