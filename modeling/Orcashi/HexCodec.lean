import Orcashi.Identity.Passcode

/-!
# The hexadecimal codec

Keys, salts, nonces and tags are kept as hexadecimal text.  `orca_bytes_to_hex` prints two digits for each
byte.  `orca_hex_to_bytes` compares the length and then gives every two characters to `strtol`, whose
language is wider than two digits: white space or a sign may stand in place of the first.
-/

namespace Orcashi

/-- `tolower` -/
def tolower (c : UInt8) : UInt8 := if 65 ≤ c ∧ c ≤ 90 then c + 32 else c

/-- What `strtol` passes over before the digits: a sign, or white space. -/
def Skipped (c : UInt8) : Prop := c = 45 ∨ c = 43 ∨ c = 32 ∨ (9 ≤ c ∧ c ≤ 13)

instance : DecidablePred Skipped := fun _ => inferInstanceAs (Decidable (_ ∨ _))

/-- A hexadecimal digit. -/
def IsHex (c : UInt8) : Prop := (hexDigit c).isSome

instance : DecidablePred IsHex := fun _ => inferInstanceAs (Decidable (_ = true))

/-- The texts of two characters that the loop of `orca_hex_to_bytes` goes through. -/
def pairsOf : CString → List (UInt8 × UInt8)
  | a :: b :: s => (a, b) :: pairsOf s
  | _ => []

/-- `hex` consists of exactly two digits for each of `len` bytes. -/
def HexText (hex : CString) (len : ℕ) : Prop := hex.length = len * 2 ∧ ∀ c ∈ hex, IsHex c

/-- Digits are what is accepted, and they come back in lower case. -/
structure ReadsHex (hex : CString) (len : ℕ) : Prop where
  accepts : (orcaHexToBytes hex len).isSome ↔ HexText hex len
  again (bytes : Bytes) : HexText hex len → orcaHexToBytes hex len = some bytes →
    orcaBytesToHex bytes = hex.map tolower

/-- The text has the length, every second character of a pair is a digit and every first one a digit or
skipped, and one is skipped. -/
def Lenient (hex : CString) (len : ℕ) : Prop :=
  hex.length = len * 2 ∧ (∀ p ∈ pairsOf hex, (IsHex p.1 ∨ Skipped p.1) ∧ IsHex p.2) ∧
    ∃ p ∈ pairsOf hex, Skipped p.1

/-! ## One pair -/

/-- A digit is printed as it was, in lower case, and is not skipped. -/
theorem hexDigit_eq_some {c x : UInt8} (h : hexDigit c = some x) :
    x.toNat < 16 ∧ hexChar x.toNat = tolower c ∧ ¬ Skipped c := by
  have all : ∀ n < 256, (hexDigit n.toUInt8).all (fun y => decide
      (y.toNat < 16 ∧ hexChar y.toNat = tolower n.toUInt8 ∧ ¬ Skipped n.toUInt8)) = true := by
    decide +kernel
  have small := c.toNat_lt
  have back : c.toNat.toUInt8 = c := by rw [Nat.toUInt8_eq, UInt8.ofNat_toNat]
  rw [← back] at h ⊢
  have here := all c.toNat small
  rw [h, Option.all_some] at here
  exact of_decide_eq_true here

theorem not_skipped {c : UInt8} (h : IsHex c) : ¬ Skipped c := by
  obtain ⟨x, digit⟩ := Option.isSome_iff_exists.1 h
  exact (hexDigit_eq_some digit).2.2

/-- The language of `strtol` on two characters. -/
theorem strtolPair_isSome (a b : UInt8) :
    (strtolPair a b).isSome ↔ (IsHex a ∨ Skipped a) ∧ IsHex b := by
  unfold strtolPair IsHex
  cases digit : hexDigit b with
  | none => cases hexDigit a <;> simp
  | some y =>
    cases hexDigit a with
    | some x => simp
    | none =>
      dsimp only
      by_cases minus : a = 45
      · simp [minus, Skipped]
      · by_cases skipped : a = 43 ∨ a = 32 ∨ (9 ≤ a ∧ a ≤ 13)
        · rw [if_neg minus, if_pos skipped]
          simp [Skipped, skipped]
        · rw [if_neg minus, if_neg skipped]
          simp [Skipped, minus, skipped]

/-- Two digits, read and printed. -/
theorem byteHex_strtolPair {a b x : UInt8} (ha : IsHex a) (hb : IsHex b) (h : strtolPair a b = some x) :
    byteHex x = [tolower a, tolower b] := by
  obtain ⟨u, high⟩ := Option.isSome_iff_exists.1 ha
  obtain ⟨v, low⟩ := Option.isSome_iff_exists.1 hb
  obtain ⟨small, printed, -⟩ := hexDigit_eq_some high
  obtain ⟨small', printed', -⟩ := hexDigit_eq_some low
  have value : 16 * u + v = x := by
    unfold strtolPair at h
    rw [high, low] at h
    exact Option.some.inj h
  have sixteen : (16 : UInt8).toNat = 16 := rfl
  have number : x.toNat = 16 * u.toNat + v.toNat := by
    rw [← value, UInt8.toNat_add, UInt8.toNat_mul, sixteen]
    omega
  have div : x.toNat / 16 = u.toNat := by omega
  have mod : x.toNat % 16 = v.toNat := by omega
  rw [byteHex, div, mod, printed, printed']

/-! ## All pairs -/

theorem hexPairs_cons (a b : UInt8) (s : CString) : hexPairs (a :: b :: s) =
    (strtolPair a b).bind fun x => (hexPairs s).map (x :: ·) := by
  rw [hexPairs]
  cases strtolPair a b <;> cases hexPairs s <;> rfl

/-- The texts the loop accepts. -/
theorem hexPairs_isSome (s : CString) : (hexPairs s).isSome ↔
    s.length % 2 = 0 ∧ ∀ p ∈ pairsOf s, (IsHex p.1 ∨ Skipped p.1) ∧ IsHex p.2 := by
  induction s using hexPairs.induct with
  | case1 a b s ih =>
    have pair := strtolPair_isSome a b
    have even : (a :: b :: s).length % 2 = 0 ↔ s.length % 2 = 0 := by
      simp only [List.length_cons]
      omega
    rw [hexPairs_cons, pairsOf, List.forall_mem_cons, even]
    cases first : strtolPair a b with
    | none =>
      rw [first] at pair
      simp only [Option.bind_none, Option.isSome_none, Bool.false_eq_true, false_iff] at pair ⊢
      exact fun h => pair h.2.1
    | some x =>
      rw [first] at pair
      rw [Option.bind_some, Option.isSome_map, ih]
      exact ⟨fun h => ⟨h.1, pair.1 rfl, h.2⟩, fun h => ⟨h.1, h.2.2⟩⟩
  | case2 => simp [hexPairs, pairsOf]
  | case3 a => simp [hexPairs, pairsOf]

/-- The characters of a text of even length are those of its pairs. -/
theorem forall_mem_iff_pairs {P : UInt8 → Prop} {s : CString} (even : s.length % 2 = 0) :
    (∀ c ∈ s, P c) ↔ ∀ p ∈ pairsOf s, P p.1 ∧ P p.2 := by
  induction s using hexPairs.induct with
  | case1 a b s ih =>
    have even' : s.length % 2 = 0 := by
      simp only [List.length_cons] at even
      omega
    rw [pairsOf, List.forall_mem_cons, List.forall_mem_cons, List.forall_mem_cons, ih even', and_assoc]
  | case2 => simp [pairsOf]
  | case3 a => exact absurd even (by simp)

/-- Digits, read and printed. -/
theorem orcaBytesToHex_hexPairs {s : CString} {bytes : Bytes} (digits : ∀ c ∈ s, IsHex c)
    (h : hexPairs s = some bytes) : orcaBytesToHex bytes = s.map tolower := by
  induction s using hexPairs.induct generalizing bytes with
  | case1 a b s ih =>
    rw [List.forall_mem_cons, List.forall_mem_cons] at digits
    obtain ⟨ha, hb, rest⟩ := digits
    rw [hexPairs_cons] at h
    obtain ⟨x, first, h⟩ := Option.bind_eq_some_iff.1 h
    obtain ⟨xs, others, rfl⟩ := Option.map_eq_some_iff.1 h
    have cons : orcaBytesToHex (x :: xs) = byteHex x ++ orcaBytesToHex xs := List.flatMap_cons
    rw [cons, byteHex_strtolPair ha hb first, ih rest others]
    rfl
  | case2 =>
    cases h
    rfl
  | case3 a => cases h

/-! ## Both directions -/

theorem orcaHexToBytes_isSome (hex : CString) (len : ℕ) : (orcaHexToBytes hex len).isSome ↔
    hex.length = len * 2 ∧ ∀ p ∈ pairsOf hex, (IsHex p.1 ∨ Skipped p.1) ∧ IsHex p.2 := by
  unfold orcaHexToBytes
  by_cases length : hex.length = len * 2
  · rw [if_pos length, hexPairs_isSome]
    exact ⟨fun h => ⟨length, h.2⟩, fun h => ⟨by omega, h.2⟩⟩
  · rw [if_neg length]
    exact ⟨fun h => (by cases h), fun h => absurd h.1 length⟩

theorem readsHex_iff (hex : CString) (len : ℕ) : ReadsHex hex len ↔ ¬ Lenient hex len := by
  constructor
  · rintro reads ⟨length, pairs, p, mem, skipped⟩
    have accepted := (orcaHexToBytes_isSome hex len).2 ⟨length, pairs⟩
    have digits := (reads.accepts.1 accepted).2
    have first := ((forall_mem_iff_pairs (by omega)).1 digits p mem).1
    exact not_skipped first skipped
  · intro strict
    refine ⟨?_, fun bytes text read => ?_⟩
    · rw [orcaHexToBytes_isSome, HexText]
      refine and_congr_right fun length => ?_
      rw [forall_mem_iff_pairs (by omega)]
      constructor
      · intro pairs p mem
        have pair := pairs p mem
        refine ⟨pair.1.resolve_right fun skipped => ?_, pair.2⟩
        exact strict ⟨length, pairs, p, mem, skipped⟩
      · exact fun digits p mem => ⟨Or.inl (digits p mem).1, (digits p mem).2⟩
    · unfold orcaHexToBytes at read
      rw [if_pos text.1] at read
      exact orcaBytesToHex_hexPairs text.2 read

/-- What is printed is read again, and a text is read as the digits it consists of exactly if no sign and no
white space stands for a digit. -/
theorem hex_codec_iff (bytes : Bytes) (hex : CString) (len : ℕ) :
    orcaHexToBytes (orcaBytesToHex bytes) bytes.length = some bytes ∧
      (ReadsHex hex len ↔ ¬ Lenient hex len) :=
  ⟨orcaHexToBytes_orcaBytesToHex rfl, readsHex_iff hex len⟩

/-- `"-5"` is accepted for one byte. -/
theorem minus_five_accepted :
    orcaHexToBytes (CMemory.ascii "-5") 1 = some [0xfb] ∧ ¬ HexText (CMemory.ascii "-5") 1 ∧
      ¬ ReadsHex (CMemory.ascii "-5") 1 := by
  have read : orcaHexToBytes (CMemory.ascii "-5") 1 = some [0xfb] := by decide
  have minus : ¬ HexText (CMemory.ascii "-5") 1 := fun text => absurd (text.2 45 (by decide)) (by decide)
  refine ⟨read, minus, fun reads => minus (reads.accepts.1 ?_)⟩
  rw [read]
  rfl

end Orcashi
