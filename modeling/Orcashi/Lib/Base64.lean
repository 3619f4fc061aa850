import Mathlib.Data.List.Basic

/-!
# Base64

Three bytes are written as four characters of six bits each, and `=` fills the last group.  The decoder
takes every group by itself.
-/

namespace Base64

/-- The character of six bits. -/
def digit (n : ℕ) : UInt8 :=
  if n < 26 then (65 + n).toUInt8
  else if n < 52 then (71 + n).toUInt8
  else if n < 62 then (n - 4).toUInt8
  else if n = 62 then 43
  else 47

/-- The six bits of a character. -/
def value (c : UInt8) : Option ℕ :=
  if 65 ≤ c ∧ c ≤ 90 then some (c.toNat - 65)
  else if 97 ≤ c ∧ c ≤ 122 then some (c.toNat - 71)
  else if 48 ≤ c ∧ c ≤ 57 then some (c.toNat + 4)
  else if c = 43 then some 62
  else if c = 47 then some 63
  else none

/-- `=` -/
def pad : UInt8 := 61

/-- The 24 bits of three bytes. -/
def bits (a b c : UInt8) : ℕ := a.toNat * 65536 + b.toNat * 256 + c.toNat

/-- Four characters of 24 bits. -/
def char₁ (n : ℕ) : UInt8 := digit (n / 262144)

/-- The second character of three bytes. -/
def char₂ (n : ℕ) : UInt8 := digit (n / 4096 % 64)

/-- The third one. -/
def char₃ (n : ℕ) : UInt8 := digit (n / 64 % 64)

/-- The fourth one. -/
def char₄ (n : ℕ) : UInt8 := digit (n % 64)

/-- The text of some bytes. -/
def encode : List UInt8 → List UInt8
  | a :: b :: c :: rest =>
    char₁ (bits a b c) :: char₂ (bits a b c) :: char₃ (bits a b c) :: char₄ (bits a b c) :: encode rest
  | [a, b] => [char₁ (bits a b 0), char₂ (bits a b 0), char₃ (bits a b 0), pad]
  | [a] => [char₁ (bits a 0 0), char₂ (bits a 0 0), pad, pad]
  | [] => []

/-- The six bits of a character that may be missing. -/
def valueOrPad (c : UInt8) : Option ℕ := if c = pad then some 0 else value c

/-- The 24 bits of four characters. -/
def number (s t u v : UInt8) : Option ℕ := do
  let s ← value s
  let t ← value t
  let u ← valueOrPad u
  let v ← valueOrPad v
  return ((s * 64 + t) * 64 + u) * 64 + v

/-- The bytes of 24 bits. -/
def bytesOf (n : ℕ) : List UInt8 := [(n / 65536).toUInt8, (n / 256 % 256).toUInt8, (n % 256).toUInt8]

/-- The bytes of four characters: three, less one for each `=`. -/
def group (s t u v : UInt8) : Option (List UInt8) :=
  (number s t u v).map fun n => (bytesOf n).take (if u = pad then 1 else if v = pad then 2 else 3)

/-- The bytes of a text, if it is one. -/
def decode : List UInt8 → Option (List UInt8)
  | s :: t :: u :: v :: rest => do
    let bytes ← group s t u v
    let others ← decode rest
    return bytes ++ others
  | [] => some []
  | _ => none

/-! ## What is written is read again -/

theorem value_digit {n : ℕ} (h : n < 64) : value (digit n) = some n ∧ digit n ≠ pad := by
  have all : ∀ n < 64, value (digit n) = some n ∧ digit n ≠ pad := by decide
  exact all n h

theorem valueOrPad_digit {n : ℕ} (h : n < 64) : valueOrPad (digit n) = some n := by
  rw [valueOrPad, if_neg (value_digit h).2, (value_digit h).1]

theorem valueOrPad_pad : valueOrPad pad = some 0 := rfl

theorem bits_lt (a b c : UInt8) : bits a b c < 16777216 := by
  have ha := a.toNat_lt
  have hb := b.toNat_lt
  have hc := c.toNat_lt
  unfold bits
  omega

theorem bytesOf_bits (a b c : UInt8) : bytesOf (bits a b c) = [a, b, c] := by
  have ha := a.toNat_lt
  have hb := b.toNat_lt
  have hc := c.toNat_lt
  have first : bits a b c / 65536 = a.toNat := by unfold bits; omega
  have second : bits a b c / 256 % 256 = b.toNat := by unfold bits; omega
  have third : bits a b c % 256 = c.toNat := by unfold bits; omega
  rw [bytesOf, first, second, third]
  simp only [Nat.toUInt8_eq, UInt8.ofNat_toNat]

theorem group_three (a b c : UInt8) :
    group (char₁ (bits a b c)) (char₂ (bits a b c)) (char₃ (bits a b c)) (char₄ (bits a b c)) =
      some [a, b, c] := by
  have small := bits_lt a b c
  have digits : number (char₁ (bits a b c)) (char₂ (bits a b c)) (char₃ (bits a b c))
      (char₄ (bits a b c)) = some (bits a b c) := by
    unfold number char₁ char₂ char₃ char₄
    rw [(value_digit (by omega)).1, (value_digit (by omega)).1, valueOrPad_digit (by omega),
      valueOrPad_digit (by omega)]
    refine congrArg some ?_
    omega
  have third : char₃ (bits a b c) ≠ pad := (value_digit (by omega)).2
  have fourth : char₄ (bits a b c) ≠ pad := (value_digit (by omega)).2
  rw [group, digits, if_neg third, if_neg fourth, Option.map_some, bytesOf_bits]
  rfl

theorem group_two (a b : UInt8) :
    group (char₁ (bits a b 0)) (char₂ (bits a b 0)) (char₃ (bits a b 0)) pad = some [a, b] := by
  have small := bits_lt a b 0
  have zero : bits a b 0 % 64 = 0 := by
    have c : (0 : UInt8).toNat = 0 := rfl
    unfold bits
    omega
  have digits : number (char₁ (bits a b 0)) (char₂ (bits a b 0)) (char₃ (bits a b 0)) pad =
      some (bits a b 0) := by
    unfold number char₁ char₂ char₃
    rw [(value_digit (by omega)).1, (value_digit (by omega)).1, valueOrPad_digit (by omega), valueOrPad_pad]
    refine congrArg some ?_
    omega
  have third : char₃ (bits a b 0) ≠ pad := (value_digit (by omega)).2
  rw [group, digits, if_neg third, if_pos rfl, Option.map_some, bytesOf_bits]
  rfl

theorem group_one (a : UInt8) : group (char₁ (bits a 0 0)) (char₂ (bits a 0 0)) pad pad = some [a] := by
  have small := bits_lt a 0 0
  have zero : bits a 0 0 % 4096 = 0 := by
    have c : (0 : UInt8).toNat = 0 := rfl
    unfold bits
    omega
  have digits : number (char₁ (bits a 0 0)) (char₂ (bits a 0 0)) pad pad = some (bits a 0 0) := by
    unfold number char₁ char₂
    rw [(value_digit (by omega)).1, (value_digit (by omega)).1, valueOrPad_pad]
    refine congrArg some ?_
    omega
  rw [group, digits, if_pos rfl, Option.map_some, bytesOf_bits]
  rfl

theorem decode_encode (bytes : List UInt8) : decode (encode bytes) = some bytes := by
  induction bytes using encode.induct with
  | case1 a b c rest ih =>
    rw [encode, decode, group_three, ih]
    rfl
  | case2 a b =>
    rw [encode, decode, group_two]
    rfl
  | case3 a =>
    rw [encode, decode, group_one]
    rfl
  | case4 => rfl

theorem length_encode (bytes : List UInt8) : (encode bytes).length = (bytes.length + 2) / 3 * 4 := by
  induction bytes using encode.induct with
  | case1 a b c rest ih =>
    rw [encode]
    simp only [List.length_cons, ih]
    omega
  | case2 a b => simp [encode]
  | case3 a => simp [encode]
  | case4 => rfl

end Base64
