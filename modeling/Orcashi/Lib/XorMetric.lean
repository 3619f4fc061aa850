import Mathlib.Data.Nat.Bitwise
import Mathlib.Data.Nat.Size
import Mathlib.Order.Interval.Set.Defs
import Orcashi.Lib.Counter

/-!
# Numbers in bytes, bit by bit

A number of `8 n` bits is written in `n` bytes, the most significant first.  Comparing the bytes in order
compares the numbers, and the exclusive or of the bytes is that of the numbers.  Two numbers share their
first `d` bits if they are equal without the other ones; the last bit of a number that is set says which
powers of two divide it.
-/

namespace XorMetric

open Counter

section Bytes

variable {a b : List UInt8} {c : UInt8} {d k n : ℕ}

theorem value_cons (c : UInt8) (b : List UInt8) :
    value (c :: b) = c.toNat * 256 ^ b.length + value b := by
  unfold value
  rw [List.reverse_cons, List.map_append, Nat.ofDigits_append, List.length_map, List.length_reverse,
    List.map_singleton, Nat.ofDigits_singleton, Nat.add_comm, Nat.mul_comm]

theorem value_append (a b : List UInt8) : value (a ++ b) = value a * 256 ^ b.length + value b := by
  unfold value
  rw [List.reverse_append, List.map_append, Nat.ofDigits_append, List.length_map, List.length_reverse,
    Nat.add_comm, Nat.mul_comm]

/-! ## Order -/

/-- Bytes in the order of the first ones that differ. -/
def compareBytes : List UInt8 → List UInt8 → Ordering
  | a :: as, b :: bs => (compare a b).then (compareBytes as bs)
  | _, _ => .eq

theorem compare_toNat (a b : UInt8) : compare a b = compare a.toNat b.toNat := by
  simp only [compare, compareOfLessAndEq, UInt8.lt_iff_toNat_lt, ← UInt8.toNat_inj]

/-- Digits in front decide, and numbers behind them where these are equal. -/
theorem compare_mul_add {x y u v N : ℕ} (hu : u < N) (hv : v < N) :
    compare (x * N + u) (y * N + v) = (compare x y).then (compare u v) := by
  rcases Nat.lt_trichotomy x y with less | rfl | greater
  · have step : (x + 1) * N ≤ y * N := Nat.mul_le_mul_right _ less
    have sum : x * N + u < y * N + v := by
      rw [Nat.add_mul] at step
      omega
    rw [compare_lt_iff_lt.2 less, compare_lt_iff_lt.2 sum]
    rfl
  · rw [compare_eq_iff_eq.2 (rfl : x = x)]
    simp [compare, compareOfLessAndEq]
  · have step : (y + 1) * N ≤ x * N := Nat.mul_le_mul_right _ greater
    have sum : y * N + v < x * N + u := by
      rw [Nat.add_mul] at step
      omega
    rw [compare_gt_iff_gt.2 greater, compare_gt_iff_gt.2 sum]
    rfl

/-- Comparing bytes compares the numbers. -/
theorem compareBytes_eq (length : a.length = b.length) :
    compareBytes a b = compare (value a) (value b) := by
  induction a generalizing b with
  | nil =>
    obtain rfl := List.length_eq_zero_iff.1 length.symm
    exact (compare_eq_iff_eq.2 rfl).symm
  | cons x a ih =>
    obtain _ | ⟨y, b⟩ := b
    · cases length
    have rest : a.length = b.length := Nat.succ.inj length
    rw [compareBytes, ih rest, compare_toNat, value_cons, value_cons, rest]
    rw [compare_mul_add (rest ▸ value_lt a) (value_lt b)]

theorem compareBytes_eq_lt_iff (length : a.length = b.length) :
    compareBytes a b = .lt ↔ value a < value b := by
  rw [compareBytes_eq length, compare_lt_iff_lt]

theorem compareBytes_eq_gt_iff (length : a.length = b.length) :
    compareBytes a b = .gt ↔ value b < value a := by
  rw [compareBytes_eq length, compare_gt_iff_gt]

/-! ## Exclusive or -/

/-- The exclusive or, byte by byte. -/
def xorBytes (a b : List UInt8) : List UInt8 := List.zipWith (· ^^^ ·) a b

theorem length_xorBytes (length : a.length = b.length) : (xorBytes a b).length = a.length := by
  rw [xorBytes, List.length_zipWith, length, Nat.min_self]

theorem xor_mul_add {x y u v : ℕ} (hu : u < 2 ^ k) (hv : v < 2 ^ k) :
    (x * 2 ^ k + u) ^^^ (y * 2 ^ k + v) = (x ^^^ y) * 2 ^ k + (u ^^^ v) := by
  have front : ((x * 2 ^ k + u) ^^^ (y * 2 ^ k + v)) / 2 ^ k = x ^^^ y := by
    rw [Nat.xor_div_two_pow, Nat.mul_comm x, Nat.mul_comm y, Nat.mul_add_div (Nat.two_pow_pos k),
      Nat.mul_add_div (Nat.two_pow_pos k), Nat.div_eq_of_lt hu, Nat.div_eq_of_lt hv, Nat.add_zero,
      Nat.add_zero]
  have rest : ((x * 2 ^ k + u) ^^^ (y * 2 ^ k + v)) % 2 ^ k = u ^^^ v := by
    rw [Nat.xor_mod_two_pow, Nat.mul_comm x, Nat.mul_comm y, Nat.mul_add_mod, Nat.mul_add_mod,
      Nat.mod_eq_of_lt hu, Nat.mod_eq_of_lt hv]
  rw [← front, ← rest, Nat.div_add_mod']

theorem pow_256 (n : ℕ) : 256 ^ n = 2 ^ (8 * n) := by
  rw [Nat.pow_mul]

/-- The first bits, of which some are in one byte. -/
theorem value_div (front : List UInt8) (c : UInt8) (back : List UInt8) {e : ℕ} (he : e ≤ 8) :
    value (front ++ c :: back) / 2 ^ (8 * back.length + e) = value front * 2 ^ (8 - e) + c.toNat / 2 ^ e := by
  have small := value_lt back
  rw [pow_256] at small
  have split : 2 ^ (8 - e) * 2 ^ e = 2 ^ 8 := by rw [← Nat.pow_add, Nat.sub_add_cancel he]
  have whole : value (front ++ c :: back) =
      2 ^ (8 * back.length) * (c.toNat + 2 ^ e * (value front * 2 ^ (8 - e))) + value back := by
    rw [value_append, value_cons, List.length_cons, Nat.pow_succ, pow_256,
      show 2 ^ e * (value front * 2 ^ (8 - e)) = value front * (2 ^ (8 - e) * 2 ^ e) by ring, split]
    ring
  rw [whole, Nat.pow_add, ← Nat.div_div_eq_div_mul, Nat.mul_add_div (Nat.two_pow_pos _), Nat.div_eq_of_lt small,
    Nat.add_zero, Nat.add_mul_div_left _ _ (Nat.two_pow_pos _), Nat.add_comm]

/-- The exclusive or of the bytes is that of the numbers. -/
theorem value_xorBytes (length : a.length = b.length) : value (xorBytes a b) = value a ^^^ value b := by
  induction a generalizing b with
  | nil =>
    obtain rfl := List.length_eq_zero_iff.1 length.symm
    rfl
  | cons x a ih =>
    obtain _ | ⟨y, b⟩ := b
    · cases length
    have rest : a.length = b.length := Nat.succ.inj length
    have lt := value_lt a
    have lt' := value_lt b
    rw [show xorBytes (x :: a) (y :: b) = (x ^^^ y) :: xorBytes a b from rfl, value_cons, value_cons,
      value_cons, ih rest, length_xorBytes rest, UInt8.toNat_xor, ← rest]
    rw [← rest] at lt'
    rw [pow_256] at lt lt' ⊢
    exact (xor_mul_add lt lt').symm

end Bytes

/-! ## Common bits -/

section Common

variable {n u v d k : ℕ}

/-- The number of bits at the front of two numbers of `n` bits that are the same. -/
def common (n u v : ℕ) : ℕ := n - (u ^^^ v).size

/-- Two numbers are equal without their last `k` bits. -/
theorem xor_lt_two_pow_iff : u ^^^ v < 2 ^ k ↔ u / 2 ^ k = v / 2 ^ k := by
  rw [← Nat.div_eq_zero_iff_lt (Nat.two_pow_pos k), Nat.xor_div_two_pow, Nat.xor_eq_zero_iff]

theorem le_common_iff (hu : u < 2 ^ n) (hv : v < 2 ^ n) (hd : d ≤ n) :
    d ≤ common n u v ↔ u / 2 ^ (n - d) = v / 2 ^ (n - d) := by
  have small : (u ^^^ v).size ≤ n := Nat.size_le.2 (Nat.xor_lt_two_pow hu hv)
  rw [← xor_lt_two_pow_iff, ← Nat.size_le]
  unfold common
  omega

theorem common_le : common n u v ≤ n := Nat.sub_le _ _

theorem common_self : common n v v = n := by
  rw [common, Nat.xor_self, Nat.size_zero, Nat.sub_zero]

/-- One bit more. -/
theorem div_two_pow_succ (v k : ℕ) :
    v / 2 ^ k = 2 * (v / 2 ^ (k + 1)) ∨ v / 2 ^ k = 2 * (v / 2 ^ (k + 1)) + 1 := by
  rw [Nat.pow_succ, ← Nat.div_div_eq_div_mul]
  omega

/-- The numbers with the same first bits are an interval. -/
theorem div_eq_iff_mem : v / 2 ^ k = u / 2 ^ k ↔
    v ∈ Set.Ico (u / 2 ^ k * 2 ^ k) (u / 2 ^ k * 2 ^ k + 2 ^ k) := by
  rw [Nat.div_eq_iff (Nat.two_pow_pos k), Set.mem_Ico]
  have := Nat.two_pow_pos k
  omega

end Common

end XorMetric
