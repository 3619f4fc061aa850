import Mathlib.Data.Nat.Digits.Lemmas
import Mathlib.Data.Set.Function

/-!
# Counters

A number is written in bytes, the most significant one first.  To add one, the last byte is incremented,
and where a byte becomes 0 the one before it is incremented, too.  The carry of the first byte is lost, so
that the bytes count modulo a power of 256.  Steps that count modulo `N` do not come back to a value
before the `N`-th.
-/

namespace Counter

/-! ## Numbers in bytes -/

/-- The number that is written in these bytes, the most significant first. -/
def value (b : List UInt8) : ℕ := Nat.ofDigits 256 (b.reverse.map UInt8.toNat)

/-- One more, the least significant byte first. -/
def succ : List UInt8 → List UInt8
  | [] => []
  | d :: l => if d + 1 = 0 then 0 :: succ l else (d + 1) :: l

/-- The bytes of the next number. -/
def next (b : List UInt8) : List UInt8 := (succ b.reverse).reverse

example : value [1, 255] = 511 ∧ next [1, 255] = [2, 0] ∧ next [255, 255] = [0, 0] := by decide

section Bytes

variable {b b' : List UInt8} {d : UInt8}

theorem digit_lt (l : List UInt8) : ∀ x ∈ l.map UInt8.toNat, x < 256 := by
  intro x mem
  obtain ⟨d, -, rfl⟩ := List.mem_map.1 mem
  exact d.toNat_lt

theorem value_lt (b : List UInt8) : value b < 256 ^ b.length := by
  have h := Nat.ofDigits_lt_base_pow_length (by decide : 1 < 256) (digit_lt b.reverse)
  rwa [List.length_map, List.length_reverse] at h

/-- Numbers of one length are written in one way. -/
theorem value_inj (length : b.length = b'.length) : value b = value b' ↔ b = b' := by
  refine ⟨fun h => ?_, fun h => by rw [h]⟩
  have digits : b.reverse.map UInt8.toNat = b'.reverse.map UInt8.toNat :=
    Nat.ofDigits_inj_of_len_eq (by decide) (by simpa using length) (digit_lt _) (digit_lt _) h
  exact List.reverse_injective (List.map_injective_iff.2 (fun _ _ => UInt8.toNat_inj.1) digits)

theorem length_succ (l : List UInt8) : (succ l).length = l.length := by
  induction l with
  | nil => rfl
  | cons d l ih =>
    rw [succ]
    split_ifs
    · rw [List.length_cons, ih, List.length_cons]
    · rfl

theorem length_next (b : List UInt8) : (next b).length = b.length := by
  rw [next, List.length_reverse, length_succ, List.length_reverse]

/-- The carry goes on where a byte was 255. -/
theorem toNat_succ : d.toNat = 255 ∧ d + 1 = 0 ∨ (d + 1).toNat = d.toNat + 1 ∧ d + 1 ≠ 0 := by
  have small := d.toNat_lt
  have sum : (d + 1).toNat = (d.toNat + 1) % 256 := UInt8.toNat_add d 1
  have zero : d + 1 = 0 ↔ (d + 1).toNat = 0 := UInt8.toNat_inj.symm
  by_cases last : d.toNat = 255
  · exact Or.inl ⟨last, zero.2 (by omega)⟩
  · exact Or.inr ⟨by omega, fun h => by have := zero.1 h; omega⟩

theorem ofDigits_succ (l : List UInt8) : Nat.ofDigits 256 ((succ l).map UInt8.toNat) =
    (Nat.ofDigits 256 (l.map UInt8.toNat) + 1) % 256 ^ l.length := by
  induction l with
  | nil => rfl
  | cons d l ih =>
    have small := Nat.ofDigits_lt_base_pow_length (by decide : 1 < 256) (digit_lt l)
    rw [List.length_map] at small
    rw [succ, List.length_cons, Nat.pow_succ', List.map_cons, Nat.ofDigits_cons]
    rcases toNat_succ with ⟨last, carry⟩ | ⟨sum, stop⟩
    · rw [if_pos carry, List.map_cons, Nat.ofDigits_cons, ih, ← Nat.mul_mod_mul_left, last,
        UInt8.toNat_zero, Nat.zero_add]
      congr 1
      omega
    · have := (d + 1).toNat_lt
      rw [if_neg stop, List.map_cons, Nat.ofDigits_cons, sum, Nat.mod_eq_of_lt (by omega)]
      omega

theorem value_next (b : List UInt8) : value (next b) = (value b + 1) % 256 ^ b.length := by
  rw [value, next, List.reverse_reverse, ofDigits_succ, List.length_reverse, value]

end Bytes

/-! ## Counting -/

section Steps

variable {α : Type*} {f : α → α} {count : α → ℕ} {N : ℕ}

theorem count_iterate (step : ∀ x, count (f x) = (count x + 1) % N) (k : ℕ) (x : α) :
    count (f^[k] x) ≡ count x + k [MOD N] := by
  induction k with
  | zero => rfl
  | succ k ih =>
    rw [Function.iterate_succ_apply', step]
    exact (Nat.mod_modEq _ N).trans (ih.add_right 1)

/-- Fewer than `N` steps do not come back. -/
theorem injOn_iterate (step : ∀ x, count (f x) = (count x + 1) % N) (x : α) :
    Set.InjOn (fun k => f^[k] x) {k | k < N} := by
  intro i hi j hj same
  have reached := count_iterate step i x
  rw [show f^[i] x = f^[j] x from same] at reached
  have counts : count x + i ≡ count x + j [MOD N] := reached.symm.trans (count_iterate step j x)
  exact (counts.add_left_cancel' (count x)).eq_of_lt_of_lt hi hj

/-- `N` steps do. -/
theorem iterate_eq_self (step : ∀ x, count (f x) = (count x + 1) % N) (small : ∀ x, count x < N)
    (inj : Function.Injective count) (x : α) : f^[N] x = x := by
  refine inj (Nat.ModEq.eq_of_lt_of_lt ?_ (small _) (small x))
  exact (count_iterate step N x).trans (Nat.add_modEq_right)

end Steps

end Counter
