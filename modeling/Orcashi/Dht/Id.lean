import Orcashi.Lib.CMemory
import Orcashi.Lib.XorMetric

/-!
# Ids of the DHT

An id is 20 bytes.  The routing table and the searches look at ids in three ways: in the order of `memcmp`,
by the number of bits at their front that they share with another id, and by their distance from an id,
which is the exclusive or of the two.  All three are said here of the numbers that the bytes stand for.
-/

namespace Orcashi

open Counter XorMetric

/-! ## The code -/

/-- An id of 20 bytes. -/
abbrev DhtId := { b : Bytes // b.length = 20 }

/-- `zeroes` -/
def DhtId.zeroes : DhtId := ⟨List.replicate 20 0, rfl⟩

/-- The sign of `memcmp(id1, id2, 20)`. -/
def idCmp (id1 id2 : DhtId) : Ordering := compareBytes id1.val id2.val

/-- The last of the first `i` bytes that is not 0. -/
def lowByte (id : Bytes) : ℕ → Option ℕ
  | 0 => none
  | i + 1 => if id.getD i 0 ≠ 0 then some i else lowByte id i

/-- The last of the first `j` bits that is set, or -1. -/
def lowBitOf (c : UInt8) : ℕ → ℤ
  | 0 => -1
  | j + 1 => if c &&& (0x80 >>> j.toUInt8) ≠ 0 then j else lowBitOf c j

/-- `lowbit` on any number of bytes. -/
def lowbitIn (id : Bytes) : ℤ :=
  match lowByte id id.length with
  | none => -1
  | some i => 8 * i + lowBitOf (id.getD i 0) 8

/-- `lowbit`: the position of the last bit that is set, or -1. -/
def lowbit (id : DhtId) : ℤ := lowbitIn id.val

/-- The loop of `common_bits` over one byte; no byte that is not 0 needs more than `k = 7`. -/
def leadingZeros : ℕ → UInt8 → ℕ
  | 0, _ => 0
  | k + 1, xor => if xor &&& 0x80 = 0 then leadingZeros k (xor <<< 1) + 1 else 0

/-- `common_bits` on any number of bytes. -/
def commonBitsIn : Bytes → Bytes → ℕ
  | a :: as, b :: bs => if a ≠ b then leadingZeros 8 (a ^^^ b) else commonBitsIn as bs + 8
  | _, _ => 0

/-- `common_bits`: how many leading bits two ids share. -/
def commonBits (id1 id2 : DhtId) : ℕ := commonBitsIn id1.val id2.val

/-- `id[bit / 8] |= 0x80 >> (bit % 8)` -/
def setBit (id : DhtId) (bit : ℕ) : DhtId :=
  ⟨id.val.modify (bit / 8) fun c => c ||| (0x80 >>> (bit % 8).toUInt8),
    (List.length_modify ..).trans id.property⟩

/-- `xorcmp` on any number of bytes. -/
def xorcmpIn : Bytes → Bytes → Bytes → Ordering
  | a :: as, b :: bs, r :: rs =>
    if a = b then xorcmpIn as bs rs else if a ^^^ r < b ^^^ r then .lt else .gt
  | _, _, _ => .eq

/-- The sign of `xorcmp`. -/
def xorcmp (id1 id2 ref : DhtId) : Ordering := xorcmpIn id1.val id2.val ref.val

/-! ## Numbers -/

namespace DhtId

variable {x y z me : DhtId} {d k : ℕ}

/-- An id as a number. -/
def number (x : DhtId) : ℕ := value x.val

theorem number_lt (x : DhtId) : x.number < 2 ^ 160 := by
  have h := value_lt x.val
  rwa [x.property, show 256 ^ 20 = 2 ^ 160 from rfl] at h

theorem number_inj : x.number = y.number ↔ x = y :=
  (value_inj (x.property.trans y.property.symm)).trans Subtype.ext_iff.symm

/-- The distance of two ids. -/
def dist (x y : DhtId) : ℕ := x.number ^^^ y.number

theorem dist_inj : dist x z = dist y z ↔ x = y := by
  rw [← number_inj]
  exact Nat.xor_left_inj

end DhtId

section Order

variable {x y z : DhtId}

theorem length_eq (x y : DhtId) : x.val.length = y.val.length := x.property.trans y.property.symm

theorem idCmp_eq_lt_iff : idCmp x y = .lt ↔ x.number < y.number :=
  compareBytes_eq_lt_iff (length_eq x y)

theorem idCmp_eq_gt_iff : idCmp x y = .gt ↔ y.number < x.number :=
  compareBytes_eq_gt_iff (length_eq x y)

theorem xorcmpIn_eq {a b r : Bytes} (ha : a.length = r.length) (hb : b.length = r.length) :
    xorcmpIn a b r = compareBytes (xorBytes a r) (xorBytes b r) := by
  induction r generalizing a b with
  | nil =>
    obtain rfl := List.length_eq_zero_iff.1 ha
    obtain rfl := List.length_eq_zero_iff.1 hb
    rfl
  | cons c r ih =>
    obtain _ | ⟨u, a⟩ := a
    · cases ha
    obtain _ | ⟨v, b⟩ := b
    · cases hb
    have rest := ih (Nat.succ.inj ha) (Nat.succ.inj hb)
    show (if u = v then xorcmpIn a b r else if u ^^^ c < v ^^^ c then .lt else .gt) =
      (compare (u ^^^ c) (v ^^^ c)).then (compareBytes (xorBytes a r) (xorBytes b r))
    by_cases same : u = v
    · rw [if_pos same, same, rest]
      simp [compare, compareOfLessAndEq]
    · have other : u ^^^ c ≠ v ^^^ c := fun h => same ((UInt8.xor_left_inj c).1 h)
      rw [if_neg same]
      by_cases less : u ^^^ c < v ^^^ c
      · simp [compare, compareOfLessAndEq, less]
      · simp [compare, compareOfLessAndEq, less, other]

/-- `xorcmp` compares the distances from `ref`. -/
theorem xorcmp_eq (x y ref : DhtId) : xorcmp x y ref = compare (x.dist ref) (y.dist ref) := by
  unfold xorcmp DhtId.dist DhtId.number
  rw [xorcmpIn_eq (length_eq x ref) (length_eq y ref), compareBytes_eq, value_xorBytes (length_eq x ref),
    value_xorBytes (length_eq y ref)]
  rw [length_xorBytes (length_eq x ref), length_xorBytes (length_eq y ref), length_eq x y]

theorem xorcmp_eq_lt_iff : xorcmp x y z = .lt ↔ x.dist z < y.dist z := by
  rw [xorcmp_eq, compare_lt_iff_lt]

end Order

/-! ## Bits -/

section Bits

variable {c : UInt8} {d n : ℕ}

theorem le_leadingZeros_byte : ∀ n < 256, n ≠ 0 → ∀ d ≤ 8,
    (d ≤ leadingZeros 8 (UInt8.ofNat n) ↔ n < 2 ^ (8 - d)) := by decide +kernel

theorem le_leadingZeros_iff (nonzero : c ≠ 0) (hd : d ≤ 8) :
    d ≤ leadingZeros 8 c ↔ c.toNat < 2 ^ (8 - d) := by
  have h := le_leadingZeros_byte c.toNat c.toNat_lt (fun h => nonzero (UInt8.toNat_inj.1 h)) d hd
  rwa [UInt8.ofNat_toNat] at h

theorem lowBitOf_lt_byte : ∀ n < 256, n ≠ 0 → ∀ d : ℕ, d ≤ 8 →
    (lowBitOf (UInt8.ofNat n) 8 < (d : ℤ) ↔ 2 ^ (8 - d) ∣ n) := by decide +kernel

theorem lowBitOf_lt_iff (nonzero : c ≠ 0) (hd : d ≤ 8) :
    lowBitOf c 8 < (d : ℤ) ↔ 2 ^ (8 - d) ∣ c.toNat := by
  have h := lowBitOf_lt_byte c.toNat c.toNat_lt (fun h => nonzero (UInt8.toNat_inj.1 h)) d hd
  rwa [UInt8.ofNat_toNat] at h

theorem xorBytes_cons (x y : UInt8) (a b : Bytes) :
    xorBytes (x :: a) (y :: b) = (x ^^^ y) :: xorBytes a b := rfl

/-- Digits behind the first one do not matter where only bits of the first are asked for. -/
theorem mul_add_lt_two_pow_iff {x u k m : ℕ} (hu : u < 2 ^ k) :
    x * 2 ^ k + u < 2 ^ (k + m) ↔ x < 2 ^ m := by
  rw [Nat.pow_add, Nat.mul_comm (2 ^ k)]
  constructor
  · intro sum
    exact Nat.lt_of_mul_lt_mul_right (Nat.lt_of_le_of_lt (Nat.le_add_right _ u) sum)
  · intro front
    have step : (x + 1) * 2 ^ k ≤ 2 ^ m * 2 ^ k := Nat.mul_le_mul_right _ front
    rw [Nat.add_mul] at step
    omega

theorem le_commonBitsIn_iff {a b : Bytes} (length : a.length = b.length) (hd : d ≤ 8 * a.length) :
    d ≤ commonBitsIn a b ↔ value (xorBytes a b) < 2 ^ (8 * a.length - d) := by
  induction a generalizing b d with
  | nil =>
    obtain rfl := List.length_eq_zero_iff.1 length.symm
    obtain rfl : d = 0 := by simpa using hd
    exact iff_of_true (Nat.le_refl 0) (by decide)
  | cons x a ih =>
    obtain _ | ⟨y, b⟩ := b
    · cases length
    have rest : a.length = b.length := Nat.succ.inj length
    rw [List.length_cons] at hd
    have small : value (xorBytes a b) < 2 ^ (8 * a.length) := by
      have h := value_lt (xorBytes a b)
      rwa [length_xorBytes rest, pow_256] at h
    rw [xorBytes_cons, value_cons, length_xorBytes rest, pow_256, List.length_cons]
    show d ≤ (if x ≠ y then leadingZeros 8 (x ^^^ y) else commonBitsIn a b + 8) ↔ _
    by_cases same : x = y
    · rw [if_neg (not_not.2 same), same, UInt8.xor_self, UInt8.toNat_zero, Nat.zero_mul, Nat.zero_add]
      by_cases front : d ≤ 8
      · have enough : 2 ^ (8 * a.length) ≤ 2 ^ (8 * (a.length + 1) - d) :=
          Nat.pow_le_pow_right (by decide) (by omega)
        exact iff_of_true (by omega) (by omega)
      · rw [← Nat.sub_le_iff_le_add, ih rest (by omega)]
        rw [show 8 * a.length - (d - 8) = 8 * (a.length + 1) - d by omega]
    · have nonzero : x ^^^ y ≠ 0 := fun h => same (UInt8.xor_eq_zero_iff.1 h)
      have positive : (x ^^^ y).toNat ≠ 0 := fun h => nonzero (UInt8.toNat_inj.1 h)
      rw [if_pos same]
      by_cases front : d ≤ 8
      · rw [show 8 * (a.length + 1) - d = 8 * a.length + (8 - d) by omega,
          mul_add_lt_two_pow_iff small, le_leadingZeros_iff nonzero front]
      · have few := mt (le_leadingZeros_iff nonzero (Nat.le_refl 8)).1 (by simpa using positive)
        have less : 2 ^ (8 * (a.length + 1) - d) ≤ 2 ^ (8 * a.length) :=
          Nat.pow_le_pow_right (by decide) (by omega)
        have large : 2 ^ (8 * a.length) ≤ (x ^^^ y).toNat * 2 ^ (8 * a.length) :=
          Nat.le_mul_of_pos_left _ (Nat.pos_of_ne_zero positive)
        exact iff_of_false (by omega) (by omega)

theorem lowByte_append (front : Bytes) (c : UInt8) {i : ℕ} (hi : i ≤ front.length) :
    lowByte (front ++ [c]) i = lowByte front i := by
  induction i with
  | zero => rfl
  | succ i ih =>
    rw [lowByte, lowByte, ih (by omega), CMemory.getD_append_front (by omega)]

theorem lowByte_lt {id : Bytes} {i : ℕ} (h : lowByte id n = some i) : i < n := by
  induction n with
  | zero => cases h
  | succ n ih =>
    rw [lowByte] at h
    split_ifs at h
    · obtain rfl := Option.some.inj h
      exact Nat.lt_succ_self _
    · exact Nat.lt_succ_of_lt (ih h)

theorem lowBitOf_lt (c : UInt8) (j : ℕ) : -1 ≤ lowBitOf c j ∧ lowBitOf c j < (j : ℤ) := by
  induction j with
  | zero => exact ⟨Int.le_refl _, Int.negSucc_lt_zero 0⟩
  | succ j ih =>
    rw [lowBitOf]
    split_ifs <;> omega

theorem lowbitIn_append_zero (front : Bytes) : lowbitIn (front ++ [0]) = lowbitIn front := by
  unfold lowbitIn
  rw [List.length_append, List.length_singleton, lowByte, if_neg, lowByte_append _ _ (Nat.le_refl _)]
  · cases found : lowByte front front.length with
    | none => rfl
    | some i =>
      dsimp only
      rw [CMemory.getD_append_front (lowByte_lt found)]
  · rw [List.getD_append_right _ _ _ _ (Nat.le_refl _), Nat.sub_self]
    exact not_not.2 rfl

theorem lowbitIn_append (front : Bytes) (nonzero : c ≠ 0) :
    lowbitIn (front ++ [c]) = 8 * front.length + lowBitOf c 8 := by
  have last : (front ++ [c]).getD front.length 0 = c := by
    rw [List.getD_append_right _ _ _ _ (Nat.le_refl _), Nat.sub_self]
    rfl
  unfold lowbitIn
  rw [List.length_append, List.length_singleton, lowByte, last, if_pos nonzero]
  dsimp only
  rw [last]

theorem lowbitIn_lt (id : Bytes) : -1 ≤ lowbitIn id ∧ lowbitIn id < 8 * id.length := by
  unfold lowbitIn
  cases found : lowByte id id.length with
  | none => exact ⟨Int.le_refl _, Int.lt_of_lt_of_le (Int.negSucc_lt_zero 0) (by omega)⟩
  | some i =>
    have inside := lowByte_lt found
    have bit := lowBitOf_lt (id.getD i 0) 8
    dsimp only
    omega

/-- The last bit that is set, in terms of the powers of two that divide the number. -/
theorem lowbitIn_lt_iff (id : Bytes) (hd : d ≤ 8 * id.length) :
    lowbitIn id < (d : ℤ) ↔ 2 ^ (8 * id.length - d) ∣ value id := by
  induction id using List.reverseRecOn generalizing d with
  | nil => exact iff_of_true (by have := (lowbitIn_lt []).2; simp at this; omega) (Dvd.intro 0 rfl)
  | append_singleton front c ih =>
    rw [List.length_append, List.length_singleton] at hd ⊢
    have split : value (front ++ [c]) = value front * 2 ^ 8 + c.toNat := by
      rw [value_append]
      simp [value]
    rw [split]
    by_cases zero : c = 0
    · have shifted : value front * 2 ^ 8 + c.toNat = value front * 2 ^ 8 := by
        simp [zero]
      rw [shifted, zero, lowbitIn_append_zero]
      by_cases inside : d ≤ 8 * front.length
      · rw [ih inside, show 8 * (front.length + 1) - d = 8 * front.length - d + 8 by omega, Nat.pow_add,
          Nat.mul_dvd_mul_iff_right (Nat.two_pow_pos 8)]
      · have low := (lowbitIn_lt front).2
        refine iff_of_true (by omega) (Dvd.dvd.mul_left (Nat.pow_dvd_pow 2 (by omega)) _)
    · have bit := lowBitOf_lt c 8
      rw [lowbitIn_append front zero]
      by_cases inside : d ≤ 8 * front.length
      · refine iff_of_false ?_ ?_
        · have none := mt (lowBitOf_lt_iff zero (Nat.zero_le 8)).1 (by
            intro divides
            have := Nat.le_of_dvd (Nat.pos_of_ne_zero fun h => zero (UInt8.toNat_inj.1 h)) divides
            have := c.toNat_lt
            omega)
          omega
        · intro divides
          have byte : 2 ^ 8 ∣ value front * 2 ^ 8 + c.toNat :=
            (Nat.pow_dvd_pow 2 (by omega)).trans divides
          have := Nat.le_of_dvd (Nat.pos_of_ne_zero fun h => zero (UInt8.toNat_inj.1 h))
            ((Nat.dvd_add_right (Dvd.intro_left _ rfl)).1 byte)
          have := c.toNat_lt
          omega
      · obtain ⟨e, rfl⟩ := Nat.exists_eq_add_of_lt (Nat.lt_of_not_le inside)
        have small : e + 1 ≤ 8 := by omega
        have bits := lowBitOf_lt_iff zero small
        rw [show 8 * (front.length + 1) - (8 * front.length + e + 1) = 8 - (e + 1) by omega,
          Nat.dvd_add_right (Dvd.dvd.mul_left (Nat.pow_dvd_pow 2 (by omega)) _), ← bits]
        push_cast
        omega

theorem or_bit_byte : ∀ n < 256, ∀ j < 8, 2 ^ (8 - j) ∣ n →
    (UInt8.ofNat n ||| (0x80 >>> j.toUInt8)).toNat = n + 2 ^ (7 - j) := by decide +kernel

theorem modify_append {α : Type*} (front : List α) (c : α) (back : List α) (f : α → α) :
    (front ++ c :: back).modify front.length f = front ++ f c :: back := by
  induction front with
  | nil => rfl
  | cons x front ih => exact congrArg (x :: ·) ih

theorem value_modify_or (id : Bytes) {bit : ℕ} (inside : bit < 8 * id.length)
    (divides : 2 ^ (8 * id.length - bit) ∣ value id) :
    value (id.modify (bit / 8) fun c => c ||| (0x80 >>> (bit % 8).toUInt8)) =
      value id + 2 ^ (8 * id.length - 1 - bit) := by
  have place : bit / 8 < id.length := by omega
  obtain ⟨front, c, back, rfl, at_⟩ : ∃ front c back, id = front ++ c :: back ∧ front.length = bit / 8 :=
    ⟨id.take (bit / 8), id[bit / 8], id.drop (bit / 8 + 1),
      by rw [List.cons_getElem_drop_succ, List.take_append_drop], List.length_take_of_le place.le⟩
  have value_eq (c : UInt8) : value (front ++ c :: back) =
      (value front * 2 ^ 8 + c.toNat) * 2 ^ (8 * back.length) + value back := by
    rw [value_append, value_cons, List.length_cons, Nat.pow_succ, pow_256]
    ring
  have width : 8 * (front ++ c :: back).length - bit = 8 * back.length + (8 - bit % 8) := by
    rw [List.length_append, List.length_cons]
    omega
  rw [width, value_eq] at divides
  have rest : 2 ^ (8 * back.length) ∣ value back := by
    have h := (Nat.pow_dvd_pow 2 (Nat.le_add_right (8 * back.length) (8 - bit % 8))).trans divides
    exact (Nat.dvd_add_right (Nat.dvd_mul_left _ _)).1 h
  have zero : value back = 0 := by
    have small := value_lt back
    rw [pow_256] at small
    exact Nat.eq_zero_of_dvd_of_lt rest small
  rw [zero, Nat.add_zero, Nat.add_comm (8 * back.length), Nat.pow_add,
    Nat.mul_dvd_mul_iff_right (Nat.two_pow_pos _)] at divides
  have byte : 2 ^ (8 - bit % 8) ∣ c.toNat :=
    (Nat.dvd_add_right ((Nat.pow_dvd_pow 2 (Nat.sub_le 8 _)).mul_left _)).1 divides
  have bit_set := or_bit_byte c.toNat c.toNat_lt (bit % 8) (Nat.mod_lt _ (by decide)) byte
  rw [UInt8.ofNat_toNat] at bit_set
  rw [← at_, modify_append, value_eq, bit_set, value_eq]
  rw [show 8 * (front ++ c :: back).length - 1 - bit = 7 - bit % 8 + 8 * back.length by
    rw [List.length_append, List.length_cons]
    omega, Nat.pow_add]
  ring

end Bits

namespace DhtId

variable {x y : DhtId} {d : ℕ}

theorem commonBitsIn_le (a b : Bytes) : commonBitsIn a b ≤ 8 * a.length := by
  induction a generalizing b with
  | nil => exact Nat.le_refl 0
  | cons x a ih =>
    obtain _ | ⟨y, b⟩ := b
    · exact Nat.zero_le _
    show (if x ≠ y then leadingZeros 8 (x ^^^ y) else commonBitsIn a b + 8) ≤ 8 * (a.length + 1)
    split_ifs with other
    · have nonzero : x ^^^ y ≠ 0 := fun h => other (UInt8.xor_eq_zero_iff.1 h)
      have few := mt (le_leadingZeros_iff nonzero (Nat.le_refl 8)).1 (by
        intro h
        exact nonzero (UInt8.toNat_inj.1 (by simpa using h)))
      omega
    · have := ih b
      omega

theorem commonBits_le (x y : DhtId) : commonBits x y ≤ 160 := by
  have h := commonBitsIn_le x.val y.val
  rwa [x.property] at h

/-- `common_bits` counts the bits at the front of the two numbers that are the same. -/
theorem commonBits_eq (x y : DhtId) : commonBits x y = common 160 x.number y.number := by
  have le_iff (d : ℕ) (hd : d ≤ 160) : d ≤ commonBits x y ↔ d ≤ common 160 x.number y.number := by
    have h := le_commonBitsIn_iff (length_eq x y) (d := d) (by rw [x.property]; omega)
    rw [value_xorBytes (length_eq x y), x.property] at h
    exact h.trans (xor_lt_two_pow_iff.trans (le_common_iff x.number_lt y.number_lt hd).symm)
  refine Nat.le_antisymm ?_ ?_
  · exact (le_iff _ (commonBits_le x y)).1 (Nat.le_refl _)
  · exact (le_iff _ common_le).2 (Nat.le_refl _)

theorem commonBits_eq_iff : commonBits x y = 160 ↔ x = y := by
  constructor
  · intro all
    rw [commonBits_eq] at all
    have same := (le_common_iff x.number_lt y.number_lt (Nat.le_refl 160)).1 all.ge
    rwa [Nat.sub_self, Nat.pow_zero, Nat.div_one, Nat.div_one, number_inj] at same
  · rintro rfl
    rw [commonBits_eq, common_self]

theorem lowbit_lt_iff (hd : d ≤ 160) : lowbit x < (d : ℤ) ↔ 2 ^ (160 - d) ∣ x.number := by
  have h := lowbitIn_lt_iff (d := d) x.val (by rw [x.property]; omega)
  rwa [x.property] at h

/-- Setting a bit behind which no bit is set. -/
theorem number_setBit (hd : d < 160) (divides : 2 ^ (160 - d) ∣ x.number) :
    (setBit x d).number = x.number + 2 ^ (160 - (d + 1)) := by
  have h := value_modify_or x.val (by rw [x.property]; omega)
    (by rw [x.property]; exact divides)
  rw [x.property, show 8 * 20 - 1 - d = 160 - (d + 1) by omega] at h
  exact h

theorem lowbit_bounds (x : DhtId) : -1 ≤ lowbit x ∧ lowbit x < 160 := by
  have h := lowbitIn_lt x.val
  rwa [x.property] at h

end DhtId

end Orcashi
