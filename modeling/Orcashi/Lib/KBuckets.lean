import Mathlib.Data.List.InsertIdx
import Mathlib.Order.Interval.Set.LinearOrder
import Orcashi.Lib.XorMetric

/-!
# Buckets around a number

The numbers of `n` bits are divided into intervals, which a list of their starts describes.  `me` is one of
them.  At first there is one interval, and the one that `me` is in is halved again and again.  After `d`
times two numbers are in the same interval exactly if they share equally many bits with `me`, where bits
behind the `d`-th one do not count.
-/

namespace KBuckets

open XorMetric

/-! ## Intervals -/

section Intervals

variable {starts : List ℕ} {i j v w : ℕ}

/-- `v` is in the interval at position `i`. -/
def Inside (starts : List ℕ) (i v : ℕ) : Prop :=
  ∃ s, starts[i]? = some s ∧ s ≤ v ∧ ∀ t, starts[i + 1]? = some t → v < t

/-- The position of the interval of `v`. -/
def cellOf (v : ℕ) : List ℕ → ℕ
  | _ :: t :: starts => if v < t then 0 else cellOf v (t :: starts) + 1
  | _ => 0

theorem inside_cons_succ {s : ℕ} : Inside (s :: starts) (i + 1) v ↔ Inside starts i v := Iff.rfl

theorem inside_cellOf_cons {s : ℕ} (h : s ≤ v) : Inside (s :: starts) (cellOf v (s :: starts)) v := by
  induction starts generalizing s with
  | nil => exact ⟨s, rfl, h, fun t ht => by cases ht⟩
  | cons t starts ih =>
    rw [cellOf]
    split_ifs with before
    · refine ⟨s, rfl, h, fun t' ht' => ?_⟩
      cases ht'
      exact before
    · exact inside_cons_succ.2 (ih (Nat.le_of_not_lt before))

/-- Where the first interval starts with 0, every number is in one. -/
theorem inside_cellOf (zero : starts[0]? = some 0) (v : ℕ) : Inside starts (cellOf v starts) v := by
  obtain _ | ⟨s, starts⟩ := starts
  · cases zero
  obtain rfl : s = 0 := Option.some.inj zero
  exact inside_cellOf_cons (Nat.zero_le v)

theorem Inside.lt_length (h : Inside starts i v) : i < starts.length := by
  obtain ⟨s, hs, -⟩ := h
  exact (List.getElem?_eq_some_iff.1 hs).1

/-- Where the starts are in order, an interval that begins behind `v` does not have it. -/
theorem Inside.lt_of_lt (sorted : starts.Pairwise (· < ·)) (h : Inside starts i v) (hij : i < j) {s : ℕ}
    (hs : starts[j]? = some s) : v < s := by
  obtain ⟨inside, rfl⟩ := List.getElem?_eq_some_iff.1 hs
  obtain ⟨-, -, -, next⟩ := h
  have before := next _ (List.getElem?_eq_getElem (by omega : i + 1 < starts.length))
  rcases Nat.lt_or_ge (i + 1) j with less | ge
  · exact Nat.lt_trans before (List.pairwise_iff_getElem.1 sorted _ _ _ inside less)
  · obtain rfl : j = i + 1 := by omega
    exact before

/-- No number is in two intervals. -/
theorem Inside.unique (sorted : starts.Pairwise (· < ·)) (h : Inside starts i v) (h' : Inside starts j v) :
    i = j := by
  have order {i j : ℕ} (h : Inside starts i v) (h' : Inside starts j v) : ¬ i < j := by
    intro less
    obtain ⟨s, hs, le, -⟩ := h'
    have := h.lt_of_lt sorted less hs
    omega
  have := order h h'
  have := order h' h
  omega

/-! A further start divides one interval. -/

theorem insertIdx_append (front back : List ℕ) (s mid : ℕ) :
    (front ++ s :: back).insertIdx (front.length + 1) mid = front ++ s :: mid :: back := by
  induction front with
  | nil => rfl
  | cons x front ih => exact congrArg (x :: ·) ih

variable {mid : ℕ}

theorem inside_insertIdx_of_lt (hij : j < i) :
    Inside (starts.insertIdx (i + 1) mid) j v ↔ Inside starts j v := by
  unfold Inside
  rw [List.getElem?_insertIdx_of_lt (by omega), List.getElem?_insertIdx_of_lt (by omega)]

theorem inside_insertIdx_of_gt (hij : i + 1 < j) :
    Inside (starts.insertIdx (i + 1) mid) j v ↔ Inside starts (j - 1) v := by
  unfold Inside
  rw [List.getElem?_insertIdx_of_gt hij, List.getElem?_insertIdx_of_gt (by omega),
    show j + 1 - 1 = j - 1 + 1 by omega]

theorem inside_insertIdx_left (mid_inside : Inside starts i mid) :
    Inside (starts.insertIdx (i + 1) mid) i v ↔ Inside starts i v ∧ v < mid := by
  have inside := mid_inside.lt_length
  obtain ⟨s', hs', le, next⟩ := mid_inside
  unfold Inside
  rw [List.getElem?_insertIdx_of_lt (Nat.lt_succ_self i), List.getElem?_insertIdx_self,
    if_pos (by omega)]
  constructor
  · rintro ⟨t, ht, le, lt⟩
    have lt_mid := lt mid rfl
    exact ⟨⟨t, ht, le, fun u hu => Nat.lt_trans lt_mid (next u hu)⟩, lt_mid⟩
  · rintro ⟨⟨t, ht, le, -⟩, lt_mid⟩
    refine ⟨t, ht, le, fun u hu => ?_⟩
    obtain rfl := Option.some.inj hu
    exact lt_mid

theorem inside_insertIdx_right (mid_inside : Inside starts i mid) :
    Inside (starts.insertIdx (i + 1) mid) (i + 1) v ↔ Inside starts i v ∧ mid ≤ v := by
  have inside := mid_inside.lt_length
  obtain ⟨s, hs, le, next⟩ := mid_inside
  unfold Inside
  rw [List.getElem?_insertIdx_self, if_pos (by omega), List.getElem?_insertIdx_of_gt (by omega),
    Nat.add_sub_cancel]
  constructor
  · rintro ⟨t, ht, le', lt⟩
    obtain rfl := Option.some.inj ht
    exact ⟨⟨s, hs, le.trans le', lt⟩, le'⟩
  · rintro ⟨⟨-, -, -, lt⟩, le'⟩
    exact ⟨mid, rfl, le', lt⟩

end Intervals

/-! ## The layout -/

section Layout

variable {n me d i j v : ℕ} {starts : List ℕ}

/-- How near a number is to `me`, as far as the layout tells. -/
def near (n me d v : ℕ) : ℕ := min (common n v me) d

/-- Numbers that are not nearest stay as near as they were. -/
theorem near_succ_eq_iff {w : ℕ} (far : near n me d w ≠ d) :
    near n me (d + 1) v = near n me (d + 1) w ↔ near n me d v = near n me d w := by
  unfold near at far ⊢
  omega

/-- Numbers that are equally near have the same first bits, and others do not. -/
theorem exists_block {t : ℕ} (hd : d ≤ n) (hme : me < 2 ^ n) (ht : t < 2 ^ n) :
    ∃ m, ∀ v < 2 ^ n, near n me d v = near n me d t ↔ v / 2 ^ m = t / 2 ^ m := by
  by_cases nearest : near n me d t = d
  · refine ⟨n - d, fun v hv => ?_⟩
    have t_me := (le_common_iff ht hme hd).1 (by unfold near at nearest; omega)
    rw [nearest, t_me, ← le_common_iff hv hme hd]
    unfold near
    omega
  · -- the numbers that are as near as `t` differ from `me` in the bit behind the common ones
    have lt : common n t me < d := by unfold near at nearest; omega
    generalize hk : common n t me = k at lt
    refine ⟨n - (k + 1), fun v hv => ?_⟩
    have near_v : near n me d v = near n me d t ↔ k ≤ common n v me ∧ ¬ k + 1 ≤ common n v me := by
      unfold near
      omega
    have t_k := (le_common_iff ht hme (by omega : k ≤ n)).1 hk.ge
    have t_far : ¬ t / 2 ^ (n - (k + 1)) = me / 2 ^ (n - (k + 1)) := by
      rw [← le_common_iff ht hme (by omega)]
      omega
    rw [near_v, le_common_iff hv hme (by omega), le_common_iff hv hme (by omega)]
    have size : n - k = n - (k + 1) + 1 := by omega
    rw [size] at t_k ⊢
    have half_v := div_two_pow_succ v (n - (k + 1))
    have half_t := div_two_pow_succ t (n - (k + 1))
    have half_me := div_two_pow_succ me (n - (k + 1))
    have up : v / 2 ^ (n - (k + 1) + 1) = v / 2 ^ (n - (k + 1)) / 2 := by
      rw [Nat.pow_succ, Nat.div_div_eq_div_mul]
    omega

/-- What is in the same interval as a number is nearer to it than everything else. -/
theorem xor_lt_of_near {t u : ℕ} (hd : d ≤ n) (hme : me < 2 ^ n) (ht : t < 2 ^ n) (hu : u < 2 ^ n) (hv : v < 2 ^ n)
    (same : near n me d u = near n me d t) (other : near n me d v ≠ near n me d t) : u ^^^ t < v ^^^ t := by
  obtain ⟨m, block⟩ := exists_block hd hme ht
  have inside := xor_lt_two_pow_iff.2 ((block u hu).1 same)
  have outside := mt xor_lt_two_pow_iff.1 (mt (block v hv).2 other)
  omega

/-- The intervals after `me`'s was halved `d` times. -/
structure Layout (n me d : ℕ) (starts : List ℕ) : Prop where
  depth_le : d ≤ n
  zero : starts[0]? = some 0
  length : starts.length = d + 1
  lt : ∀ s ∈ starts, s < 2 ^ n
  cell : ∀ (i s : ℕ), starts[i]? = some s → ∀ v < 2 ^ n,
    (Inside starts i v ↔ near n me d v = near n me d s)

theorem layout_root : Layout n me 0 [0] where
  depth_le := Nat.zero_le n
  zero := rfl
  length := rfl
  lt s mem := by
    rw [List.mem_singleton.1 mem]
    exact Nat.two_pow_pos n
  cell i s hs v _ := by
    obtain _ | i := i
    · refine iff_of_true ⟨0, rfl, Nat.zero_le v, fun t ht => by cases ht⟩ ?_
      rw [near, near, Nat.min_zero, Nat.min_zero]
    · cases hs

namespace Layout

variable (layout : Layout n me d starts)
include layout

theorem inside_start {s : ℕ} (hs : starts[i]? = some s) : Inside starts i s :=
  (layout.cell i s hs s (layout.lt s (List.mem_of_getElem? hs))).2 rfl

theorem sorted : starts.Pairwise (· < ·) := by
  rw [List.pairwise_iff_getElem]
  intro i j hi hj hij
  induction j with
  | zero => cases hij
  | succ j ih =>
    obtain ⟨s, hs, -, next⟩ := layout.inside_start (List.getElem?_eq_getElem (Nat.lt_of_succ_lt hj))
    have step := next _ (List.getElem?_eq_getElem hj)
    rcases Nat.lt_or_ge i j with less | ge
    · exact Nat.lt_trans (ih (Nat.lt_of_succ_lt hj) less) step
    · obtain rfl : i = j := by omega
      exact step

/-- Every number is in exactly one interval. -/
theorem inside_iff : Inside starts i v ↔ i = cellOf v starts := by
  constructor
  · intro h
    exact h.unique layout.sorted (inside_cellOf layout.zero v)
  · rintro rfl
    exact inside_cellOf layout.zero v

/-- Two numbers are in the same interval exactly if they are equally near. -/
theorem cellOf_eq_iff {w : ℕ} (hv : v < 2 ^ n) (hw : w < 2 ^ n) :
    cellOf v starts = cellOf w starts ↔ near n me d v = near n me d w := by
  have inside := inside_cellOf layout.zero w
  obtain ⟨s, hs, -⟩ := inside
  have same := (layout.cell _ s hs w hw).1 (inside_cellOf layout.zero w)
  rw [eq_comm, ← layout.inside_iff, layout.cell _ s hs v hv, same]

theorem near_me : near n me d me = d := by
  rw [near, common_self, Nat.min_eq_right layout.depth_le]

section Own

variable (hme : me < 2 ^ n) {s : ℕ} (own : Inside starts i me) (hs : starts[i]? = some s)
include hme own hs

/-- The interval of `me` has the numbers that share their first `d` bits with it. -/
theorem inside_own_iff (hv : v < 2 ^ n) : Inside starts i v ↔ v / 2 ^ (n - d) = me / 2 ^ (n - d) := by
  have near_s := (layout.cell i s hs me hme).1 own
  rw [layout.near_me] at near_s
  rw [layout.cell i s hs v hv, ← near_s, ← le_common_iff hv hme layout.depth_le]
  unfold near
  omega

/-- Where the interval of `me` starts and ends. -/
theorem own_bounds : s = me / 2 ^ (n - d) * 2 ^ (n - d) ∧
    ((starts[i + 1]? = some (s + 2 ^ (n - d)) ∧ s + 2 ^ (n - d) < 2 ^ n) ∨
      (starts[i + 1]? = none ∧ s + 2 ^ (n - d) = 2 ^ n)) := by
  let e : ℕ := (starts[i + 1]?).getD (2 ^ n)
  have end_le : e ≤ 2 ^ n := by
    cases next : starts[i + 1]? with
    | none => exact (congrArg (Option.getD · (2 ^ n)) next).le
    | some t =>
      have small := layout.lt t (List.mem_of_getElem? next)
      exact (congrArg (Option.getD · (2 ^ n)) next).trans_le small.le
  have members (v : ℕ) (hv : v < 2 ^ n) : Inside starts i v ↔ v ∈ Set.Ico s e := by
    constructor
    · rintro ⟨s', hs', le, next⟩
      obtain rfl := Option.some.inj (hs.symm.trans hs')
      refine ⟨le, ?_⟩
      cases found : starts[i + 1]? with
      | none => exact hv.trans_eq (congrArg (Option.getD · (2 ^ n)) found).symm
      | some t => exact (next t found).trans_eq (congrArg (Option.getD · (2 ^ n)) found).symm
    · rintro ⟨le, lt⟩
      refine ⟨s, hs, le, fun t ht => ?_⟩
      exact lt.trans_eq (congrArg (Option.getD · (2 ^ n)) ht)
  have interval : Set.Ico s e =
      Set.Ico (me / 2 ^ (n - d) * 2 ^ (n - d)) (me / 2 ^ (n - d) * 2 ^ (n - d) + 2 ^ (n - d)) := by
    have top : me / 2 ^ (n - d) * 2 ^ (n - d) + 2 ^ (n - d) ≤ 2 ^ n := by
      have high : me / 2 ^ (n - d) < 2 ^ d := by
        rw [Nat.div_lt_iff_lt_mul (Nat.two_pow_pos _), ← Nat.pow_add, Nat.add_sub_cancel' layout.depth_le]
        exact hme
      have scaled : (me / 2 ^ (n - d) + 1) * 2 ^ (n - d) ≤ 2 ^ d * 2 ^ (n - d) :=
        Nat.mul_le_mul_right _ high
      rwa [← Nat.pow_add, Nat.add_sub_cancel' layout.depth_le, Nat.add_mul, Nat.one_mul] at scaled
    ext v
    by_cases hv : v < 2 ^ n
    · rw [← members v hv, layout.inside_own_iff hme own hs hv, div_eq_iff_mem]
    · rw [Set.mem_Ico, Set.mem_Ico]
      omega
  have nonempty : me ∈ Set.Ico s e := (members me hme).1 own
  obtain ⟨start, finish⟩ := (Set.Ico_eq_Ico_iff (Or.inl (Nat.lt_of_le_of_lt nonempty.1 nonempty.2))).1 interval
  refine ⟨start, ?_⟩
  rw [← start] at finish
  cases next : starts[i + 1]? with
  | none => exact Or.inr ⟨rfl, finish.symm.trans (congrArg (Option.getD · (2 ^ n)) next)⟩
  | some t =>
    have here : s + 2 ^ (n - d) = t := finish.symm.trans (congrArg (Option.getD · (2 ^ n)) next)
    exact Or.inl ⟨congrArg some here.symm, here ▸ layout.lt t (List.mem_of_getElem? next)⟩

/-- In the interval of `me`, the half of a number is the next bit of it. -/
theorem lt_mid_iff (hd : d < n) (hv : v < 2 ^ n) (inside : Inside starts i v) :
    (v < s + 2 ^ (n - (d + 1)) ↔ v / 2 ^ (n - (d + 1)) = 2 * (me / 2 ^ (n - d))) ∧
      (s + 2 ^ (n - (d + 1)) ≤ v ↔ v / 2 ^ (n - (d + 1)) = 2 * (me / 2 ^ (n - d)) + 1) := by
  have shared := (layout.inside_own_iff hme own hs hv).1 inside
  have width : n - d = n - (d + 1) + 1 := by omega
  have start : s + 2 ^ (n - (d + 1)) = (2 * (me / 2 ^ (n - d)) + 1) * 2 ^ (n - (d + 1)) := by
    have full : 2 ^ (n - d) = 2 ^ (n - (d + 1)) * 2 := by
      rw [← Nat.pow_succ, Nat.succ_eq_add_one, ← width]
    have first := (layout.own_bounds hme own hs).1
    rw [first]
    generalize me / 2 ^ (n - d) = q
    rw [full]
    ring
  have below : v < s + 2 ^ (n - (d + 1)) ↔ v / 2 ^ (n - (d + 1)) < 2 * (me / 2 ^ (n - d)) + 1 := by
    rw [start, Nat.div_lt_iff_lt_mul (Nat.two_pow_pos _)]
  have bit := div_two_pow_succ v (n - (d + 1))
  rw [← width, shared] at bit
  omega

theorem mid_lt (hd : d < n) :
    s + 2 ^ (n - (d + 1)) < 2 ^ n ∧ Inside starts i (s + 2 ^ (n - (d + 1))) := by
  have below : s + 2 ^ (n - (d + 1)) < s + 2 ^ (n - d) :=
    Nat.add_lt_add_left (Nat.pow_lt_pow_right (by decide) (by omega)) s
  rcases (layout.own_bounds hme own hs).2 with ⟨next, lt⟩ | ⟨next, eq⟩
  · refine ⟨by omega, s, hs, Nat.le_add_right _ _, fun t ht => ?_⟩
    obtain rfl := Option.some.inj (next.symm.trans ht)
    exact below
  · refine ⟨by omega, s, hs, Nat.le_add_right _ _, fun t ht => ?_⟩
    rw [next] at ht
    cases ht

/-- A number of the interval becomes nearer if it has the next bit of `me`, too. -/
theorem near_bit (hd : d < n) (hv : v < 2 ^ n) (inside : Inside starts i v) :
    (near n me (d + 1) v = d ∨ near n me (d + 1) v = d + 1) ∧
      (near n me (d + 1) v = d + 1 ↔ v / 2 ^ (n - (d + 1)) = me / 2 ^ (n - (d + 1))) := by
  have shared := (le_common_iff hv hme layout.depth_le).2 ((layout.inside_own_iff hme own hs hv).1 inside)
  rw [← le_common_iff hv hme hd]
  unfold near
  omega

/-- The halves of the interval, by how near their numbers are. -/
theorem near_half (hd : d < n) (hv : v < 2 ^ n) (inside : Inside starts i v) :
    (v < s + 2 ^ (n - (d + 1)) ↔ near n me (d + 1) v = near n me (d + 1) s) ∧
      (s + 2 ^ (n - (d + 1)) ≤ v ↔
        near n me (d + 1) v = near n me (d + 1) (s + 2 ^ (n - (d + 1)))) := by
  have s_lt := layout.lt s (List.mem_of_getElem? hs)
  have s_inside := layout.inside_start hs
  obtain ⟨mid_lt, mid_inside⟩ := layout.mid_lt hme own hs hd
  have width := Nat.two_pow_pos (n - (d + 1))
  have bit_v := layout.near_bit hme own hs hd hv inside
  have bit_s := layout.near_bit hme own hs hd s_lt s_inside
  have bit_mid := layout.near_bit hme own hs hd mid_lt mid_inside
  have half_v := layout.lt_mid_iff hme own hs hd hv inside
  have half_s := (layout.lt_mid_iff hme own hs hd s_lt s_inside).1.1 (by omega)
  have half_mid := (layout.lt_mid_iff hme own hs hd mid_lt mid_inside).2.1 (Nat.le_refl _)
  have half_me := layout.lt_mid_iff hme own hs hd hme own
  omega

theorem near_eq_of_ne {t : ℕ} (ht : starts[j]? = some t) (other : j ≠ i) : near n me d t ≠ d := by
  intro same
  refine other ((layout.inside_start ht).unique layout.sorted ?_)
  rw [layout.cell i s hs t (layout.lt t (List.mem_of_getElem? ht)), same,
    ← (layout.cell i s hs me hme).1 own, layout.near_me]

/-- Halving the interval of `me`. -/
theorem split (hd : d < n) :
    Layout n me (d + 1) (starts.insertIdx (i + 1) (s + 2 ^ (n - (d + 1)))) := by
  have inside := own.lt_length
  obtain ⟨mid_lt, mid_inside⟩ := layout.mid_lt hme own hs hd
  have near_s := (layout.near_bit hme own hs hd (layout.lt s (List.mem_of_getElem? hs))
    (layout.inside_start hs)).1
  have near_mid := (layout.near_bit hme own hs hd mid_lt mid_inside).1
  have outside (v : ℕ) (hv : v < 2 ^ n) (h : ¬ Inside starts i v) : near n me (d + 1) v < d := by
    have far := mt (layout.cell i s hs v hv).2 h
    rw [← (layout.cell i s hs me hme).1 own, layout.near_me] at far
    unfold near at far ⊢
    omega
  refine ⟨hd, ?_, ?_, ?_, ?_⟩
  · rw [List.getElem?_insertIdx_of_lt (Nat.succ_pos i)]
    exact layout.zero
  · rw [List.length_insertIdx_of_le_length (by omega), layout.length]
  · intro t mem
    rcases List.eq_or_mem_of_mem_insertIdx mem with rfl | mem
    · omega
    · exact layout.lt t mem
  · intro j t ht v hv
    rcases Nat.lt_trichotomy j (i + 1) with before | rfl | after
    · rw [List.getElem?_insertIdx_of_lt before] at ht
      rcases Nat.lt_or_ge j i with other | here
      · rw [inside_insertIdx_of_lt other, layout.cell j t ht v hv,
          near_succ_eq_iff (layout.near_eq_of_ne hme own hs ht (by omega))]
      · obtain rfl : j = i := by omega
        obtain rfl := Option.some.inj (hs.symm.trans ht)
        rw [inside_insertIdx_left mid_inside]
        by_cases inside_v : Inside starts j v
        · rw [and_iff_right inside_v]
          exact (layout.near_half hme own hs hd hv inside_v).1
        · have far := outside v hv inside_v
          exact iff_of_false (fun h => inside_v h.1) (by omega)
    · rw [List.getElem?_insertIdx_self, if_pos (by omega)] at ht
      obtain rfl := Option.some.inj ht
      rw [inside_insertIdx_right mid_inside]
      by_cases inside_v : Inside starts i v
      · rw [and_iff_right inside_v]
        exact (layout.near_half hme own hs hd hv inside_v).2
      · have far := outside v hv inside_v
        exact iff_of_false (fun h => inside_v h.1) (by omega)
    · rw [List.getElem?_insertIdx_of_gt after] at ht
      rw [inside_insertIdx_of_gt after, layout.cell (j - 1) t ht v hv,
        near_succ_eq_iff (layout.near_eq_of_ne hme own hs ht (by omega))]

/-- The powers of two that divide both ends of the interval of `me` tell how often it was halved. -/
theorem dvd_ends_iff {e : ℕ} (he : e ≤ n) :
    (2 ^ (n - e) ∣ s ∧ ∀ t, starts[i + 1]? = some t → 2 ^ (n - e) ∣ t) ↔ d ≤ e := by
  have depth := layout.depth_le
  obtain ⟨start, bounds⟩ := layout.own_bounds hme own hs
  constructor
  · rintro ⟨first, next⟩
    have width : 2 ^ (n - e) ∣ 2 ^ (n - d) := by
      rcases bounds with ⟨found, -⟩ | ⟨-, top⟩
      · exact (Nat.dvd_add_right first).1 (next _ found)
      · rw [← Nat.dvd_add_right first, top]
        exact Nat.pow_dvd_pow 2 (Nat.sub_le n e)
    have := (Nat.pow_dvd_pow_iff_le_right (Nat.le_refl 2)).1 width
    omega
  · intro hde
    have width : 2 ^ (n - e) ∣ 2 ^ (n - d) := Nat.pow_dvd_pow 2 (by omega)
    have first : 2 ^ (n - e) ∣ s := start ▸ width.mul_left _
    refine ⟨first, fun t ht => ?_⟩
    rcases bounds with ⟨found, -⟩ | ⟨found, -⟩
    · obtain rfl := Option.some.inj (found.symm.trans ht)
      exact dvd_add first width
    · rw [found] at ht
      cases ht

end Own

/-- There is one interval for every number of common bits. -/
theorem near_perm : (starts.map (near n me d)).Perm (List.range (d + 1)) := by
  have nodup : (starts.map (near n me d)).Nodup := by
    rw [List.nodup_iff_injective_getElem]
    rintro ⟨i, hi⟩ ⟨j, hj⟩ same
    rw [List.length_map] at hi hj
    simp only [List.getElem_map] at same
    have inside := (layout.cell j _ (List.getElem?_eq_getElem hj) _
      (layout.lt _ (List.getElem_mem hi))).2 same
    exact Fin.ext ((layout.inside_start (List.getElem?_eq_getElem hi)).unique layout.sorted inside)
  refine (nodup.subperm fun k mem => ?_).perm_of_length_le ?_
  · obtain ⟨s, -, rfl⟩ := List.mem_map.1 mem
    exact List.mem_range.2 (Nat.lt_succ_of_le (Nat.min_le_right _ _))
  · rw [List.length_range, List.length_map, layout.length]

end Layout

end Layout

end KBuckets
