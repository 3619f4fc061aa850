import Mathlib.Tactic.Linarith
import Mathlib.Tactic.Ring

/-!
# Token buckets

A bucket has tokens, one of which is taken for each request.  When it is empty, it is filled according to the
time since it was filled last.  What can be taken in a span of time is bounded by a budget that each request
spends, which holds for any order of requests as long as the time does not go back.
-/

namespace TokenBucket

/-- The tokens, and when the bucket was filled last. -/
structure TokenState where
  tokens : ℤ
  time : ℤ

variable {capacity rate now start stop : ℤ} {b : TokenState}

/-- A bucket that is empty is filled. -/
def refill (capacity rate now : ℤ) (b : TokenState) : TokenState :=
  if b.tokens = 0 then ⟨min capacity (rate * (now - b.time)), now⟩ else b

/-- A token is taken if there is one. -/
def take (capacity rate now : ℤ) (b : TokenState) : TokenState × Bool :=
  let b := refill capacity rate now b
  if b.tokens = 0 then (b, false) else (⟨b.tokens - 1, b.time⟩, true)

theorem take_of_empty (empty : (refill capacity rate now b).tokens = 0) :
    take capacity rate now b = (refill capacity rate now b, false) := if_pos empty

theorem take_of_some (some : (refill capacity rate now b).tokens ≠ 0) :
    take capacity rate now b =
      (⟨(refill capacity rate now b).tokens - 1, (refill capacity rate now b).time⟩, true) := if_neg some

/-- A bucket at some time. -/
structure Filled (capacity now : ℤ) (b : TokenState) : Prop where
  nonneg : 0 ≤ b.tokens
  le : b.tokens ≤ capacity
  time : b.time ≤ now

theorem Filled.mono (h : Filled capacity now b) {later : ℤ} (le : now ≤ later) : Filled capacity later b :=
  ⟨h.nonneg, h.le, h.time.trans le⟩

theorem Filled.refill (h : Filled capacity now b) (room : 0 ≤ capacity) (positive : 0 ≤ rate) :
    Filled capacity now (refill capacity rate now b) := by
  unfold TokenBucket.refill
  split_ifs
  · have grown : 0 ≤ rate * (now - b.time) := mul_nonneg positive (sub_nonneg.2 h.time)
    exact ⟨le_min room grown, min_le_left _ _, le_rfl⟩
  · exact h

theorem Filled.take (h : Filled capacity now b) (room : 0 ≤ capacity) (positive : 0 ≤ rate) :
    Filled capacity now (take capacity rate now b).1 := by
  have filled := h.refill room positive
  by_cases empty : (TokenBucket.refill capacity rate now b).tokens = 0
  · rw [take_of_empty empty]
    exact filled
  · rw [take_of_some empty]
    have := filled.nonneg
    have := filled.le
    exact ⟨by dsimp only; omega, by dsimp only; omega, filled.time⟩

/-- What can be taken between `start` and `stop`: a bucket that was not filled since `start` can be filled
whole once more. -/
def budget (capacity rate start stop : ℤ) (b : TokenState) : ℤ :=
  if b.time < start then b.tokens + capacity + rate * (stop - start) else b.tokens + rate * (stop - b.time)

theorem budget_refill (begun : start ≤ now) (positive : 0 ≤ rate) :
    budget capacity rate start stop (refill capacity rate now b) ≤ budget capacity rate start stop b := by
  unfold refill
  split_ifs with empty
  · have whole := min_le_left capacity (rate * (now - b.time))
    have grown := min_le_right capacity (rate * (now - b.time))
    have waited : 0 ≤ rate * (now - start) := mul_nonneg positive (sub_nonneg.2 begun)
    unfold budget
    rw [if_neg (not_lt.2 begun)]
    dsimp only
    split_ifs <;> linarith
  · exact le_rfl

/-- A token that is taken is spent. -/
theorem budget_take (capacity stop : ℤ) (b : TokenState) (begun : start ≤ now) (positive : 0 ≤ rate) :
    budget capacity rate start stop (take capacity rate now b).1 +
      (if (take capacity rate now b).2 then 1 else 0) ≤ budget capacity rate start stop b := by
  refine le_trans (le_of_eq ?_) (budget_refill begun positive)
  by_cases empty : (refill capacity rate now b).tokens = 0
  · rw [take_of_empty empty]
    exact add_zero _
  · rw [take_of_some empty, if_pos rfl]
    unfold budget
    dsimp only
    split_ifs <;> ring

theorem budget_nonneg (h : Filled capacity now b) (room : 0 ≤ capacity) (positive : 0 ≤ rate) (begun : start ≤ stop)
    (ends : now ≤ stop) : 0 ≤ budget capacity rate start stop b := by
  have span : 0 ≤ rate * (stop - start) := mul_nonneg positive (sub_nonneg.2 begun)
  have since : 0 ≤ rate * (stop - b.time) := mul_nonneg positive (sub_nonneg.2 (h.time.trans ends))
  have := h.nonneg
  unfold budget
  split_ifs <;> linarith

theorem budget_le (start stop : ℤ) (h : Filled capacity now b) (room : 0 ≤ capacity) (positive : 0 ≤ rate) :
    budget capacity rate start stop b ≤ 2 * capacity + rate * (stop - start) := by
  have := h.le
  unfold budget
  split_ifs with before
  · linarith
  · have since : rate * (stop - b.time) ≤ rate * (stop - start) :=
      mul_le_mul_of_nonneg_left (by linarith) positive
    linarith

/-- A bucket with less than no tokens is never filled again, and never refuses. -/
theorem take_of_neg (negative : b.tokens < 0) :
    take capacity rate now b = (⟨b.tokens - 1, b.time⟩, true) := by
  have some : b.tokens ≠ 0 := negative.ne
  simp [take, refill, some]

end TokenBucket
