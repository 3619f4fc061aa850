import Mathlib.Data.List.Basic
import Mathlib.Data.List.Dedup
import Mathlib.Data.List.Induction
import Mathlib.Data.List.Perm.Basic
import Mathlib.Order.Lattice
import Mathlib.Tactic.SplitIfs

/-!
# What was used most recently

A cache that replaces what was used least recently holds the front of a list: the uses so far, the last one
first, and of each key only the last use.  Every use moves its key to the front.  A key is among the first
`n` exactly if fewer than `n` other keys were used after it.
-/

namespace Recency

variable {κ ε : Type*} [DecidableEq κ] (key : ε → κ)

/-- The uses without those of one key. -/
def without (k : κ) (l : List ε) : List ε := l.filter fun x => key x ≠ k

/-- A use comes to the front, and the earlier ones of its key go. -/
def touch (l : List ε) (e : ε) : List ε := e :: without key (key e) l

/-- The last use of each key, the last one first. -/
def recency (es : List ε) : List ε := es.foldl (touch key) []

/-- The keys used after `k` was used last, in the opposite order. -/
def since (ks : List κ) (k : κ) : List κ := ks.reverse.takeWhile fun x => x ≠ k

/-- `k` was used, and fewer than `n` other keys after that. -/
def Recent (n : ℕ) (ks : List κ) (k : κ) : Prop := k ∈ ks ∧ (since ks k).dedup.length < n

variable {key} {l es : List ε} {e : ε} {k : κ} {n : ℕ}

theorem mem_without {x : ε} : x ∈ without key k l ↔ x ∈ l ∧ key x ≠ k := by
  unfold without
  rw [List.mem_filter, decide_eq_true_iff]

theorem without_eq_self (h : ∀ x ∈ l, key x ≠ k) : without key k l = l :=
  List.filter_eq_self.2 fun x mem => decide_eq_true (h x mem)

theorem map_without : (without key k l).map key = without id k (l.map key) := by
  unfold without
  rw [List.filter_map]
  rfl

theorem recency_concat : recency key (es ++ [e]) = touch key (recency key es) e := by
  unfold recency
  rw [List.foldl_concat]

theorem map_recency (es : List ε) : (recency key es).map key = recency id (es.map key) := by
  induction es using List.reverseRecOn with
  | nil => rfl
  | append_singleton es e ih =>
    rw [recency_concat, List.map_append, List.map_singleton, recency_concat, touch, touch, List.map_cons,
      map_without, ih]
    rfl

/-- What is left are uses, in the opposite order. -/
theorem reverse_recency_sublist (es : List ε) : (recency key es).reverse.Sublist es := by
  induction es using List.reverseRecOn with
  | nil => exact List.Sublist.refl []
  | append_singleton es e ih =>
    rw [recency_concat, touch, List.reverse_cons]
    refine List.Sublist.append ?_ (List.Sublist.refl [e])
    exact ((List.filter_sublist).reverse).trans ih

theorem pairwise_recency {r : ε → ε → Prop} (h : es.Pairwise r) :
    (recency key es).Pairwise fun x y => r y x :=
  List.pairwise_reverse.1 (h.sublist (reverse_recency_sublist es))

/-- No key is left twice. -/
theorem nodup_recency (es : List ε) : ((recency key es).map key).Nodup := by
  induction es using List.reverseRecOn with
  | nil => exact List.nodup_nil
  | append_singleton es e ih =>
    rw [recency_concat, touch, List.map_cons, List.nodup_cons]
    constructor
    · intro again
      obtain ⟨x, mem, same⟩ := List.mem_map.1 again
      exact (mem_without.1 mem).2 same
    · exact (List.filter_sublist.map key).nodup ih

/-! ## Keys -/

variable {ks : List κ}

theorem mem_recency {x : κ} : x ∈ recency id ks ↔ x ∈ ks := by
  induction ks using List.reverseRecOn with
  | nil => exact Iff.rfl
  | append_singleton ks e ih =>
    rw [recency_concat, touch, List.mem_cons, mem_without, ih, List.mem_append, List.mem_singleton]
    by_cases same : x = e
    · simp [same]
    · simp [same]

/-- What comes before `k` was used after `k`. -/
theorem mem_before_iff {x : κ} :
    x ∈ (recency id ks).takeWhile (fun y => y ≠ k) ↔ x ∈ since ks k := by
  unfold since
  induction ks using List.reverseRecOn with
  | nil => exact Iff.rfl
  | append_singleton ks e ih =>
    rw [recency_concat, touch, List.reverse_append, List.reverse_singleton, List.singleton_append]
    by_cases same : e = k
    · rw [List.takeWhile_cons_of_neg (by simp [same]), List.takeWhile_cons_of_neg (by simp [same])]
    · rw [List.takeWhile_cons_of_pos (by simp [same]), List.takeWhile_cons_of_pos (by simp [same]),
        List.mem_cons, List.mem_cons, ← ih]
      have keep : (fun y => !decide (y ≠ e) || decide (y ≠ k)) = fun y => decide (y ≠ k) := by
        funext y
        by_cases here : y = e
        · simp [here, same]
        · simp [here]
      have split : (without id e (recency id ks)).takeWhile (fun y => y ≠ k) =
          without id e ((recency id ks).takeWhile fun y => y ≠ k) := by
        unfold without
        rw [List.takeWhile_filter, ← keep]
        rfl
      rw [id_eq, split, mem_without]
      by_cases here : x = e
      · simp [here]
      · simp [here]

theorem length_before (ks : List κ) (k : κ) :
    ((recency id ks).takeWhile fun y => y ≠ k).length = (since ks k).dedup.length := by
  have nodup : (recency id ks).Nodup := by
    have : ((recency id ks).map id).Nodup := nodup_recency ks
    rwa [List.map_id] at this
  refine List.Perm.length_eq ?_
  rw [List.perm_ext_iff_of_nodup ((List.takeWhile_sublist _).nodup nodup) (List.nodup_dedup _)]
  intro x
  rw [mem_before_iff, List.mem_dedup]

theorem mem_take_iff {l : List κ} (n : ℕ) :
    k ∈ l.take n ↔ k ∈ l ∧ (l.takeWhile fun y => y ≠ k).length < n := by
  induction l generalizing n with
  | nil => simp
  | cons x l ih =>
    cases n with
    | zero => simp
    | succ n =>
      rw [List.take_succ_cons, List.mem_cons, List.mem_cons, ih]
      by_cases same : x = k
      · rw [List.takeWhile_cons_of_neg (by simp [same])]
        simp [same]
      · rw [List.takeWhile_cons_of_pos (by simp [same]), List.length_cons, Nat.succ_lt_succ_iff]
        simp [Ne.symm same]

/-- The keys at the front are those that were used recently. -/
theorem mem_take_recency_iff (es : List ε) (n : ℕ) (k : κ) :
    k ∈ ((recency key es).take n).map key ↔ Recent n (es.map key) k := by
  rw [List.map_take, map_recency, mem_take_iff, length_before, mem_recency]
  exact Iff.rfl

/-! ## One use more -/

theorem without_cons_of_eq {x : ε} (h : key x = k) : without key k (x :: l) = without key k l :=
  List.filter_cons_of_neg (by simp [h])

theorem without_cons_of_ne {x : ε} (h : key x ≠ k) : without key k (x :: l) = x :: without key k l :=
  List.filter_cons_of_pos (by simp [h])

/-- Where no key is there twice, one can be exchanged for a use of its key. -/
theorem set_perm_without (nodup : (l.map key).Nodup) {i : ℕ} (inside : i < l.length) (same : key l[i] = k)
    (e : ε) : (l.set i e).Perm (e :: without key k l) := by
  have split := List.getElem_cons_eraseIdx_perm inside
  have others : without key k (l.eraseIdx i) = l.eraseIdx i := by
    refine without_eq_self fun x mem again => ?_
    have := (split.map key).nodup_iff.2 nodup
    rw [List.map_cons, List.nodup_cons, same] at this
    exact this.1 (again ▸ List.mem_map_of_mem mem)
  have rest : (without key k (l[i] :: l.eraseIdx i)).Perm (without key k l) := split.filter _
  rw [without_cons_of_eq same, others] at rest
  exact (List.set_perm_cons_eraseIdx inside e).trans (rest.cons e)

theorem take_without (nodup : (l.map key).Nodup) (h : k ∈ (l.take (n + 1)).map key) :
    (without key k l).take n = without key k (l.take (n + 1)) := by
  induction l generalizing n with
  | nil => simp at h
  | cons x l ih =>
    rw [List.map_cons, List.nodup_cons] at nodup
    by_cases here : key x = k
    · have rest : ∀ y ∈ l, key y ≠ k := by
        rintro y mem rfl
        exact nodup.1 (here ▸ List.mem_map_of_mem mem)
      rw [List.take_succ_cons, without_cons_of_eq here, without_cons_of_eq here, without_eq_self rest,
        without_eq_self fun y mem => rest y (List.mem_of_mem_take mem)]
    · rw [List.take_succ_cons, List.map_cons, List.mem_cons, or_iff_right (Ne.symm here)] at h
      cases n with
      | zero => simp at h
      | succ n =>
        rw [List.take_succ_cons, without_cons_of_ne here, without_cons_of_ne here, List.take_succ_cons,
          ih nodup.2 h]

/-- The front after a use of a key that is there. -/
theorem take_touch_of_mem (nodup : (l.map key).Nodup) (h : key e ∈ (l.take (n + 1)).map key) :
    (touch key l e).take (n + 1) = e :: without key (key e) (l.take (n + 1)) := by
  unfold touch
  rw [List.take_succ_cons, take_without nodup h]

/-- The front after a use of a key that is not there: the last one goes. -/
theorem take_touch_of_not_mem (h : key e ∉ (l.take n).map key) :
    (touch key l e).take (n + 1) = e :: l.take n := by
  unfold touch
  rw [List.take_succ_cons]
  congr 1
  induction l generalizing n with
  | nil => rfl
  | cons x l ih =>
    cases n with
    | zero => rw [List.take_zero, List.take_zero]
    | succ n =>
      rw [List.take_succ_cons, List.map_cons, List.mem_cons, not_or] at h
      rw [without_cons_of_ne (Ne.symm h.1), List.take_succ_cons, List.take_succ_cons, ih h.2]

/-! ## The first of the oldest -/

variable {τ : Type*} [LinearOrder τ]

/-- The loop that looks for the least of the stamps from 0 to `n`. -/
def firstLeast (stamp : ℕ → τ) (n : ℕ) : ℕ :=
  (List.range' 1 n).foldl (fun oldest i => if stamp i < stamp oldest then i else oldest) 0

theorem firstLeast_succ (stamp : ℕ → τ) (n : ℕ) : firstLeast stamp (n + 1) =
    if stamp (n + 1) < stamp (firstLeast stamp n) then n + 1 else firstLeast stamp n := by
  unfold firstLeast
  rw [List.range'_1_concat, List.foldl_concat, Nat.add_comm 1 n]

/-- No stamp is less, and those before are greater. -/
theorem firstLeast_spec (stamp : ℕ → τ) (n : ℕ) :
    firstLeast stamp n ≤ n ∧ (∀ j ≤ n, stamp (firstLeast stamp n) ≤ stamp j) ∧
      ∀ j < firstLeast stamp n, stamp (firstLeast stamp n) < stamp j := by
  induction n with
  | zero =>
    refine ⟨Nat.le_refl 0, fun j hj => ?_, fun j hj => absurd hj (Nat.not_lt_zero j)⟩
    rw [Nat.le_zero.1 hj]
    exact le_refl _
  | succ n ih =>
    obtain ⟨within, least, first⟩ := ih
    rw [firstLeast_succ]
    split_ifs with less
    · refine ⟨Nat.le_refl _, fun j hj => ?_, fun j hj => ?_⟩
      · rcases Nat.le_succ_iff.1 hj with hj | rfl
        · exact le_trans (le_of_lt less) (least j hj)
        · exact le_refl _
      · exact lt_of_lt_of_le less (least j (Nat.lt_succ_iff.1 hj))
    · refine ⟨Nat.le_succ_of_le within, fun j hj => ?_, first⟩
      rcases Nat.le_succ_iff.1 hj with hj | rfl
      · exact least j hj
      · exact not_lt.1 less

/-! ## A cache with slots -/

/-- In whatever order, the slots hold what was used most recently. -/
def Recorded (key : ε → κ) (n : ℕ) (slots es : List ε) : Prop := slots.Perm ((recency key es).take n)

section Slots

variable {slots slots' : List ε}

theorem Recorded.nodup (h : Recorded key n slots es) : (slots.map key).Nodup := by
  rw [(h.map key).nodup_iff, List.map_take]
  exact (List.take_sublist _ _).nodup (nodup_recency es)

theorem Recorded.length_le (h : Recorded key n slots es) : slots.length ≤ n :=
  h.length_eq ▸ List.length_take_le _ _

theorem Recorded.mem_iff (h : Recorded key n slots es) (k : κ) :
    k ∈ slots.map key ↔ Recent n (es.map key) k := by
  rw [(h.map key).mem_iff]
  exact mem_take_recency_iff es n k

/-- A use of a key that has a slot. -/
theorem Recorded.hit (h : Recorded key (n + 1) slots es) (mem : key e ∈ slots.map key)
    (hit : slots'.Perm (e :: without key (key e) slots)) : Recorded key (n + 1) slots' (es ++ [e]) := by
  unfold Recorded
  rw [(h.map key).mem_iff] at mem
  rw [recency_concat, take_touch_of_mem (nodup_recency es) mem]
  exact hit.trans (List.Perm.cons e (h.filter _))

/-- A use of a new key while there is room. -/
theorem Recorded.room (h : Recorded key (n + 1) slots es) (new : key e ∉ slots.map key)
    (room : slots.length ≤ n) (added : slots'.Perm (e :: slots)) :
    Recorded key (n + 1) slots' (es ++ [e]) := by
  have short : (recency key es).length ≤ n := by
    have := h.length_eq
    rw [List.length_take] at this
    omega
  have all := List.take_of_length_le short
  have whole : slots.Perm (recency key es) := by
    have := h
    rwa [Recorded, List.take_of_length_le (Nat.le_succ_of_le short)] at this
  unfold Recorded
  rw [recency_concat, take_touch_of_not_mem, all]
  · exact added.trans (List.Perm.cons e whole)
  · rw [all]
    exact mt (whole.map key).mem_iff.2 new

variable {z : ε}

theorem take_succ_of_getElem? (last : l[n]? = some z) : l.take (n + 1) = l.take n ++ [z] := by
  rw [List.take_add_one, last]
  rfl

theorem Recorded.perm_last (h : Recorded key (n + 1) slots es) (last : (recency key es)[n]? = some z) :
    slots.Perm (z :: (recency key es).take n) := by
  have := h
  rw [Recorded, take_succ_of_getElem? last] at this
  exact this.trans (List.perm_append_singleton z _)

/-- Its key has no other slot. -/
theorem Recorded.last_notMem (h : Recorded key (n + 1) slots es) (last : (recency key es)[n]? = some z) :
    key z ∉ ((recency key es).take n).map key := by
  have distinct := h.nodup
  rw [((h.perm_last last).map key).nodup_iff, List.map_cons, List.nodup_cons] at distinct
  exact distinct.1

theorem Recorded.last_mem (h : Recorded key (n + 1) slots es) (last : (recency key es)[n]? = some z) :
    z ∈ slots := (h.perm_last last).mem_iff.2 List.mem_cons_self

/-- The last one of the front is the one after which `n` other keys were used. -/
theorem Recorded.last_iff (h : Recorded key (n + 1) slots es) (last : (recency key es)[n]? = some z)
    {y : ε} (mem : y ∈ slots) : (since (es.map key) (key y)).dedup.length = n ↔ y = z := by
  have recent := (h.mem_iff (key y)).1 (List.mem_map_of_mem mem)
  have before : key y ∈ ((recency key es).take n).map key ↔ Recent n (es.map key) (key y) :=
    mem_take_recency_iff es n (key y)
  have length : (since (es.map key) (key y)).dedup.length = n ↔
      key y ∉ ((recency key es).take n).map key := by
    obtain ⟨used, few⟩ := recent
    rw [before, Recent, and_iff_right used]
    omega
  rw [length]
  constructor
  · intro out
    rcases List.mem_cons.1 ((h.perm_last last).mem_iff.1 mem) with same | front
    · exact same
    · exact absurd (List.mem_map_of_mem front) out
  · rintro rfl
    exact h.last_notMem last

/-- A use of a new key whose slot is that of the last one. -/
theorem Recorded.replace {i : ℕ} (h : Recorded key (n + 1) slots es) (new : key e ∉ slots.map key)
    (last : (recency key es)[n]? = some z) (here : slots[i]? = some z) :
    Recorded key (n + 1) (slots.set i e) (es ++ [e]) := by
  obtain ⟨inside, rfl⟩ := List.getElem?_eq_some_iff.1 here
  have perm := h.perm_last last
  have others := List.Perm.cons_inv ((List.getElem_cons_eraseIdx_perm inside).trans perm)
  unfold Recorded
  rw [recency_concat, take_touch_of_not_mem]
  · exact (List.set_perm_cons_eraseIdx inside e).trans (List.Perm.cons e others)
  · intro again
    exact new ((perm.map key).mem_iff.2 (List.mem_cons_of_mem _ again))

/-- A use of a new key that takes another slot: the last one is kept. -/
theorem Recorded.misplaced {i : ℕ} {x : ε} (h : Recorded key (n + 1) slots es)
    (new : key e ∉ slots.map key) (last : (recency key es)[n]? = some z) (here : slots[i]? = some x)
    (ne : x ≠ z) :
    key z ∈ (slots.set i e).map key ∧ ¬ Recent (n + 1) ((es ++ [e]).map key) (key z) := by
  obtain ⟨inside, rfl⟩ := List.getElem?_eq_some_iff.1 here
  have stored := h.last_mem last
  have out := h.last_notMem last
  have perm := h.perm_last last
  constructor
  · refine List.mem_map_of_mem ((List.set_perm_cons_eraseIdx inside e).mem_iff.2 ?_)
    have split := (List.getElem_cons_eraseIdx_perm inside).mem_iff.2 stored
    exact List.mem_cons_of_mem e ((List.mem_cons.1 split).resolve_left (Ne.symm ne))
  · rw [← mem_take_recency_iff, recency_concat, take_touch_of_not_mem, List.map_cons, List.mem_cons]
    · rintro (same | front)
      · exact new (same ▸ List.mem_map_of_mem stored)
      · exact out front
    · intro again
      exact new ((perm.map key).mem_iff.2 (List.mem_cons_of_mem _ again))

/-- The first slot with the least stamp has the last one, unless an earlier slot has the same stamp. -/
theorem Recorded.firstLeast_iff (stamp : ε → τ) (stampAt : ℕ → τ) (h : Recorded key (n + 1) slots es)
    (full : slots.length = n + 1) (clock : es.Pairwise fun x y => stamp x ≤ stamp y)
    (last : (recency key es)[n]? = some z) (reads : ∀ i x, slots[i]? = some x → stampAt i = stamp x) :
    slots[firstLeast stampAt n]? = some z ↔
      ∀ (j k : ℕ) (x : ε), j < k → slots[j]? = some x → slots[k]? = some z → stamp x ≠ stamp z := by
  obtain ⟨within, least, first⟩ := firstLeast_spec stampAt n
  generalize firstLeast stampAt n = o at within least first
  obtain ⟨w, hw⟩ : ∃ w, slots[o]? = some w := ⟨_, List.getElem?_eq_getElem (by omega)⟩
  obtain ⟨k₀, hk₀⟩ := List.mem_iff_getElem?.1 (h.last_mem last)
  have inside := (List.getElem?_eq_some_iff.1 hk₀).1
  have lowest : ∀ x ∈ slots, stamp z ≤ stamp x := by
    intro x mem
    rcases List.mem_cons.1 ((h.perm_last last).mem_iff.1 mem) with rfl | front
    · exact le_refl _
    · have all : (recency key es).Pairwise fun x y => stamp y ≤ stamp x := pairwise_recency clock
      have sorted := all.sublist (List.take_sublist (n + 1) _)
      rw [take_succ_of_getElem? last, List.pairwise_append] at sorted
      exact sorted.2.2 x front z (List.mem_singleton_self z)
  have same : stamp w = stamp z := by
    refine le_antisymm ?_ (lowest w (List.mem_of_getElem? hw))
    rw [← reads o w hw, ← reads k₀ z hk₀]
    exact least k₀ (by omega)
  constructor
  · intro here j k x hjk hj hk
    obtain rfl : o = k := (List.getElem?_inj (by omega) (List.Nodup.of_map key h.nodup)).1 (here.trans hk.symm)
    have := first j hjk
    rw [reads o z here, reads j x hj] at this
    exact ne_of_gt this
  · intro ties
    rcases Nat.lt_trichotomy o k₀ with before | rfl | behind
    · exact absurd same (ties o k₀ w before hw hk₀)
    · exact hk₀
    · have := first k₀ behind
      rw [reads o w hw, reads k₀ z hk₀] at this
      exact absurd same (ne_of_lt this)

end Slots

end Recency
