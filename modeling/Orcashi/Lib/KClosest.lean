import Mathlib.Data.Finset.Card
import Mathlib.Data.List.InsertIdx
import Mathlib.Order.Defs.LinearOrder

/-!
# The nearest elements of a set

A list has room for `k` elements.  It is in the order of a distance `f`, and each element that is offered is
put into its place, for which the last one may fall out.  So the list always has the `k` nearest of all
elements that were offered.
-/

namespace KClosest

variable {α β : Type*} [LinearOrder β] {f : α → β} {k : ℕ} {x y : α} {l : List α}

/-! ## Places -/

/-- The place of an element: behind all nearer ones. -/
def place (f : α → β) (x : α) : List α → ℕ
  | [] => 0
  | y :: l => if f x ≤ f y then 0 else place f x l + 1

/-- The place divides a list that is in order. -/
theorem exists_place (sorted : l.Pairwise fun x y => f x < f y) (x : α) :
    ∃ front back, l = front ++ back ∧ front.length = place f x l ∧ (∀ y ∈ front, f y < f x) ∧
      ∀ y ∈ back, f x ≤ f y := by
  induction l with
  | nil => exact ⟨[], [], rfl, rfl, by simp, by simp⟩
  | cons y l ih =>
    rw [List.pairwise_cons] at sorted
    rw [place]
    split_ifs with here
    · refine ⟨[], y :: l, rfl, rfl, by simp, fun z mem => ?_⟩
      rcases List.mem_cons.1 mem with rfl | mem
      · exact here
      · exact here.trans (sorted.1 z mem).le
    · obtain ⟨front, back, rfl, length, before, after⟩ := ih sorted.2
      refine ⟨y :: front, back, rfl, by simp [length], fun z mem => ?_, after⟩
      rcases List.mem_cons.1 mem with rfl | mem
      · exact not_le.1 here
      · exact before z mem

theorem place_le (f : α → β) (x : α) (l : List α) : place f x l ≤ l.length := by
  induction l with
  | nil => exact le_rfl
  | cons y l ih =>
    rw [place]
    split_ifs <;> simp [ih]

/-- An element is in the list exactly if it is at its place. -/
theorem getElem?_place (sorted : l.Pairwise fun x y => f x < f y) :
    (∃ y, l[place f x l]? = some y ∧ f y = f x) ↔ ∃ y ∈ l, f y = f x := by
  obtain ⟨front, back, rfl, length, before, after⟩ := exists_place sorted x
  rw [← length, List.getElem?_append_right le_rfl, Nat.sub_self]
  constructor
  · rintro ⟨y, hy, same⟩
    exact ⟨y, List.mem_append_right _ (List.mem_of_getElem? hy), same⟩
  · rintro ⟨y, mem, same⟩
    rcases List.mem_append.1 mem with mem | mem
    · exact absurd same (before y mem).ne
    · obtain _ | ⟨z, back⟩ := back
      · cases mem
      refine ⟨z, rfl, le_antisymm ?_ (after z List.mem_cons_self)⟩
      rcases List.mem_cons.1 mem with rfl | mem
      · exact same.le
      · rw [List.pairwise_append, List.pairwise_cons] at sorted
        exact (sorted.2.1.1 y mem).le.trans same.le

theorem insertIdx_length_append (front back : List α) (x : α) :
    (front ++ back).insertIdx front.length x = front ++ x :: back := by
  induction front with
  | nil => rfl
  | cons y front ih => simp [ih]

/-- What is cut off from a list in order is behind all the rest. -/
theorem mem_take_or (sorted : l.Pairwise fun x y => f x < f y) (mem : x ∈ l) (k : ℕ) :
    x ∈ l.take k ∨ ((l.take k).length = k ∧ ∀ y ∈ l.take k, f y < f x) := by
  rw [← List.take_append_drop k l, List.mem_append] at mem
  rcases mem with mem | mem
  · exact Or.inl mem
  · have longer : k < l.length := by
      by_contra short
      rw [List.drop_eq_nil_of_le (not_lt.1 short)] at mem
      cases mem
    refine Or.inr ⟨List.length_take_of_le longer.le, fun y hy => ?_⟩
    rw [← List.take_append_drop k l, List.pairwise_append] at sorted
    exact sorted.2.2 y hy x mem

/-! ## The nearest -/

/-- The list has the `k` nearest of the elements of `S`, in order. -/
structure Closest (f : α → β) (k : ℕ) (S : Finset α) (l : List α) : Prop where
  sorted : l.Pairwise fun x y => f x < f y
  length_le : l.length ≤ k
  subset : ∀ x ∈ l, x ∈ S
  nearest : ∀ x ∈ S, (∃ y ∈ l, f y = f x) ∨ (l.length = k ∧ ∀ y ∈ l, f y < f x)

theorem closest_nil (f : α → β) (k : ℕ) : Closest f k ∅ [] :=
  ⟨List.Pairwise.nil, Nat.zero_le k, by simp, by simp⟩

variable [DecidableEq α] {S : Finset α}

/-- A list in order has the nearest of its own elements. -/
theorem closest_toFinset (sorted : l.Pairwise fun x y => f x < f y) (length_le : l.length ≤ k) :
    Closest f k l.toFinset l where
  sorted := sorted
  length_le := length_le
  subset _ mem := List.mem_toFinset.2 mem
  nearest x mem := Or.inl ⟨x, List.mem_toFinset.1 mem, rfl⟩

/-- An element that is as near as one in the list is not inserted. -/
theorem Closest.insert_known (h : Closest f k S l) (known : ∃ y ∈ l, f y = f x) :
    Closest f k (insert x S) l where
  sorted := h.sorted
  length_le := h.length_le
  subset y mem := Finset.mem_insert_of_mem (h.subset y mem)
  nearest y mem := by
    rcases Finset.mem_insert.1 mem with rfl | mem
    · exact Or.inl known
    · exact h.nearest y mem

/-- A new one is, and the last one falls out if there is no room. -/
theorem Closest.insert_new (h : Closest f k S l) (new : ∀ y ∈ l, f y ≠ f x) :
    Closest f k (insert x S) ((l.insertIdx (place f x l) x).take k) := by
  obtain ⟨front, back, rfl, length, before, after⟩ := exists_place h.sorted x
  rw [← length, insertIdx_length_append]
  have behind : ∀ y ∈ back, f x < f y := fun y mem =>
    lt_of_le_of_ne (after y mem) (new y (List.mem_append_right _ mem)).symm
  have sorted := h.sorted
  rw [List.pairwise_append] at sorted
  have whole : (front ++ x :: back).Pairwise fun x y => f x < f y := by
    refine List.pairwise_append.2 ⟨sorted.1, List.pairwise_cons.2 ⟨behind, sorted.2.1⟩, fun y hy z hz => ?_⟩
    rcases List.mem_cons.1 hz with rfl | hz
    · exact before y hy
    · exact sorted.2.2 y hy z hz
  refine ⟨whole.sublist (List.take_sublist _ _), by simp, fun y mem => ?_, fun y mem => ?_⟩
  · rcases List.mem_append.1 (List.mem_of_mem_take mem) with mem | mem
    · exact Finset.mem_insert_of_mem (h.subset y (List.mem_append_left _ mem))
    · rcases List.mem_cons.1 mem with rfl | mem
      · exact Finset.mem_insert_self _ _
      · exact Finset.mem_insert_of_mem (h.subset y (List.mem_append_right _ mem))
  · rcases Finset.mem_insert.1 mem with rfl | mem
    · rcases mem_take_or whole (x := y) (by simp) k with kept | cut
      · exact Or.inl ⟨y, kept, rfl⟩
      · exact Or.inr cut
    rcases h.nearest y mem with ⟨z, hz, same⟩ | ⟨full, nearer⟩
    · have hz : z ∈ front ++ x :: back := by
        simp only [List.mem_append, List.mem_cons] at hz ⊢
        tauto
      rcases mem_take_or whole hz k with kept | cut
      · exact Or.inl ⟨z, kept, same⟩
      · exact Or.inr (same ▸ cut)
    · -- the list was full, so that one element too many is in it
      obtain _ | ⟨last, back⟩ := back
      · rw [List.append_nil] at full nearer
        refine Or.inr ⟨by simp [full], fun z hz => ?_⟩
        rw [List.take_left' full] at hz
        exact nearer z hz
      · refine Or.inr ⟨by simp at full ⊢; omega, fun z hz => ?_⟩
        rcases List.mem_append.1 (List.mem_of_mem_take hz) with mem | mem
        · exact nearer z (List.mem_append_left _ mem)
        rcases List.mem_cons.1 mem with rfl | mem
        · exact (behind last List.mem_cons_self).trans (nearer last (by simp))
        · exact nearer z (List.mem_append_right _ mem)

/-- An element of the set is in the list exactly if fewer than `k` of them are nearer. -/
theorem Closest.mem_iff (h : Closest f k S l) (inj : Function.Injective f) :
    x ∈ l ↔ x ∈ S ∧ (S.filter fun y => f y < f x).card < k := by
  have nodup : l.Nodup := h.sorted.imp fun lt same => lt.ne (congrArg f same)
  constructor
  · intro mem
    refine ⟨h.subset x mem, ?_⟩
    have sub : insert x (S.filter fun y => f y < f x) ⊆ l.toFinset := by
      intro y hy
      rw [List.mem_toFinset]
      rcases Finset.mem_insert.1 hy with rfl | hy
      · exact mem
      · rw [Finset.mem_filter] at hy
        rcases h.nearest y hy.1 with ⟨z, hz, same⟩ | ⟨-, nearer⟩
        · exact inj same ▸ hz
        · exact absurd (nearer x mem) hy.2.asymm
    have card := Finset.card_le_card sub
    rw [Finset.card_insert_of_notMem (by simp)] at card
    exact card.trans ((List.toFinset_card_le l).trans h.length_le)
  · rintro ⟨mem, few⟩
    rcases h.nearest x mem with ⟨y, hy, same⟩ | ⟨full, nearer⟩
    · exact inj same ▸ hy
    · have sub : l.toFinset ⊆ S.filter fun y => f y < f x := by
        intro y hy
        rw [List.mem_toFinset] at hy
        exact Finset.mem_filter.2 ⟨h.subset y hy, nearer y hy⟩
      have card := Finset.card_le_card sub
      rw [List.toFinset_card_of_nodup nodup, full] at card
      exact absurd few (not_lt.2 card)

/-- There is only one list of the nearest. -/
theorem Closest.unique {l' : List α} (h : Closest f k S l) (h' : Closest f k S l') (inj : Function.Injective f) :
    l = l' := by
  have nodup {l : List α} (h : Closest f k S l) : l.Nodup :=
    h.sorted.imp fun lt same => lt.ne (congrArg f same)
  have perm : l.Perm l' := (List.perm_ext_iff_of_nodup (nodup h) (nodup h')).2 fun x => by
    rw [h.mem_iff inj, h'.mem_iff inj]
  exact perm.eq_of_pairwise (fun x y _ _ lt gt => absurd lt gt.asymm) h.sorted h'.sorted

end KClosest
