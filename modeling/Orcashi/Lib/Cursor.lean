import Mathlib.Data.List.Basic
import Mathlib.Tactic.Common

/-!
# Pointers into a table

A program that scans an array and keeps a pointer to the entry it found is modelled by a cursor:
the entries before, the entry itself and the entries after.  Writing through the pointer replaces
the entry and nothing else, which is what the frame lemmas say.
-/

/-- A position in a list. -/
structure Cursor (α : Type*) where
  before : List α
  val : α
  after : List α

namespace Cursor

variable {α β : Type*}

/-- The list a cursor points into. -/
def toList (c : Cursor α) : List α := c.before ++ c.val :: c.after

/-- Write through the pointer. -/
def set (c : Cursor α) (a : α) : Cursor α := { c with val := a }

/-- The list without the entry the cursor points to. -/
def erase (c : Cursor α) : List α := c.before ++ c.after

/-- The first entry that satisfies `p`. -/
def find (p : α → Bool) : List α → Option (Cursor α)
  | [] => none
  | a :: l =>
    if p a then some ⟨[], a, l⟩
    else (find p l).map fun c => { c with before := a :: c.before }

@[simp] theorem set_val (c : Cursor α) (a : α) : (c.set a).val = a := rfl

@[simp] theorem set_before (c : Cursor α) (a : α) : (c.set a).before = c.before := rfl

@[simp] theorem set_after (c : Cursor α) (a : α) : (c.set a).after = c.after := rfl

@[simp] theorem set_set (c : Cursor α) (a b : α) : (c.set a).set b = c.set b := rfl

theorem mem_toList {c : Cursor α} {a : α} :
    a ∈ c.toList ↔ a ∈ c.before ∨ a = c.val ∨ a ∈ c.after := by
  simp [toList]

theorem val_mem_toList (c : Cursor α) : c.val ∈ c.toList := mem_toList.2 (Or.inr (Or.inl rfl))

/-- What a search finds is in the list and is the first entry that satisfies `p`. -/
theorem find_eq_some {p : α → Bool} {l : List α} {c : Cursor α} (h : find p l = some c) :
    c.toList = l ∧ p c.val = true ∧ ∀ a ∈ c.before, p a = false := by
  induction l generalizing c with
  | nil => cases h
  | cons a l ih =>
    unfold find at h
    split_ifs at h with hp
    · obtain rfl := Option.some.inj h
      exact ⟨rfl, hp, by simp⟩
    · obtain ⟨d, hd, rfl⟩ := Option.map_eq_some_iff.1 h
      obtain ⟨hl, hv, hb⟩ := ih hd
      refine ⟨?_, hv, ?_⟩
      · rw [← hl]
        rfl
      · intro b hmem
        rcases List.mem_cons.1 hmem with rfl | hmem
        · simpa using hp
        · exact hb b hmem

theorem toList_of_find {p : α → Bool} {l : List α} {c : Cursor α} (h : find p l = some c) :
    c.toList = l :=
  (find_eq_some h).1

/-- The first entry that satisfies `p` is the one a search finds. -/
theorem find_toList {p : α → Bool} {c : Cursor α} (hv : p c.val = true)
    (hb : ∀ a ∈ c.before, p a = false) : find p c.toList = some c := by
  obtain ⟨before, a, after⟩ := c
  simp only [toList] at hv hb ⊢
  induction before with
  | nil => simp [find, hv]
  | cons b before ih =>
    rw [List.cons_append, find, if_neg (by simp [hb b List.mem_cons_self]),
      ih fun x hx => hb x (List.mem_cons_of_mem b hx)]
    rfl

/-- A search finds its own write. -/
theorem find_toList_set {p : α → Bool} {l : List α} {c : Cursor α} (h : find p l = some c) {a : α}
    (ha : p a = true) : find p (c.set a).toList = some (c.set a) :=
  find_toList ha (find_eq_some h).2.2

theorem find_eq_none_iff {p : α → Bool} {l : List α} :
    find p l = none ↔ ∀ a ∈ l, p a = false := by
  induction l with
  | nil => simp [find]
  | cons a l ih =>
    unfold find
    split_ifs with hp
    · simp [hp]
    · simp [ih, hp]

/-- A search meets what was added last only if it finds nothing before. -/
theorem find_concat (p : α → Bool) (l : List α) (a : α) :
    find p (l ++ [a]) =
      match find p l with
      | some c => some { c with after := c.after ++ [a] }
      | none => if p a then some ⟨l, a, []⟩ else none := by
  induction l with
  | nil =>
    rw [List.nil_append]
    unfold find
    rfl
  | cons b l ih =>
    rw [List.cons_append]
    by_cases hp : p b = true
    · rw [find, find, if_pos hp, if_pos hp]
    · rw [find, find, if_neg hp, if_neg hp, ih]
      cases find p l with
      | some c => rfl
      | none =>
        dsimp only [Option.map_none]
        split_ifs <;> rfl

/-- A search for the entry alone. -/
theorem map_val_find (p : α → Bool) (l : List α) : (find p l).map val = l.find? p := by
  induction l with
  | nil => rfl
  | cons a l ih =>
    unfold find
    split_ifs with hp
    · rw [List.find?_cons_of_pos hp]
      rfl
    · rw [List.find?_cons_of_neg hp, ← ih, Option.map_map]
      rfl

/-- A write that stays outside `q` leaves the entries in `q` as they are. -/
theorem filter_toList_set {q : α → Bool} {c : Cursor α} {a : α} (hv : q c.val = false)
    (ha : q a = false) : (c.set a).toList.filter q = c.toList.filter q := by
  simp [toList, hv, ha]

theorem filter_erase {q : α → Bool} {c : Cursor α} (hv : q c.val = false) :
    c.erase.filter q = c.toList.filter q := by
  simp [toList, erase, hv]

/-- A write at the position of a cursor. -/
theorem modify_toList (c : Cursor α) (f : α → α) :
    c.toList.modify c.before.length f = (c.set (f c.val)).toList := by
  obtain ⟨before, a, after⟩ := c
  unfold toList set
  dsimp only
  induction before with
  | nil => rfl
  | cons b before ih =>
    rw [List.cons_append, List.length_cons, List.modify_succ_cons, ih]
    rfl

/-- A write that keeps a key keeps the list of keys. -/
theorem map_toList_set {key : α → β} {c : Cursor α} {a : α} (h : key a = key c.val) :
    (c.set a).toList.map key = c.toList.map key := by
  simp [toList, h]

/-- A write keeps the list if it writes what was there. -/
theorem toList_prefix_set_iff {c : Cursor α} {a : α} :
    c.toList <+: (c.set a).toList ↔ a = c.val := by
  constructor
  · intro h
    have same := h.eq_of_length (by simp [toList])
    simp only [toList, set_val, set_before, set_after] at same
    exact (List.cons.inj (List.append_cancel_left same)).1.symm
  · rintro rfl
    exact List.prefix_rfl

/-- The index a cursor stands for. -/
theorem getElem?_toList (c : Cursor α) : c.toList[c.before.length]? = some c.val := by
  simp [toList]

theorem mem_toList_set {c : Cursor α} {a b : α} (h : b ∈ (c.set a).toList) :
    b = a ∨ b ∈ c.before ∨ b ∈ c.after := by
  rcases mem_toList.1 h with h | h | h
  · exact Or.inr (Or.inl h)
  · exact Or.inl h
  · exact Or.inr (Or.inr h)

/-- Where keys are not repeated, the other entries have other keys. -/
theorem key_ne_of_nodup {key : α → β} {c : Cursor α} (h : (c.toList.map key).Nodup) {b : α}
    (hb : b ∈ c.before ∨ b ∈ c.after) : key b ≠ key c.val := by
  simp only [toList, List.map_append, List.map_cons] at h
  rw [List.nodup_append] at h
  obtain ⟨-, hafter, hdisj⟩ := h
  rcases hb with hb | hb
  · exact hdisj _ (List.mem_map_of_mem hb) _ List.mem_cons_self
  · intro he
    exact (List.nodup_cons.1 hafter).1 (he ▸ List.mem_map_of_mem hb)

/-- Where keys are not repeated, a search by the key finds the entry that has it. -/
theorem key_eq_iff_of_nodup {key : α → β} {c : Cursor α} (h : (c.toList.map key).Nodup) {i : ℕ} {a : α}
    (hi : c.toList[i]? = some a) : key a = key c.val ↔ i = c.before.length := by
  constructor
  · intro same
    have here : (c.toList.map key)[c.before.length]? = some (key a) := by
      rw [List.getElem?_map, getElem?_toList, same]
      rfl
    have there : (c.toList.map key)[i]? = some (key a) := by
      rw [List.getElem?_map, hi]
      rfl
    have bound := (List.getElem?_eq_some_iff.1 there).1
    exact (List.getElem?_inj bound h).1 (there.trans here.symm)
  · rintro rfl
    rw [getElem?_toList] at hi
    rw [Option.some.inj hi]

end Cursor
