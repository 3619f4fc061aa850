import Mathlib.Data.List.Nodup
import Orcashi.Lib.Cursor

/-!
# Finite maps that remember the order of insertion

A map from keys to values whose entries stand in the order in which their keys were inserted; an
insertion comes last, an update stays in place.  A program that keeps only the values, each of
which knows its key, and scans them for a key works on such a map: `find_values` says that the scan
is the map's lookup and that writing through its result, or taking it out, is the map's update, or
erasure.
-/

/-- Entries with distinct keys. -/
structure OrderedMap (κ α : Type*) where
  entries : List (κ × α)
  nodup : (entries.map Prod.fst).Nodup

namespace OrderedMap

variable {κ α : Type*}

/-- The map without keys. -/
def empty : OrderedMap κ α := ⟨[], List.nodup_nil⟩

/-- The keys, in the order in which they came. -/
def keys (m : OrderedMap κ α) : List κ := m.entries.map Prod.fst

/-- The values, in the order of their keys. -/
def values (m : OrderedMap κ α) : List α := m.entries.map Prod.snd

/-- The number of keys. -/
def size (m : OrderedMap κ α) : ℕ := m.entries.length

/-- Append an entry for a new key. -/
def insert (m : OrderedMap κ α) (k : κ) (a : α) (new : k ∉ m.keys) : OrderedMap κ α where
  entries := m.entries ++ [(k, a)]
  nodup := by
    rw [List.map_append, List.nodup_append]
    refine ⟨m.nodup, List.nodup_singleton _, ?_⟩
    intro j hj j' hk hjj
    have hjk : j = k := hjj.trans (List.mem_singleton.1 hk)
    exact new (hjk ▸ hj)

theorem values_insert {m : OrderedMap κ α} {k : κ} {a : α} (new : k ∉ m.keys) :
    (m.insert k a new).values = m.values ++ [a] := by
  simp [values, insert]

variable [DecidableEq κ]

/-- The value of a key. -/
def lookup (m : OrderedMap κ α) (k : κ) : Option α := m.entries.lookup k

/-- Replace the value of a key by a function of it. -/
def modify (m : OrderedMap κ α) (k : κ) (f : α → α) : OrderedMap κ α where
  entries := m.entries.map fun e => (e.1, if e.1 = k then f e.2 else e.2)
  nodup := by
    rw [List.map_map]
    exact m.nodup

/-- The map without a key. -/
def erase (m : OrderedMap κ α) (k : κ) : OrderedMap κ α where
  entries := m.entries.filter fun e => e.1 ≠ k
  nodup := (List.Sublist.map _ List.filter_sublist).nodup m.nodup

variable {m : OrderedMap κ α} {j k : κ}

theorem values_modify (f : α → α) :
    (m.modify k f).values = m.entries.map fun e => if e.1 = k then f e.2 else e.2 := by
  simp [values, modify, Function.comp_def]

theorem values_erase :
    (m.erase k).values = (m.entries.filter fun e => decide (e.1 ≠ k)).map Prod.snd := rfl

theorem modify_of_not_mem {f : α → α} (h : k ∉ m.keys) : m.modify k f = m := by
  have same : m.entries.map (fun e => (e.1, if e.1 = k then f e.2 else e.2)) = m.entries := by
    conv_rhs => rw [← List.map_id m.entries]
    apply List.map_congr_left
    intro e he
    have hne : e.1 ≠ k := fun hk => h (hk ▸ List.mem_map_of_mem he)
    rw [if_neg hne]
    rfl
  obtain ⟨entries, nodup⟩ := m
  unfold modify
  congr 1

/-! ## Lookups after an operation -/

theorem lookup_insert_ne {a : α} {new : k ∉ m.keys} (h : j ≠ k) :
    (m.insert k a new).lookup j = m.lookup j := by
  have other : [(k, a)].lookup j = none := by
    simpa using h
  show (m.entries ++ [(k, a)]).lookup j = m.entries.lookup j
  rw [List.lookup_append, other, Option.or_none]

theorem lookup_modify_ne {f : α → α} (h : j ≠ k) : (m.modify k f).lookup j = m.lookup j := by
  show (m.entries.map fun e => (e.1, if e.1 = k then f e.2 else e.2)).lookup j = m.entries.lookup j
  induction m.entries with
  | nil => rfl
  | cons e l ih =>
    rw [List.map_cons, List.lookup_cons, ih, List.lookup_cons]
    cases hj : j == e.1 with
    | false => rfl
    | true =>
      have hne : e.1 ≠ k := fun hk => h ((eq_of_beq hj).trans hk)
      rw [if_neg hne]

theorem lookup_erase_ne (h : j ≠ k) : (m.erase k).lookup j = m.lookup j := by
  show (m.entries.filter fun e => decide (e.1 ≠ k)).lookup j = m.entries.lookup j
  induction m.entries with
  | nil => rfl
  | cons e l ih =>
    by_cases hk : e.1 = k
    · have hj : (j == e.1) = false := beq_eq_false_iff_ne.2 fun hj => h (hj.trans hk)
      rw [List.filter_cons_of_neg (by simp [hk]), ih, List.lookup_cons, hj]
    · rw [List.filter_cons_of_pos (by simp [hk]), List.lookup_cons, List.lookup_cons, ih]

theorem lookup_erase_self : (m.erase k).lookup k = none := by
  apply List.lookup_eq_none_iff.2
  intro e he
  have other := of_decide_eq_true (List.mem_filter.1 he).2
  exact bne_iff_ne.2 fun hk => other hk.symm

/-! ## Scans of the values -/

theorem lookup_eq_none_iff : m.lookup k = none ↔ k ∉ m.keys := by
  unfold lookup keys
  rw [List.lookup_eq_none_iff, List.mem_map]
  constructor
  · rintro none ⟨e, he, rfl⟩
    simpa using none e he
  · intro none e he
    exact bne_iff_ne.2 fun hk => none ⟨e, he, hk.symm⟩

theorem mem_keys_of_lookup {a : α} (h : m.lookup k = some a) : k ∈ m.keys := by
  by_contra absent
  rw [lookup_eq_none_iff.2 absent] at h
  cases h

/-- An entry found for a key, with the entries before and after it. -/
theorem entries_of_lookup {a : α} (h : m.lookup k = some a) :
    ∃ l₁ l₂, m.entries = l₁ ++ (k, a) :: l₂ ∧ (∀ e ∈ l₁, e.1 ≠ k) ∧ ∀ e ∈ l₂, e.1 ≠ k := by
  obtain ⟨l₁, l₂, hl, before⟩ := List.lookup_eq_some_iff.1 h
  refine ⟨l₁, l₂, hl, ?_, ?_⟩
  · intro e he hk
    simpa [hk] using before e he
  · intro e he hk
    have hnodup := m.nodup
    rw [hl, List.map_append, List.map_cons, List.nodup_append] at hnodup
    have hmem : k ∈ l₂.map Prod.fst := List.mem_map.2 ⟨e, he, hk⟩
    exact (List.nodup_cons.1 hnodup.2.1).1 hmem

/-- A scan of the values for a key. -/
theorem find_values {p : α → Bool} (reads : ∀ e ∈ m.entries, p e.2 = true ↔ e.1 = k) :
    (m.lookup k = none ∧ Cursor.find p m.values = none) ∨
      ∃ c, m.lookup k = some c.val ∧ Cursor.find p m.values = some c ∧
        (∀ f : α → α, (c.set (f c.val)).toList = (m.modify k f).values) ∧
        c.erase = (m.erase k).values := by
  cases hk : m.lookup k with
  | none =>
    refine Or.inl ⟨rfl, Cursor.find_eq_none_iff.2 ?_⟩
    rintro a ha
    obtain ⟨e, he, rfl⟩ := List.mem_map.1 ha
    rw [← Bool.not_eq_true, reads e he]
    rintro rfl
    exact lookup_eq_none_iff.1 hk (List.mem_map_of_mem he)
  | some a =>
    obtain ⟨l₁, l₂, hl, before, after⟩ := entries_of_lookup hk
    let c : Cursor α := ⟨l₁.map Prod.snd, a, l₂.map Prod.snd⟩
    have values : m.values = c.toList := by
      unfold OrderedMap.values
      rw [hl, List.map_append, List.map_cons]
      rfl
    -- the entries before and after have other keys, so only the one found is touched
    refine Or.inr ⟨c, rfl, ?_, ?_, ?_⟩
    · rw [values]
      apply Cursor.find_toList
      · exact (reads (k, a) (hl ▸ List.mem_append_right _ List.mem_cons_self)).2 rfl
      · intro b hb
        obtain ⟨e, he, rfl⟩ := List.mem_map.1 hb
        rw [← Bool.not_eq_true, reads e (hl ▸ List.mem_append_left _ he)]
        exact before e he
    · intro f
      have same : ∀ l : List (κ × α), (∀ e ∈ l, e.1 ≠ k) →
          l.map (fun e => if e.1 = k then f e.2 else e.2) = l.map Prod.snd :=
        fun l hne => List.map_congr_left fun e he => if_neg (hne e he)
      rw [values_modify, hl, List.map_append, List.map_cons, same l₁ before, same l₂ after,
        if_pos rfl]
      rfl
    · have keep : ∀ l : List (κ × α), (∀ e ∈ l, e.1 ≠ k) →
          l.filter (fun e => decide (e.1 ≠ k)) = l :=
        fun l hne => List.filter_eq_self.2 fun e he => decide_eq_true (hne e he)
      rw [values_erase, hl, List.filter_append, List.filter_cons_of_neg (by simp), keep l₁ before,
        keep l₂ after, List.map_append]
      rfl

end OrderedMap
