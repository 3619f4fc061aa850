import Mathlib.Data.List.Infix
import Mathlib.Tactic.Common

/-!
# Searching a text for a text

`strstr` finds where a needle occurs first, and gives the text from there on; `behind` gives what stands
behind the first occurrence of a character.  A needle between quotes is found where a text between the
same quotes is equal to it.
-/

namespace CMemory

variable {α : Type*} [DecidableEq α]

/-- The rest of the text from the first occurrence of the needle on. -/
def strstr (needle : List α) : List α → Option (List α)
  | [] => if needle = [] then some [] else none
  | c :: text => if needle <+: c :: text then some (c :: text) else strstr needle text

/-- The text behind the first `c`: `strchr(text, c) + 1`. -/
def behind (c : α) : List α → Option (List α)
  | [] => none
  | b :: text => if b = c then some text else behind c text

variable {c q : α} {key t text rest : List α}

theorem behind_append (h : c ∉ t) : behind c (t ++ text) = behind c text := by
  induction t with
  | nil => rfl
  | cons b t ih =>
    have hb : b ≠ c := fun e => h (e ▸ List.mem_cons_self)
    rw [List.cons_append, behind, if_neg hb, ih fun hc => h (List.mem_cons_of_mem b hc)]

theorem behind_cons_self : behind c (c :: text) = some text := if_pos rfl

theorem behind_cons_ne (h : q ≠ c) : behind c (q :: text) = behind c text := if_neg h

/-- What a needle begins with does not occur in a text the search passes. -/
theorem strstr_append (h : q ∉ t) : strstr (q :: key) (t ++ text) = strstr (q :: key) text := by
  induction t with
  | nil => rfl
  | cons b t ih =>
    have miss : ¬ q :: key <+: b :: (t ++ text) := by
      intro hp
      exact h ((List.cons_prefix_cons.1 hp).1 ▸ List.mem_cons_self)
    rw [List.cons_append, strstr, if_neg miss, ih fun hc => h (List.mem_cons_of_mem b hc)]

omit [DecidableEq α] in
/-- Up to their closing quotes two texts agree only if they are equal. -/
theorem append_quote_prefix_iff (hkey : q ∉ key) (ht : q ∉ t) :
    key ++ [q] <+: t ++ q :: rest ↔ t = key := by
  induction key generalizing t with
  | nil =>
    cases t with
    | nil => simp
    | cons b t =>
      have hb : q ≠ b := fun e => ht (e ▸ List.mem_cons_self)
      simp [hb]
  | cons a key ih =>
    have ha : a ≠ q := fun e => hkey (e ▸ List.mem_cons_self)
    cases t with
    | nil => simp [ha]
    | cons b t =>
      have inner := ih (t := t) (fun h => hkey (List.mem_cons_of_mem a h))
        fun h => ht (List.mem_cons_of_mem b h)
      rw [List.cons_append, List.cons_append, List.cons_prefix_cons, inner, List.cons_eq_cons]
      exact and_congr_left fun _ => eq_comm

/-- A search for a quoted key looks at one quoted text after the other. -/
theorem strstr_quoted (hkey : q ∉ key) (ht : q ∉ t) :
    strstr (q :: (key ++ [q])) (q :: (t ++ q :: rest)) =
      if t = key then some (q :: (t ++ q :: rest)) else strstr (q :: (key ++ [q])) (q :: rest) := by
  have here : q :: (key ++ [q]) <+: q :: (t ++ q :: rest) ↔ t = key := by
    rw [List.cons_prefix_cons, append_quote_prefix_iff hkey ht]
    exact and_iff_right rfl
  rw [strstr]
  by_cases h : t = key
  · rw [if_pos h, if_pos (here.2 h)]
  · rw [if_neg h, if_neg fun hp => h (here.1 hp), strstr_append ht]

theorem strstr_isSome_iff {needle : List α} : (strstr needle text).isSome = true ↔ needle <:+: text := by
  induction text with
  | nil =>
    unfold strstr
    split_ifs with h <;> simp [h]
  | cons c text ih =>
    unfold strstr
    rw [List.infix_cons_iff]
    split_ifs with h
    · simp [h]
    · rw [ih]
      simp [h]

/-- What is found is the end of the text, and begins with the needle. -/
theorem strstr_eq_some {needle : List α} (h : strstr needle text = some rest) :
    needle <+: rest ∧ rest <:+ text := by
  induction text with
  | nil =>
    unfold strstr at h
    split_ifs at h with empty
    obtain rfl := Option.some.inj h
    exact ⟨empty ▸ List.prefix_rfl, List.suffix_rfl⟩
  | cons c text ih =>
    unfold strstr at h
    split_ifs at h with here
    · obtain rfl := Option.some.inj h
      exact ⟨here, List.suffix_rfl⟩
    · obtain ⟨begins, ends⟩ := ih h
      exact ⟨begins, ends.trans (List.suffix_cons c text)⟩

end CMemory
