import Orcashi.Lib.CMemory
import Orcashi.Lib.Strstr

/-!
# Searching a text of lines

A text of lines that end in CR LF.  A needle with neither of the two is found in the first line that
contains it, and is then followed by the rest of that line and by the lines behind it.
-/

namespace CMemory

section Separator

variable {α : Type*} [DecidableEq α] {c : α} {needle t rest : List α}

omit [DecidableEq α] in
theorem prefix_append_cons_iff (hc : c ∉ needle) : needle <+: t ++ c :: rest ↔ needle <+: t := by
  induction needle generalizing t with
  | nil => simp
  | cons a needle ih =>
    cases t with
    | nil =>
      have ha : a ≠ c := fun e => hc (e ▸ List.mem_cons_self)
      simp [ha]
    | cons b t =>
      rw [List.cons_append, List.cons_prefix_cons, List.cons_prefix_cons,
        ih fun h => hc (List.mem_cons_of_mem a h)]

theorem strstr_nil (ne : needle ≠ []) : strstr needle ([] : List α) = none := if_neg ne

/-- A needle does not reach over a character that it does not have. -/
theorem strstr_append_cons (ne : needle ≠ []) (hc : c ∉ needle) :
    strstr needle (t ++ c :: rest) =
      (strstr needle t).elim (strstr needle rest) fun r => some (r ++ c :: rest) := by
  induction t with
  | nil =>
    have miss : ¬ needle <+: c :: rest := by
      intro h
      have empty : needle <+: [] := (prefix_append_cons_iff hc).1 h
      exact ne (List.prefix_nil.1 empty)
    rw [strstr_nil ne]
    exact if_neg miss
  | cons b t ih =>
    have same : needle <+: b :: (t ++ c :: rest) ↔ needle <+: b :: t :=
      @prefix_append_cons_iff _ c needle (b :: t) rest hc
    rw [List.cons_append]
    rw [strstr, strstr]
    by_cases here : needle <+: b :: t
    · rw [if_pos here, if_pos (same.2 here)]
      rfl
    · rw [if_neg here, if_neg fun h => here (same.1 h), ih]

theorem strstr_singleton (h : c ∉ t) : strstr [c] (t ++ c :: rest) = some (c :: rest) := by
  rw [strstr_append h, strstr, if_pos ((List.cons_prefix_cons.2 ⟨rfl, List.nil_prefix⟩))]

theorem strstr_eq_none_of_not_mem (h : c ∉ t) : strstr [c] t = none := by
  rw [← Option.not_isSome_iff_eq_none, strstr_isSome_iff, List.singleton_infix_iff]
  exact h

end Separator

/-- The text of these lines. -/
def ofLines (lines : List CString) : CString := lines.flatMap (· ++ [13, 10])

/-- What can be found in a line only. -/
structure InLine (needle : CString) : Prop where
  ne_nil : needle ≠ []
  cr : 13 ∉ needle
  lf : 10 ∉ needle

/-- A line is not ended and the text is not ended in it. -/
structure IsTextLine (line : CString) : Prop where
  nul : 0 ∉ line
  cr : 13 ∉ line
  lf : 10 ∉ line

variable {needle line rest r : CString} {lines before behind : List CString}

theorem ofLines_append (a b : List CString) : ofLines (a ++ b) = ofLines a ++ ofLines b :=
  List.flatMap_append

theorem ofLines_cons (line : CString) (lines : List CString) :
    ofLines (line :: lines) = line ++ 13 :: 10 :: ofLines lines := by
  unfold ofLines
  rw [List.flatMap_cons, List.append_assoc]
  rfl

theorem nul_not_mem_ofLines (h : ∀ line ∈ lines, IsTextLine line) : 0 ∉ ofLines lines := by
  intro nul
  obtain ⟨line, mem, here⟩ := List.mem_flatMap.1 nul
  rcases List.mem_append.1 here with inside | end_
  · exact (h line mem).nul inside
  · revert end_
    decide

/-- A needle is searched in a line, then behind it. -/
theorem strstr_line (word : InLine needle) (line rest : CString) :
    strstr needle (line ++ 13 :: 10 :: rest) =
      (strstr needle line).elim (strstr needle rest) fun r => some (r ++ 13 :: 10 :: rest) := by
  have feed : strstr needle (10 :: rest) = strstr needle rest := by
    have search := @strstr_append_cons _ _ 10 needle [] rest word.ne_nil word.lf
    rwa [strstr_nil word.ne_nil] at search
  rw [strstr_append_cons word.ne_nil word.cr, feed]

theorem strstr_ofLines_none (word : InLine needle) (h : ∀ line ∈ lines, strstr needle line = none)
    (rest : CString) : strstr needle (ofLines lines ++ rest) = strstr needle rest := by
  induction lines with
  | nil => rfl
  | cons line lines ih =>
    rw [ofLines_cons, List.append_assoc, List.cons_append, List.cons_append, strstr_line word,
      h line List.mem_cons_self]
    exact ih fun l hl => h l (List.mem_cons_of_mem line hl)

/-- The first line with the needle is where it is found. -/
theorem strstr_ofLines_some (word : InLine needle) (h : ∀ line ∈ before, strstr needle line = none)
    (found : strstr needle line = some r) (rest : CString) :
    strstr needle (ofLines (before ++ line :: behind) ++ rest) =
      some (r ++ 13 :: 10 :: (ofLines behind ++ rest)) := by
  rw [ofLines_append, ofLines_cons, List.append_assoc, strstr_ofLines_none word h, List.append_assoc,
    List.cons_append, List.cons_append, strstr_line word, found, Option.elim_some]

/-- Where the needle is found in the first line that contains it. -/
def firstFound (needle : CString) (lines : List CString) : Option CString := lines.findSome? (strstr needle)

theorem firstFound_eq_none_iff : firstFound needle lines = none ↔ ∀ line ∈ lines, strstr needle line = none :=
  List.findSome?_eq_none_iff

/-- A search in lines and what stands behind them. -/
theorem strstr_ofLines (word : InLine needle) (lines : List CString) (rest : CString) :
    (firstFound needle lines = none ∧ strstr needle (ofLines lines ++ rest) = strstr needle rest) ∨
    ∃ r tail, firstFound needle lines = some r ∧ (∃ line ∈ lines, strstr needle line = some r) ∧
      strstr needle (ofLines lines ++ rest) = some (r ++ 13 :: 10 :: tail) := by
  cases found : firstFound needle lines with
  | none => exact Or.inl ⟨rfl, strstr_ofLines_none word (firstFound_eq_none_iff.1 found) rest⟩
  | some r =>
    obtain ⟨before, line, behind, rfl, here, first⟩ := List.findSome?_eq_some_iff.1 found
    exact Or.inr ⟨r, _, rfl, ⟨line, List.mem_append_right _ List.mem_cons_self, here⟩,
      strstr_ofLines_some word first here rest⟩

theorem IsTextLine.of_sublist (h : IsTextLine line) (part : r.Sublist line) : IsTextLine r where
  nul mem := h.nul (part.subset mem)
  cr mem := h.cr (part.subset mem)
  lf mem := h.lf (part.subset mem)

end CMemory
