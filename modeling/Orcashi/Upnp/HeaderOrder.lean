import Orcashi.Lib.StringCopy
import Orcashi.Upnp.Client

/-!
# The order of the headers

An SSDP answer is a status line and header lines in some order.  In place of the text, the parser can be
seen to work on the lines: it finds the first line with a location, and what it reads of the other headers
is what stands in lines before that one.
-/

namespace Orcashi

open CMemory FlatJson

/-! ## Answers -/

/-- An answer with 200 OK: its status line and its header lines. -/
structure SsdpResponse where
  status : CString
  ok : status = ascii "HTTP/1.1 200 OK" ∨ status = ascii "HTTP/1.0 200 OK"
  lines : List CString
  isLine : ∀ line ∈ lines, IsTextLine line

/-- The answer with its headers in this order. -/
def SsdpResponse.text (r : SsdpResponse) (order : List CString) : CString :=
  ofLines (r.status :: order) ++ [13, 10]

/-- What the parser makes of the answer with its headers in this order, as `upnp_detect` calls it. -/
def parseInOrder (now : Time) (r : SsdpResponse) (order : List CString) : ℤ × UPnPGatewayInfo :=
  upnpParseResponse now (r.text order ++ [0]) (r.text order).length .zero

/-! ## The lines -/

/-- What the block of the SERVER header makes of a text that ends in the line `last`. -/
def serverOf (before : List CString) (last : CString) : CString :=
  match firstFound (ascii "SERVER:") before with
  | some r => cut 128 (skipName 7 r)
  | none =>
    if (strstr (ascii "SERVER:") last).isSome then []
    else (firstFound (ascii "Server:") before).elim [] fun r => cut 128 (skipName 7 r)

/-- What stands behind the first `::` of these lines. -/
def modelIn (lines : List CString) : CString :=
  (firstFound (ascii "::") lines).elim [] fun r => cut 64 (r.drop 2)

/-- What the block of the USN header makes of a text that ends in another line. -/
def modelOf : List CString → CString
  | [] => []
  | line :: lines =>
    (strstr (ascii "USN:") line).elim (modelOf lines) fun r => modelIn (skipName 4 r :: lines)

/-- The name under which the location is found. -/
def locationName (lines : List CString) : CString :=
  if (firstFound (ascii "LOCATION:") lines).isSome then ascii "LOCATION:" else ascii "Location:"

/-- The host of the URL in a line. -/
def hostIn (name line : CString) : Option CString :=
  (strstr name line).bind fun r =>
    (strstr (ascii "http://") (skipName 9 r)).map fun url => hostPart (url.drop 7)

section Words

theorem inLine_server : InLine (ascii "SERVER:") := ⟨by decide, by decide, by decide⟩

theorem inLine_Server : InLine (ascii "Server:") := ⟨by decide, by decide, by decide⟩

theorem inLine_usn : InLine (ascii "USN:") := ⟨by decide, by decide, by decide⟩

theorem inLine_colons : InLine (ascii "::") := ⟨by decide, by decide, by decide⟩

theorem inLine_location : InLine (ascii "LOCATION:") := ⟨by decide, by decide, by decide⟩

theorem inLine_Location : InLine (ascii "Location:") := ⟨by decide, by decide, by decide⟩

theorem inLine_locationName (lines : List CString) : InLine (locationName lines) := by
  unfold locationName
  split_ifs
  · exact inLine_location
  · exact inLine_Location

theorem length_locationName (lines : List CString) : (locationName lines).length = 9 := by
  unfold locationName
  split_ifs <;> rfl

end Words

section Blocks

variable {before : List CString} {last r needle : CString}

theorem isTextLine_behind {line : CString} (h : IsTextLine line) (here : strstr needle line = some r) :
    IsTextLine r :=
  h.of_sublist (sublist_of_strstr here)

theorem isTextLine_found {lines : List CString} (h : ∀ line ∈ lines, IsTextLine line)
    (found : ∃ line ∈ lines, strstr needle line = some r) : IsTextLine r := by
  obtain ⟨line, mem, here⟩ := found
  exact isTextLine_behind (h line mem) here

theorem isTextLine_value {line : CString} (h : IsTextLine line) (here : strstr needle line = some r)
    (n : ℕ) : IsTextLine (skipName n r) :=
  (isTextLine_behind h here).of_sublist (skipName_sublist n r)

theorem length_found {lines : List CString} (found : ∃ line ∈ lines, strstr needle line = some r) :
    needle.length ≤ r.length := by
  obtain ⟨line, -, here⟩ := found
  exact length_le_of_strstr here

/-- The block of the SERVER header reads the lines before the last. -/
theorem parseServer_ofLines (hb : ∀ line ∈ before, IsTextLine line) (hl : IsTextLine last)
    (info : UPnPGatewayInfo) (unset : info.server = []) :
    parseServer (ofLines before ++ last) info = { info with server := serverOf before last } := by
  have same : info = { info with server := [] } := by rw [← unset]
  have copied {name r tail : CString} (found : ∃ line ∈ before, strstr name line = some r)
      (length : name.length = 7) :
      upToLineEnd (((r ++ 13 :: tail).drop 7).dropWhile isBlank) = some (skipName 7 r) := by
    rw [skipName_append (length ▸ length_found found)]
    exact upToLineEnd_cons ((isTextLine_found hb found).of_sublist (skipName_sublist 7 r)).cr tail
  have ends {name r : CString} (found : strstr name last = some r) :
      upToLineEnd ((r.drop 7).dropWhile isBlank) = none :=
    upToLineEnd_eq_none (isTextLine_value hl found 7)
  unfold parseServer serverOf
  dsimp only
  rcases strstr_ofLines inLine_server before last with ⟨absent, search⟩ | ⟨r, tail, first, found, search⟩
  · rw [absent, search]
    dsimp only
    cases inLast : strstr (ascii "SERVER:") last with
    | some r =>
      rw [Option.isSome_some, if_pos rfl, Option.some_or, Option.bind_eq_bind, Option.bind_some,
        ends inLast]
      exact same
    | none =>
      rw [Option.isSome_none, if_neg Bool.false_ne_true, Option.none_or]
      rcases strstr_ofLines inLine_Server before last with
        ⟨absent', search'⟩ | ⟨r, tail, first, found, search'⟩
      · rw [absent', search']
        cases inLast' : strstr (ascii "Server:") last with
        | none => exact same
        | some r =>
          rw [Option.bind_eq_bind, Option.bind_some, ends inLast']
          exact same
      · rw [first, search', Option.bind_eq_bind, Option.bind_some, copied found rfl]
        rfl
  · rw [first, search, Option.some_or, Option.bind_eq_bind, Option.bind_some, copied found rfl]
    rfl

/-- The block of the USN header reads the lines before the last. -/
theorem parseUsn_ofLines (hb : ∀ line ∈ before, IsTextLine line) (hl : IsTextLine last)
    (info : UPnPGatewayInfo) (unset : info.model = []) :
    parseUsn (ofLines before ++ last) info = { info with model := modelOf before } := by
  have same : info = { info with model := [] } := by rw [← unset]
  have ends {name t r : CString} (n : ℕ) (ht : IsTextLine t) (found : strstr name t = some r) :
      upToLineEnd (r.drop n) = none :=
    upToLineEnd_eq_none ((isTextLine_behind ht found).of_sublist (List.drop_sublist n r))
  induction before with
  | nil =>
    unfold parseUsn
    rw [show ofLines [] ++ last = last from rfl]
    dsimp only
    cases usn : strstr (ascii "USN:") last with
    | none => exact same
    | some r =>
      have value := isTextLine_value hl usn 4
      rw [Option.bind_eq_bind, Option.bind_some]
      cases colons : strstr (ascii "::") (skipName 4 r) with
      | none =>
        rw [show (r.drop 4).dropWhile isBlank = skipName 4 r from rfl, colons]
        exact same
      | some m =>
        rw [show (r.drop 4).dropWhile isBlank = skipName 4 r from rfl, colons,
          Option.bind_some, ends 2 value colons]
        exact same
  | cons line lines ih =>
    have rest := ih fun l mem => hb l (List.mem_cons_of_mem line mem)
    unfold parseUsn at rest ⊢
    dsimp only at rest ⊢
    rw [ofLines_cons, List.append_assoc, List.cons_append, List.cons_append, strstr_line inLine_usn, modelOf]
    cases usn : strstr (ascii "USN:") line with
    | none => exact rest
    | some r =>
      have value := isTextLine_value (hb line List.mem_cons_self) usn 4
      have lines_ : ∀ l ∈ skipName 4 r :: lines, IsTextLine l := by
        intro l mem
        rcases List.mem_cons.1 mem with rfl | mem
        · exact value
        · exact hb l (List.mem_cons_of_mem line mem)
      have text : ((r ++ 13 :: 10 :: (ofLines lines ++ last)).drop 4).dropWhile isBlank =
          ofLines (skipName 4 r :: lines) ++ last := by
        have four : 4 ≤ r.length := length_le_of_strstr usn
        rw [skipName_append four, ofLines_cons, List.append_assoc]
        rfl
      rw [Option.elim_some, Option.elim_some, Option.bind_eq_bind, Option.bind_some, text]
      unfold modelIn
      rcases strstr_ofLines inLine_colons (skipName 4 r :: lines) last with
        ⟨absent, search⟩ | ⟨m, tail, first, found, search⟩
      · rw [absent, search]
        cases colons : strstr (ascii "::") last with
        | none => exact same
        | some m =>
          rw [Option.bind_some, ends 2 hl colons]
          exact same
      · have two : 2 ≤ m.length := length_found found
        have model : IsTextLine (m.drop 2) :=
          (isTextLine_found lines_ found).of_sublist (List.drop_sublist 2 m)
        rw [first, search, Option.bind_some, List.drop_append_of_le_length two,
          upToLineEnd_cons model.cr]
        rfl

end Blocks

/-! ## The answer -/

section Answer

variable {now : Time} {r : SsdpResponse} {order before behind : List CString} {line p : CString}

/-- The status line has no name of a header. -/
theorem SsdpResponse.status_none (r : SsdpResponse) {name : CString}
    (h : name ∈ [ascii "LOCATION:", ascii "Location:", ascii "SERVER:", ascii "Server:", ascii "USN:"]) :
    strstr name r.status = none := by
  revert name
  rcases r.ok with ok | ok <;> rw [ok] <;> decide

theorem SsdpResponse.isTextLine_status (r : SsdpResponse) : IsTextLine r.status := by
  rcases r.ok with ok | ok <;> rw [ok] <;> exact ⟨by decide, by decide, by decide⟩

theorem firstFound_status {name : CString} (none_ : strstr name r.status = none) (order : List CString) :
    firstFound name (r.status :: order) = firstFound name order := by
  unfold firstFound
  rw [List.findSome?_cons, none_]

theorem serverOf_status (before : List CString) (last : CString) :
    serverOf (r.status :: before) last = serverOf before last := by
  unfold serverOf
  rw [firstFound_status (r.status_none (by simp)), firstFound_status (r.status_none (by simp))]

theorem modelOf_status (before : List CString) : modelOf (r.status :: before) = modelOf before := by
  rw [modelOf, r.status_none (by simp)]
  rfl

theorem search_location (r : SsdpResponse) (order : List CString) :
    (strstr (ascii "LOCATION:") (r.text order)).or (strstr (ascii "Location:") (r.text order)) =
      strstr (locationName order) (r.text order) := by
  have status : firstFound (ascii "LOCATION:") (r.status :: order) = firstFound (ascii "LOCATION:") order :=
    firstFound_status (r.status_none (by simp)) order
  unfold SsdpResponse.text locationName
  rcases strstr_ofLines inLine_location (r.status :: order) [13, 10] with
    ⟨absent, search⟩ | ⟨p, tail, first, -, search⟩
  · rw [← status, absent, search, if_neg (by simp)]
    rfl
  · rw [← status, first, Option.isSome_some, if_pos rfl, search, Option.some_or]

theorem nul_not_mem_text (lines : ∀ line ∈ order, IsTextLine line) : 0 ∉ r.text order := by
  have all : ∀ line ∈ r.status :: order, IsTextLine line := by
    intro line mem
    rcases List.mem_cons.1 mem with rfl | mem
    · exact r.isTextLine_status
    · exact lines line mem
  unfold SsdpResponse.text
  rw [List.mem_append, not_or]
  exact ⟨nul_not_mem_ofLines all, by decide⟩

/-- The status line is taken for one. -/
theorem status_found (r : SsdpResponse) (order : List CString) :
    ¬ ((strstr (ascii "HTTP/1.1 200 OK") (r.text order)).isNone ∧
      (strstr (ascii "HTTP/1.0 200 OK") (r.text order)).isNone) := by
  have front : r.status <:+: r.text order := by
    unfold SsdpResponse.text
    rw [ofLines_cons, List.append_assoc]
    exact (List.prefix_append _ _).isInfix
  rintro ⟨one, zero⟩
  rcases r.ok with ok | ok <;> rw [ok, ← strstr_isSome_iff] at front
  · rw [Option.isNone_iff_eq_none.1 one] at front
    cases front
  · rw [Option.isNone_iff_eq_none.1 zero] at front
    cases front

/-- The parser from the search for the location on. -/
theorem parseInOrder_eq (lines : ∀ line ∈ order, IsTextLine line) :
    parseInOrder now r order =
      (((strstr (locationName order) (r.text order)).bind fun location =>
        (lineEnd ((location.drop 9).dropWhile isBlank)).bind fun end_ =>
          (strstr (ascii "http://") (between ((location.drop 9).dropWhile isBlank) end_)).bind fun url =>
            some (parseUsn (between (r.text order) end_) (parseServer (between (r.text order) end_)
              { UPnPGatewayInfo.zero with lanIp := lanIpOf (url.drop 7) }))).elim
        (-1, .zero) fun info => (0, { info with valid := true, discoveredAt := now })) := by
  have text : strAt (r.text order ++ [0]) 0 = r.text order := strAt_zero (nul_not_mem_text lines) []
  have long : ¬ ((r.text order).length : ℤ) ≤ 0 := by
    unfold SsdpResponse.text
    rw [List.length_append]
    simp only [List.length_cons, List.length_nil]
    omega
  unfold parseInOrder upnpParseResponse
  dsimp only
  rw [text, if_neg long, if_neg (status_found r order), search_location]
  rfl

theorem parse_of_none (lines : ∀ line ∈ order, IsTextLine line)
    (absent : ∀ line ∈ order, strstr (locationName order) line = none) :
    parseInOrder now r order = (-1, .zero) := by
  have all : ∀ line ∈ r.status :: order, strstr (locationName order) line = none := by
    intro line mem
    rcases List.mem_cons.1 mem with rfl | mem
    · exact r.status_none (by unfold locationName; split_ifs <;> simp)
    · exact absent line mem
  have behind : strstr (locationName order) [13, 10] = none := by
    unfold locationName
    split_ifs <;> decide
  have search : strstr (locationName order) (r.text order) = none := by
    unfold SsdpResponse.text
    rw [strstr_ofLines_none (inLine_locationName order) all, behind]
  rw [parseInOrder_eq lines, search]
  rfl

/-- The first line with a location decides; what else is read stands before it. -/
theorem parse_of_first (whole : order = before ++ line :: behind) (lines : ∀ line ∈ order, IsTextLine line)
    (first : ∀ line ∈ before, strstr (locationName order) line = none)
    (here : strstr (locationName order) line = some p) :
    parseInOrder now r order =
      (hostIn (locationName order) line).elim (-1, .zero) fun host =>
        (0, { server := serverOf before line
              model := modelOf before
              lanIp := cut inetAddrStrLen host
              valid := true
              discoveredAt := now }) := by
  have hbefore : ∀ l ∈ r.status :: before, IsTextLine l := by
    intro l mem
    rcases List.mem_cons.1 mem with rfl | mem
    · exact r.isTextLine_status
    · exact lines l (whole ▸ List.mem_append_left _ mem)
  have hline : IsTextLine line := lines line (whole ▸ List.mem_append_right _ List.mem_cons_self)
  have none_ : ∀ l ∈ r.status :: before, strstr (locationName order) l = none := by
    intro l mem
    rcases List.mem_cons.1 mem with rfl | mem
    · exact r.status_none (by unfold locationName; split_ifs <;> simp)
    · exact first l mem
  have nine : 9 ≤ p.length := length_locationName order ▸ length_le_of_strstr here
  have value : IsTextLine (skipName 9 p) :=
    (hline.of_sublist (sublist_of_strstr here)).of_sublist (skipName_sublist 9 p)
  have search : strstr (locationName order) (r.text order) =
      some (p ++ 13 :: 10 :: (ofLines behind ++ [13, 10])) := by
    unfold SsdpResponse.text
    rw [whole, ← List.cons_append, ← whole]
    exact strstr_ofLines_some (inLine_locationName order) none_ here _
  have ended : between (r.text order) (13 :: 10 :: (ofLines behind ++ [13, 10])) =
      ofLines (r.status :: before) ++ line := by
    have text : r.text order =
        ofLines (r.status :: before) ++ line ++ 13 :: 10 :: (ofLines behind ++ [13, 10]) := by
      unfold SsdpResponse.text
      rw [whole, ← List.cons_append, ofLines_append, ofLines_cons line]
      simp only [List.append_assoc, List.cons_append]
    rw [text, between_append]
  rw [parseInOrder_eq lines, search, Option.bind_some, skipName_append nine, lineEnd_cons value.cr,
    Option.bind_some, between_append, ended]
  unfold hostIn
  rw [here, Option.bind_some]
  cases strstr (ascii "http://") (skipName 9 p) with
  | none => rfl
  | some url =>
    rw [Option.bind_some, Option.map_some, Option.elim_some, Option.elim_some,
      parseServer_ofLines hbefore hline _ rfl, parseUsn_ofLines hbefore hline _ rfl, serverOf_status,
      modelOf_status, lanIpOf_eq]

end Answer

/-! ## Which lines set a field -/

section Fields

variable {order lines before behind : List CString} {line name : CString}

/-- A line without a location from which, in front of one, the server is read. -/
def SetsServer (lines : List CString) : Prop :=
  ∃ s ∈ lines, strstr (locationName lines) s = none ∧
    ((strstr (ascii "SERVER:") s).elim [] (skipName 7) ≠ [] ∨
      strstr (ascii "SERVER:") s = none ∧ (strstr (ascii "Server:") s).elim [] (skipName 7) ≠ [] ∧
        ∃ l ∈ lines, strstr (locationName lines) l ≠ none ∧ strstr (ascii "SERVER:") l = none)

/-- A line without a location from which, in front of one and perhaps of a third line, the model is
read. -/
def SetsModel (lines : List CString) : Prop :=
  ∃ u others, lines.Perm (u :: others) ∧ strstr (locationName lines) u = none ∧
    ∃ r, strstr (ascii "USN:") u = some r ∧
      (modelIn [skipName 4 r] ≠ [] ∨
        strstr (ascii "::") (skipName 4 r) = none ∧
          ∃ x ∈ others, strstr (locationName lines) x = none ∧ modelIn [x] ≠ [])

theorem located_split (name : CString) (order : List CString) :
    (∀ line ∈ order, strstr name line = none) ∨
    ∃ before line behind p, order = before ++ line :: behind ∧ (∀ l ∈ before, strstr name l = none) ∧
      strstr name line = some p := by
  cases found : firstFound name order with
  | none => exact Or.inl (firstFound_eq_none_iff.1 found)
  | some p =>
    obtain ⟨before, line, behind, whole, here, first⟩ := List.findSome?_eq_some_iff.1 found
    exact Or.inr ⟨before, line, behind, p, whole, first, here⟩

theorem locationName_perm (perm : order.Perm lines) : locationName order = locationName lines := by
  have same : (firstFound (ascii "LOCATION:") order).isSome = (firstFound (ascii "LOCATION:") lines).isSome := by
    rw [Bool.eq_iff_iff, Option.isSome_iff_ne_none, Option.isSome_iff_ne_none, ne_eq, ne_eq,
      firstFound_eq_none_iff, firstFound_eq_none_iff]
    simp only [perm.mem_iff]
  unfold locationName
  rw [same]

theorem cut_ne_nil {size : ℕ} {s : CString} (room : 1 < size) : cut size s ≠ [] ↔ s ≠ [] := by
  unfold cut
  rw [ne_eq, ne_eq, List.take_eq_nil_iff]
  constructor
  · exact fun h empty => h (Or.inr empty)
  · exact fun h none_ => none_.elim (by omega) h

theorem serverOf_nil (last : CString) : serverOf [] last = [] := by
  show (if (strstr (ascii "SERVER:") last).isSome then ([] : CString) else []) = []
  exact ite_self []

/-- The server is read from a line before the last. -/
theorem serverOf_ne_nil (h : serverOf before line ≠ []) :
    ∃ s ∈ before, (strstr (ascii "SERVER:") s).elim [] (skipName 7) ≠ [] ∨
      strstr (ascii "SERVER:") s = none ∧ (strstr (ascii "Server:") s).elim [] (skipName 7) ≠ [] ∧
        strstr (ascii "SERVER:") line = none := by
  unfold serverOf at h
  cases found : firstFound (ascii "SERVER:") before with
  | some r =>
    rw [found] at h
    obtain ⟨s, mem, here⟩ := List.exists_of_findSome?_eq_some found
    refine ⟨s, mem, Or.inl ?_⟩
    rw [here]
    exact (cut_ne_nil (by decide)).1 h
  | none =>
    rw [found] at h
    dsimp only at h
    split_ifs at h with last
    · exact absurd rfl h
    cases found' : firstFound (ascii "Server:") before with
    | none =>
      rw [found'] at h
      exact absurd rfl h
    | some r =>
      rw [found'] at h
      obtain ⟨s, mem, here⟩ := List.exists_of_findSome?_eq_some found'
      refine ⟨s, mem, Or.inr ⟨firstFound_eq_none_iff.1 found s mem, ?_, by simpa using last⟩⟩
      rw [here]
      exact (cut_ne_nil (by decide)).1 h

/-- A line that sets the server does so right before the last. -/
theorem serverOf_singleton {s : CString}
    (h : (strstr (ascii "SERVER:") s).elim [] (skipName 7) ≠ [] ∨
      strstr (ascii "SERVER:") s = none ∧ (strstr (ascii "Server:") s).elim [] (skipName 7) ≠ [] ∧
        strstr (ascii "SERVER:") line = none) : serverOf [s] line ≠ [] := by
  unfold serverOf firstFound
  rw [List.findSome?_singleton, List.findSome?_singleton]
  rcases h with server | ⟨none_, server, last⟩
  · cases found : strstr (ascii "SERVER:") s with
    | none =>
      rw [found] at server
      exact absurd rfl server
    | some r =>
      rw [found] at server
      exact (cut_ne_nil (by decide)).2 server
  · rw [none_, last]
    cases found : strstr (ascii "Server:") s with
    | none =>
      rw [found] at server
      exact absurd rfl server
    | some r =>
      rw [found] at server
      exact (cut_ne_nil (by decide)).2 server

theorem modelIn_cons_of_none {v : CString} (h : strstr (ascii "::") v = none) (lines : List CString) :
    modelIn (v :: lines) = modelIn lines := by
  unfold modelIn firstFound
  rw [List.findSome?_cons, h]

theorem modelIn_cons_of_some {v : CString} (h : strstr (ascii "::") v ≠ none) (lines : List CString) :
    modelIn (v :: lines) = modelIn [v] := by
  obtain ⟨m, hm⟩ := Option.ne_none_iff_exists'.1 h
  unfold modelIn firstFound
  rw [List.findSome?_cons, List.findSome?_cons, hm]

theorem modelIn_ne_nil (h : modelIn lines ≠ []) : ∃ x ∈ lines, modelIn [x] ≠ [] := by
  induction lines with
  | nil => exact absurd rfl h
  | cons x lines ih =>
    by_cases colons : strstr (ascii "::") x = none
    · rw [modelIn_cons_of_none colons] at h
      obtain ⟨y, mem, hy⟩ := ih h
      exact ⟨y, List.mem_cons_of_mem x mem, hy⟩
    · rw [modelIn_cons_of_some colons] at h
      exact ⟨x, List.mem_cons_self, h⟩

/-- The model is read from a line with a USN, or from a later one. -/
theorem modelOf_ne_nil (h : modelOf before ≠ []) :
    ∃ front u back, before = front ++ u :: back ∧ ∃ r, strstr (ascii "USN:") u = some r ∧
      (modelIn [skipName 4 r] ≠ [] ∨
        strstr (ascii "::") (skipName 4 r) = none ∧ ∃ x ∈ back, modelIn [x] ≠ []) := by
  induction before with
  | nil => exact absurd rfl h
  | cons u back ih =>
    rw [modelOf] at h
    cases usn : strstr (ascii "USN:") u with
    | none =>
      rw [usn] at h
      obtain ⟨front, u', back', whole, rest⟩ := ih h
      exact ⟨u :: front, u', back', by rw [whole, List.cons_append], rest⟩
    | some r =>
      rw [usn, Option.elim_some] at h
      refine ⟨[], u, back, rfl, r, usn, ?_⟩
      by_cases colons : strstr (ascii "::") (skipName 4 r) = none
      · rw [modelIn_cons_of_none colons] at h
        exact Or.inr ⟨colons, modelIn_ne_nil h⟩
      · rw [modelIn_cons_of_some colons] at h
        exact Or.inl h

end Fields

/-! ## All orders -/

/-- The host of the LOCATION URL: of the first line with a location. -/
def locationHost (lines : List CString) : Option CString :=
  (lines.find? fun line => (strstr (locationName lines) line).isSome).bind (hostIn (locationName lines))

/-- In every order of the headers the parser has the same result, and where it returns 0 `lan_ip` is the
host of the LOCATION URL, cut to its array. -/
def ParsesInAnyOrder (now : Time) (r : SsdpResponse) : Prop :=
  ∀ order, order.Perm r.lines →
    parseInOrder now r order = parseInOrder now r r.lines ∧
      ((parseInOrder now r order).1 = 0 → ∃ host, locationHost order = some host ∧
        (parseInOrder now r order).2.lanIp = cut inetAddrStrLen host)

/-- No line has a location with a URL; or all that have one have the same host, and from no line a server
or a model is read. -/
def OrderIndependent (lines : List CString) : Prop :=
  (∀ line ∈ lines, hostIn (locationName lines) line = none) ∨
    (∃ ip, ∀ line ∈ lines, strstr (locationName lines) line ≠ none →
      ∃ host, hostIn (locationName lines) line = some host ∧ cut inetAddrStrLen host = ip) ∧
    ¬ SetsServer lines ∧ ¬ SetsModel lines

section Orders

variable {now : Time} {r : SsdpResponse} {order lines before behind : List CString} {line name host : CString}

theorem exists_perm_cons {α : Type*} [DecidableEq α] {a : α} {l : List α} (h : a ∈ l) :
    ∃ rest, l.Perm (a :: rest) :=
  ⟨l.erase a, List.perm_cons_erase h⟩

theorem isTextLine_of_perm (perm : order.Perm r.lines) : ∀ line ∈ order, IsTextLine line :=
  fun line mem => r.isLine line (perm.mem_iff.1 mem)

theorem hostIn_of_none (h : strstr name line = none) : hostIn name line = none := by
  unfold hostIn
  rw [h]
  rfl

/-- A result that was read. -/
def readResult (now : Time) (server model host : CString) : ℤ × UPnPGatewayInfo :=
  (0, { server := server
        model := model
        lanIp := cut inetAddrStrLen host
        valid := true
        discoveredAt := now })

/-- The result in an order in which these lines stand before a location. -/
theorem parse_of_perm (perm : r.lines.Perm (before ++ line :: behind))
    (first : ∀ l ∈ before, strstr (locationName r.lines) l = none)
    (here : strstr (locationName r.lines) line ≠ none) :
    parseInOrder now r (before ++ line :: behind) =
      (hostIn (locationName r.lines) line).elim (-1, .zero)
        (readResult now (serverOf before line) (modelOf before)) := by
  obtain ⟨p, hp⟩ := Option.ne_none_iff_exists'.1 here
  have same := locationName_perm perm.symm
  rw [← same] at first hp ⊢
  exact parse_of_first rfl (isTextLine_of_perm perm.symm) first hp

theorem lanIp_of_parse (perm : order.Perm r.lines) (ok : (parseInOrder now r order).1 = 0) :
    ∃ host, locationHost order = some host ∧
      (parseInOrder now r order).2.lanIp = cut inetAddrStrLen host := by
  have lines := isTextLine_of_perm perm
  rcases located_split (locationName order) order with absent | ⟨before, line, behind, p, whole, first, here⟩
  · rw [parse_of_none lines absent] at ok
    cases ok
  · rw [parse_of_first whole lines first here] at ok ⊢
    have found : order.find? (fun l => (strstr (locationName order) l).isSome) = some line := by
      rw [List.find?_eq_some_iff_append]
      refine ⟨by rw [here]; rfl, before, behind, whole, fun l mem => ?_⟩
      rw [first l mem]
      rfl
    unfold locationHost
    rw [found, Option.bind_some]
    cases hhost : hostIn (locationName order) line with
    | none =>
      rw [hhost] at ok
      cases ok
    | some host => exact ⟨host, rfl, rfl⟩

/-- Whether there is a location decides between the two results that all orders then have. -/
theorem parse_of_located {result : ℤ × UPnPGatewayInfo}
    (always : ∀ order, order.Perm r.lines → (∃ line ∈ r.lines, strstr (locationName r.lines) line ≠ none) →
      parseInOrder now r order = result) (perm : order.Perm r.lines) :
    parseInOrder now r order = parseInOrder now r r.lines := by
  by_cases located : ∃ line ∈ r.lines, strstr (locationName r.lines) line ≠ none
  · rw [always order perm located, always r.lines (List.Perm.refl _) located]
  · have absent : ∀ line ∈ r.lines, strstr (locationName r.lines) line = none := by
      intro line mem
      by_contra there
      exact located ⟨line, mem, there⟩
    have name := locationName_perm perm
    rw [parse_of_none r.isLine absent, parse_of_none (isTextLine_of_perm perm)]
    exact fun line mem => name ▸ absent line (perm.mem_iff.1 mem)

theorem parse_of_no_host (perm : order.Perm r.lines)
    (absent : ∀ line ∈ r.lines, hostIn (locationName r.lines) line = none) :
    parseInOrder now r order = (-1, .zero) := by
  rcases located_split (locationName order) order with none_ | ⟨before, line, behind, p, whole, first, here⟩
  · exact parse_of_none (isTextLine_of_perm perm) none_
  · have mem : line ∈ r.lines := perm.mem_iff.1 (whole ▸ List.mem_append_right _ List.mem_cons_self)
    rw [parse_of_first whole (isTextLine_of_perm perm) first here, locationName_perm perm, absent line mem]
    rfl

/-- No server is read in an order of lines of which none sets it. -/
theorem serverOf_eq_nil (perm : (before ++ line :: behind).Perm lines)
    (first : ∀ l ∈ before, strstr (locationName lines) l = none)
    (there : strstr (locationName lines) line ≠ none) (noServer : ¬ SetsServer lines) :
    serverOf before line = [] := by
  by_contra set
  obtain ⟨s, hs, sets⟩ := serverOf_ne_nil set
  have mem : s ∈ lines := perm.mem_iff.1 (List.mem_append_left _ hs)
  have last : line ∈ lines := perm.mem_iff.1 (List.mem_append_right _ List.mem_cons_self)
  refine noServer ⟨s, mem, first s hs, sets.imp_right fun h => ?_⟩
  exact ⟨h.1, h.2.1, line, last, there, h.2.2⟩

/-- Nor is a model. -/
theorem modelOf_eq_nil (perm : (before ++ line :: behind).Perm lines)
    (first : ∀ l ∈ before, strstr (locationName lines) l = none) (noModel : ¬ SetsModel lines) :
    modelOf before = [] := by
  by_contra set
  obtain ⟨front, u, back, split, q, usn, sets⟩ := modelOf_ne_nil set
  have others : lines.Perm (u :: (front ++ back ++ line :: behind)) := by
    refine perm.symm.trans ?_
    rw [split, List.append_assoc, List.append_assoc]
    exact List.perm_middle
  have hu : u ∈ before := split ▸ List.mem_append_right _ List.mem_cons_self
  refine noModel ⟨u, _, others, first u hu, q, usn, sets.imp_right fun h => ⟨h.1, ?_⟩⟩
  obtain ⟨x, hx, hm⟩ := h.2
  refine ⟨x, List.mem_append_left _ (List.mem_append_right _ hx), first x ?_, hm⟩
  exact split ▸ List.mem_append_right _ (List.mem_cons_of_mem u hx)

/-- Where the order does not matter, every order has the result without a server and a model. -/
theorem parse_of_independent (ind : OrderIndependent r.lines) (perm : order.Perm r.lines) :
    parseInOrder now r order = parseInOrder now r r.lines := by
  rcases ind with absent | ⟨⟨ip, same⟩, noServer, noModel⟩
  · rw [parse_of_no_host perm absent, parse_of_no_host (List.Perm.refl _) absent]
  have all (order : List CString) (perm : order.Perm r.lines)
      (located : ∃ line ∈ r.lines, strstr (locationName r.lines) line ≠ none) :
      parseInOrder now r order = (0, ⟨[], [], ip, true, now⟩) := by
    have name := locationName_perm perm
    rcases located_split (locationName order) order with
      none_ | ⟨before, line, behind, p, whole, first, here⟩
    · obtain ⟨line, mem, there⟩ := located
      exact absurd (name ▸ none_ line (perm.mem_iff.2 mem)) there
    · have mem : line ∈ r.lines := perm.mem_iff.1 (whole ▸ List.mem_append_right _ List.mem_cons_self)
      have there : strstr (locationName r.lines) line ≠ none := by
        rw [← name, here]
        simp
      obtain ⟨host, hhost, hip⟩ := same line mem there
      have split : (before ++ line :: behind).Perm r.lines := whole ▸ perm
      have before_ : ∀ l ∈ before, strstr (locationName r.lines) l = none := name ▸ first
      have result : readResult now [] [] host = (0, ⟨[], [], ip, true, now⟩) := by
        rw [← hip]
        rfl
      rw [parse_of_first whole (isTextLine_of_perm perm) first here, name, hhost,
        serverOf_eq_nil split before_ there noServer, modelOf_eq_nil split before_ noModel]
      exact result
  exact parse_of_located all perm

/-- What is behind a line of another kind. -/
theorem mem_behind {other : CString} (mem : line ∈ other :: behind) (absent : strstr name other = none)
    (there : strstr name line ≠ none) : line ∈ behind := by
  rcases List.mem_cons.1 mem with rfl | h
  · exact absurd absent there
  · exact h

/-- Two results that are equal are read alike. -/
theorem read_alike {found : Option CString} {server model server' model' : CString}
    (same : found.elim (-1, .zero) (readResult now server model) = readResult now server' model' host) :
    (∃ host', found = some host' ∧ cut inetAddrStrLen host' = cut inetAddrStrLen host) ∧
      server = server' ∧ model = model' := by
  cases found with
  | none => cases congrArg Prod.fst same
  | some host' =>
    exact ⟨⟨host', rfl, congrArg (fun x => x.2.lanIp) same⟩, congrArg (fun x => x.2.server) same,
      congrArg (fun x => x.2.model) same⟩

section Results

variable (all : ∀ order, order.Perm r.lines →
  parseInOrder now r order = readResult now [] [] host)

include all

/-- If every order has the result without a server, no line sets it. -/
theorem not_setsServer (mem : line ∈ r.lines) (there : strstr (locationName r.lines) line ≠ none) :
    ¬ SetsServer r.lines := by
  rintro ⟨s, hs, absent, sets⟩
  -- a line with a location, which goes behind the one that sets the server
  obtain ⟨l, hl, located, sets⟩ : ∃ l ∈ r.lines, strstr (locationName r.lines) l ≠ none ∧
      ((strstr (ascii "SERVER:") s).elim [] (skipName 7) ≠ [] ∨
        strstr (ascii "SERVER:") s = none ∧ (strstr (ascii "Server:") s).elim [] (skipName 7) ≠ [] ∧
          strstr (ascii "SERVER:") l = none) := by
    rcases sets with server | ⟨none_, server, l, hl, located, last⟩
    · exact ⟨line, mem, there, Or.inl server⟩
    · exact ⟨l, hl, located, Or.inr ⟨none_, server, last⟩⟩
  obtain ⟨rest, perm⟩ := exists_perm_cons hs
  obtain ⟨rest', perm'⟩ := exists_perm_cons (mem_behind (perm.mem_iff.1 hl) absent located)
  have order := perm.trans (perm'.cons s)
  have read := @parse_of_perm now r [s] rest' l order (by simpa using absent) located
  exact serverOf_singleton sets (read_alike (read.symm.trans (all _ order.symm))).2.1

/-- Nor does one set the model. -/
theorem not_setsModel (mem : line ∈ r.lines) (there : strstr (locationName r.lines) line ≠ none) :
    ¬ SetsModel r.lines := by
  rintro ⟨u, others, perm, absent, q, usn, sets⟩
  obtain ⟨rest, perm'⟩ := exists_perm_cons (mem_behind (perm.mem_iff.1 mem) absent there)
  -- the line with the USN goes in front, and behind it the one with the model if that is another
  obtain ⟨before, behind', order, first, model⟩ : ∃ before behind',
      r.lines.Perm (before ++ line :: behind') ∧
        (∀ l ∈ before, strstr (locationName r.lines) l = none) ∧ modelOf before ≠ [] := by
    rcases sets with own | ⟨colons, x, hx, noLocation, model⟩
    · refine ⟨[u], rest, perm.trans (perm'.cons u), by simpa using absent, ?_⟩
      rw [modelOf, usn]
      exact own
    · have third : x ∈ rest := by
        rcases List.mem_cons.1 (perm'.mem_iff.1 hx) with rfl | h
        · exact absurd noLocation there
        · exact h
      obtain ⟨rest', perm''⟩ := exists_perm_cons third
      have moved : others.Perm (x :: line :: rest') :=
        perm'.trans ((perm''.cons line).trans (List.Perm.swap x line rest'))
      refine ⟨[u, x], rest', perm.trans (moved.cons u), by simp [absent, noLocation], ?_⟩
      rw [modelOf, usn, Option.elim_some, modelIn_cons_of_none colons]
      exact model
  have read := @parse_of_perm now r before behind' line order first there
  exact model (read_alike (read.symm.trans (all _ order.symm))).2.2

end Results

/-- Where the order matters, two orders tell. -/
theorem independent_of_parse
    (all : ∀ order, order.Perm r.lines → parseInOrder now r order = parseInOrder now r r.lines) :
    OrderIndependent r.lines := by
  -- with a location in front no server and no model are read
  have front {line : CString} (mem : line ∈ r.lines) (there : strstr (locationName r.lines) line ≠ none) :
      parseInOrder now r r.lines =
        (hostIn (locationName r.lines) line).elim (-1, .zero) (readResult now [] []) := by
    obtain ⟨rest, perm⟩ := exists_perm_cons mem
    have result := @parse_of_perm now r [] rest line perm (by simp) there
    rw [serverOf_nil] at result
    exact (all _ perm.symm).symm.trans result
  by_cases hosts : ∀ line ∈ r.lines, hostIn (locationName r.lines) line = none
  · exact Or.inl hosts
  obtain ⟨line, mem, some_⟩ : ∃ line ∈ r.lines, hostIn (locationName r.lines) line ≠ none := by
    by_contra none_
    refine hosts fun line mem => ?_
    by_contra some_
    exact none_ ⟨line, mem, some_⟩
  have there : strstr (locationName r.lines) line ≠ none := fun h => some_ (hostIn_of_none h)
  obtain ⟨host, hhost⟩ := Option.ne_none_iff_exists'.1 some_
  have result := front mem there
  rw [hhost, Option.elim_some] at result
  have always : ∀ order, order.Perm r.lines → parseInOrder now r order = readResult now [] [] host :=
    fun order perm => (all order perm).trans result
  refine Or.inr ⟨⟨cut inetAddrStrLen host, fun l hl located => ?_⟩, not_setsServer always mem there,
    not_setsModel always mem there⟩
  exact (read_alike ((front hl located).symm.trans result)).1

end Orders

/-- The order of the headers does not matter exactly if no line sets a server or a model, and all with a
location agree. -/
theorem parses_in_any_order_iff (now : Time) (r : SsdpResponse) :
    ParsesInAnyOrder now r ↔ OrderIndependent r.lines := by
  constructor
  · intro h
    exact independent_of_parse fun order perm => (h order perm).1
  · intro ind order perm
    exact ⟨parse_of_independent ind perm, lanIp_of_parse perm⟩

/-- What a common gateway answers. -/
def gatewayResponse : SsdpResponse where
  status := ascii "HTTP/1.1 200 OK"
  ok := Or.inl rfl
  lines := [ascii "LOCATION: http://192.168.1.1:5000/rootDesc.xml", ascii "SERVER: Linux UPnP/1.0",
    ascii "USN: uuid:1::upnp:rootdevice"]
  isLine := by
    intro line mem
    simp only [List.mem_cons, List.not_mem_nil, or_false] at mem
    rcases mem with rfl | rfl | rfl <;> exact ⟨by decide, by decide, by decide⟩

/-- Its server is known only if that header is in front of the location. -/
theorem header_order_matters : ¬ ParsesInAnyOrder 0 gatewayResponse := by
  intro h
  have same := (h [ascii "SERVER: Linux UPnP/1.0",
    ascii "LOCATION: http://192.168.1.1:5000/rootDesc.xml", ascii "USN: uuid:1::upnp:rootdevice"]
    (List.Perm.swap _ _ _)).1
  have server := congrArg (fun x => x.2.server) same
  have read : (parseInOrder 0 gatewayResponse [ascii "SERVER: Linux UPnP/1.0",
      ascii "LOCATION: http://192.168.1.1:5000/rootDesc.xml",
      ascii "USN: uuid:1::upnp:rootdevice"]).2.server = ascii "Linux UPnP/1.0" := by decide +kernel
  have lost : (parseInOrder 0 gatewayResponse gatewayResponse.lines).2.server = [] := by decide +kernel
  have both : ascii "Linux UPnP/1.0" = [] := read.symm.trans (server.trans lost)
  revert both
  decide

end Orcashi
