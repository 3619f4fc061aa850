import Orcashi.GhostDelivery
import Orcashi.PeerTable
import Orcashi.StateFile

/-!
# What a restart keeps

The file of `state_save` is a list of lines as long as no id and no ip contains a newline, and
`state_load` takes the lines of a record one after the other.  Of the fields that are written, the
two flags are lost: they are written as words and looked for as numbers.
-/

namespace Orcashi

open CMemory Stdio

/-! ## Lines -/

/-- A text that `fgets` and the string functions see whole. -/
structure IsLine (l : CString) : Prop where
  oneLine : 10 ∉ l
  isStr : 0 ∉ l
  short : l.length + 1 < lineSize

/-- Texts as lines of a file. -/
def ended (ls : List CString) : Bytes := ls.flatMap fun l => l ++ [10]

@[simp] theorem ended_nil : ended [] = [] := rfl

@[simp] theorem ended_cons (l : CString) (ls : List CString) :
    ended (l :: ls) = (l ++ [10]) ++ ended ls := rfl

theorem ended_append (ls ls' : List CString) : ended (ls ++ ls') = ended ls ++ ended ls' :=
  List.flatMap_append

namespace LoadState

/-- Read lines as they stand in the file. -/
def readLines (st : LoadState) (ls : List CString) : LoadState :=
  ls.foldl (fun st l => st.readLine (l ++ [10])) st

@[simp] theorem readLines_nil (st : LoadState) : st.readLines [] = st := rfl

@[simp] theorem readLines_cons (st : LoadState) (l : CString) (ls : List CString) :
    st.readLines (l :: ls) = (st.readLine (l ++ [10])).readLines ls := rfl

theorem readLines_append (st : LoadState) (ls ls' : List CString) :
    st.readLines (ls ++ ls') = (st.readLines ls).readLines ls' :=
  List.foldl_append

theorem readFile_nil (st : LoadState) : st.readFile [] = st := rfl

/-- Lines of the file are read as lines. -/
theorem readFile_ended (st : LoadState) {ls : List CString} (h : ∀ l ∈ ls, IsLine l)
    (rest : Bytes) : st.readFile (ended ls ++ rest) = (st.readLines ls).readFile rest := by
  induction ls generalizing st with
  | nil => rfl
  | cons l ls ih =>
    obtain ⟨oneLine, isStr, short⟩ := h l List.mem_cons_self
    have str : strAt (l ++ [10]) 0 = l ++ [10] := by
      unfold strAt
      rw [List.drop_zero, List.takeWhile_eq_self_iff]
      intro c hc
      rw [bne_iff_ne]
      rintro rfl
      rcases List.mem_append.1 hc with hc | hc
      · exact isStr hc
      · exact absurd (List.mem_singleton.1 hc) (by decide)
    rw [readLines_cons, ← ih _ fun l' hl' => h l' (List.mem_cons_of_mem l hl')]
    unfold readFile
    rw [ended_cons, List.append_assoc, List.append_assoc, List.singleton_append,
      fgets_line oneLine short, List.map_cons, List.foldl_cons, str]

end LoadState

/-! ## The lines of a field -/

/-- The characters that end a line or a string, or start or end a record. -/
def isSpecial (c : UInt8) : Bool := c == 0 || c == 10 || c == 123 || c == 125

namespace Field

theorem not_special_of_value {c : UInt8} (h : isValueByte c = true) : isSpecial c = false := by
  rw [Bool.eq_false_iff]
  intro special
  unfold isSpecial at special
  simp only [Bool.or_eq_true, beq_iff_eq] at special
  rcases special with ((rfl | rfl) | rfl) | rfl <;> exact absurd h (by decide)

/-- A special character in the line of a field comes from the id or from the ip. -/
theorem mem_line_iff {p : Peer} {f : Field} {c : UInt8} (special : isSpecial c = true) :
    c ∈ f.line p ↔ (f = id ∧ c ∈ p.id) ∨ (f = ip ∧ c ∈ p.ip) := by
  have frame : ((ascii "      " ++ 34 :: f.label ++ [34, 58, 32] ++
      if f = ghostCount then [] else [44]).all fun c => !isSpecial c) = true := by
    cases f <;> rfl
  constructor
  · intro h
    have split : c ∈ (ascii "      " ++ 34 :: f.label ++ [34, 58, 32] ++
        if f = ghostCount then [] else [44]) ∨ c ∈ f.text p := by
      unfold line at h
      simp only [List.mem_append, List.mem_cons, List.not_mem_nil] at h ⊢
      tauto
    rcases split with h | h
    · have hc := List.all_eq_true.1 frame c h
      rw [special] at hc
      cases hc
    · rcases mem_text h with h | h | h
      · exact Or.inl h
      · exact Or.inr h
      · rw [not_special_of_value h] at special
        cases special
  · rintro (⟨rfl, h⟩ | ⟨rfl, h⟩)
    · simp [line, text, h]
    · simp [line, text, h]

theorem length_line_le {p : Peer} (fits : p.Fits) (f : Field) : (f.line p).length < 100 := by
  have frame : (ascii "      " ++ 34 :: f.label ++ [34, 58, 32] ++
      if f = ghostCount then [] else [44]).length ≤ 28 := by
    cases f <;> decide
  have value : (f.text p).length ≤ 66 := by
    have flag (b : Bool) : (if b then ascii "true" else ascii "false").length ≤ 66 := by
      cases b <;> decide
    have long {n : ℤ} (h : IsLong n) : (decimal n).length ≤ 66 :=
      le_trans (length_decimal_le h) (by decide)
    have quoted {s : CString} {n : ℕ} (h : s.length < n) (hn : n ≤ 64) :
        (34 :: s ++ [34]).length ≤ 66 := by
      rw [List.length_append, List.length_cons, List.length_singleton]
      omega
    cases f with
    | id => exact quoted fits.id_lt (by decide)
    | ip => exact quoted fits.ip_lt (by decide)
    | online => exact flag _
    | busy => exact flag _
    | state => exact long fits.state.isLong
    | port => exact long fits.port.isLong
    | lastSeen => exact long fits.lastSeen
    | createdAt => exact long fits.createdAt
    | friendSince => exact long fits.friendSince
    | pendingMessages => exact long fits.pendingMessages.isLong
    | ghostCount => exact long fits.ghostCount.isLong
  unfold line
  simp only [List.length_append, List.length_cons, List.length_nil] at frame ⊢
  omega

/-- Without newlines in the id and the ip, the line of a field is one line. -/
theorem isLine_line {p : Peer} (fits : p.Fits) {f : Field} (id_line : f = id → 10 ∉ p.id)
    (ip_line : f = ip → 10 ∉ p.ip) : IsLine (f.line p) where
  oneLine := by
    rw [mem_line_iff rfl]
    rintro (⟨hf, h⟩ | ⟨hf, h⟩)
    · exact id_line hf h
    · exact ip_line hf h
  isStr := by
    rw [mem_line_iff rfl]
    rintro (⟨-, h⟩ | ⟨-, h⟩)
    · exact fits.id_str h
    · exact fits.ip_str h
  short := by
    have := length_line_le fits f
    unfold lineSize
    omega

theorem not_space_of_value {c : UInt8} (h : isValueByte c = true) : isSpace c = false := by
  unfold isValueByte at h
  simp only [Bool.or_eq_true, beq_iff_eq, Bool.and_eq_true, decide_eq_true_eq] at h
  rcases h with ((rfl | rfl) | h) | ⟨h, -⟩
  · rfl
  · rfl
  · exact (not_space_of_isDigit h).1
  · have letter : 97 ≤ c.toNat := UInt8.le_iff_toNat_le.1 h
    exact not_space_of_le (Nat.le_trans (by decide) letter)

/-- A value starts with a quote, a sign, a digit or a letter. -/
theorem head_text (p : Peer) (f : Field) :
    f.text p ≠ [] ∧ ∀ c ∈ (f.text p).head?, isSpace c = false := by
  have number (n : ℤ) : decimal n ≠ [] ∧ ∀ c ∈ (decimal n).head?, isSpace c = false := by
    refine ⟨?_, fun c hc => not_space_of_value (isValueByte_decimal (List.mem_of_mem_head? hc))⟩
    cases n with
    | ofNat n => exact digits_ne_nil n
    | negSucc n => exact List.cons_ne_nil _ _
  have quoted (s : CString) :
      34 :: s ++ [34] ≠ [] ∧ ∀ c ∈ (34 :: s ++ [34]).head?, isSpace c = false := by
    refine ⟨List.cons_ne_nil _ _, ?_⟩
    rintro c hc
    obtain rfl : 34 = c := Option.some.inj hc
    rfl
  have flag (b : Bool) : (if b then ascii "true" else ascii "false") ≠ [] ∧
      ∀ c ∈ (if b then ascii "true" else ascii "false").head?, isSpace c = false := by
    refine ⟨?_, fun c hc => not_space_of_value (isValueByte_flag (List.mem_of_mem_head? hc))⟩
    cases b <;> decide
  cases f with
  | id | ip => exact quoted _
  | online | busy => exact flag _
  | state | port | lastSeen | createdAt | friendSince | pendingMessages | ghostCount =>
    exact number _

/-- The line of one field is not taken for another field. -/
theorem scan_other {f g : Field} (h : f ≠ g) (p : Peer) :
    scanText f.format (g.line p ++ [10]) = none := by
  obtain ⟨ne, head⟩ := head_text p g
  rw [line_eq, scan_format fun h34 => (g.label_clean 34 h34).1 rfl]
  · rw [if_neg fun hl => h (label_inj hl)]
  · rw [List.head?_append_of_ne_nil _ ne]
    exact head

theorem read_other {f g : Field} (h : f ≠ g) (p q : Peer) : read (g.line p ++ [10]) q f = q := by
  unfold read
  rw [scan_other h p]
  rfl

theorem length_line_gt (p : Peer) (f : Field) : 1 < (f.line p ++ [10]).length := by
  rw [line_eq, List.length_append, List.length_cons, List.length_append, List.length_cons]
  omega

/-- What the line of a field leads to: the value, but not a flag, and no empty text. -/
def copy (p q : Peer) : Field → Peer
  | id => { q with id := p.id }
  | state => { q with state := .ofCode p.state.code }
  | online => q
  | busy => q
  | ip => { q with ip := if p.ip = [] then q.ip else p.ip }
  | port => { q with port := p.port }
  | lastSeen => { q with lastSeen := p.lastSeen }
  | createdAt => { q with createdAt := p.createdAt }
  | friendSince => { q with friendSince := p.friendSince }
  | pendingMessages => { q with pendingMessages := p.pendingMessages }
  | ghostCount => { q with ghostCount := p.ghostCount }

/-- A field is found on its own line. -/
theorem scan_own (p : Peer) (f : Field) :
    scanText f.format (f.line p ++ [10]) =
      scanText (if f = id ∨ f = ip then [34] else [])
        (f.text p ++ ((if f = ghostCount then [] else [44]) ++ [10])) := by
  obtain ⟨ne, head⟩ := head_text p f
  rw [line_eq, scan_format fun h34 => (f.label_clean 34 h34).1 rfl]
  · rw [if_pos rfl]
  · rw [List.head?_append_of_ne_nil _ ne]
    exact head

theorem read_own {p : Peer} (fits : p.Fits) (f : Field) (id_quote : f = id → 34 ∉ p.id)
    (ip_quote : f = ip → 34 ∉ p.ip) (q : Peer) : read (f.line p ++ [10]) q f = f.copy p q := by
  -- what follows a value is a comma or the newline
  have comma : ∀ c ∈ List.head? [44, 10], isDigit c = false := by
    rintro c hc
    obtain rfl := Option.some.inj hc
    rfl
  have newline : ∀ c ∈ List.head? [10], isDigit c = false := by
    rintro c hc
    obtain rfl := Option.some.inj hc
    rfl
  have quoted {s rest : CString} (ne : s ≠ []) (lt : s.length < 64) (free : 34 ∉ s) :
      scanSet 63 34 (s ++ 34 :: rest) = some s := by
    apply scanSet_append ne (Nat.le_of_lt_succ lt) free
    rintro c hc
    exact (Option.some.inj hc).symm
  unfold read
  rw [scan_own]
  cases f with
  | id =>
    have value : scanSet 63 34 (p.id ++ [34] ++ [44, 10]) = some p.id := by
      rw [List.append_assoc]
      exact quoted fits.id_ne fits.id_lt (id_quote rfl)
    exact congrArg (fun r => Option.elim r q fun s => { q with id := s }) value
  | ip =>
    show (scanSet 63 34 (p.ip ++ [34] ++ [44, 10])).elim q (fun s => { q with ip := s }) =
      { q with ip := if p.ip = [] then q.ip else p.ip }
    by_cases empty : p.ip = []
    · rw [if_pos empty, empty]
      rfl
    · have lt : p.ip.length < 64 := lt_trans fits.ip_lt (by decide)
      rw [if_neg empty, List.append_assoc, List.singleton_append, quoted empty lt (ip_quote rfl)]
      rfl
  | online =>
    have word : scanInt ((if p.online then ascii "true" else ascii "false") ++ [44, 10]) = none := by
      cases p.online <;> rfl
    exact congrArg (fun r : Option ℤ => r.elim q fun n => { q with online := n ≠ 0 }) word
  | busy =>
    have word : scanInt ((if p.busy then ascii "true" else ascii "false") ++ [44, 10]) = none := by
      cases p.busy <;> rfl
    exact congrArg (fun r : Option ℤ => r.elim q fun n => { q with busy := n ≠ 0 }) word
  | state =>
    exact congrArg (fun r => Option.elim r q fun n => { q with state := .ofCode n })
      (scanInt_decimal fits.state comma)
  | port =>
    exact congrArg (fun r => Option.elim r q fun n => { q with port := n })
      (scanInt_decimal fits.port comma)
  | lastSeen =>
    exact congrArg (fun r => Option.elim r q fun n => { q with lastSeen := n })
      (scanLong_decimal fits.lastSeen comma)
  | createdAt =>
    exact congrArg (fun r => Option.elim r q fun n => { q with createdAt := n })
      (scanLong_decimal fits.createdAt comma)
  | friendSince =>
    exact congrArg (fun r => Option.elim r q fun n => { q with friendSince := n })
      (scanLong_decimal fits.friendSince comma)
  | pendingMessages =>
    exact congrArg (fun r => Option.elim r q fun n => { q with pendingMessages := n })
      (scanInt_decimal fits.pendingMessages comma)
  | ghostCount =>
    exact congrArg (fun r => Option.elim r q fun n => { q with ghostCount := n })
      (scanInt_decimal fits.ghostCount newline)

/-- Of the fields, only its own looks at a line. -/
theorem foldl_read {g : Field} {l : CString} (other : ∀ f q, f ≠ g → read l q f = q) (q : Peer) :
    all.foldl (read l) q = read l q g := by
  cases g <;> simp [all, other]

/-- The fields after the id. -/
def others : List Field :=
  [state, online, busy, ip, port, lastSeen, createdAt, friendSince, pendingMessages, ghostCount]

end Field

/-! ## The lines of a record -/

/-- The line of the id; where the id ends in a newline, the rest of it is a line of its own. -/
def idLines (p : Peer) : List CString :=
  if 10 ∈ p.id then
    [ascii "      " ++ 34 :: Field.id.label ++ 34 :: 58 :: 32 :: 34 :: p.id.dropLast, [34, 44]]
  else [Field.id.line p]

/-- The lines of a record. -/
def recordLines (last : Bool) (p : Peer) : List CString :=
  ascii "    \x7b" :: (idLines p ++ Field.others.map (fun f => f.line p) ++
    [if last then ascii "    \x7d" else ascii "    \x7d,"])

/-- The lines of all records. -/
def recordsLines : List Peer → List CString
  | [] => []
  | [p] => recordLines true p
  | p :: ps => recordLines false p ++ recordsLines ps

theorem dropLast_concat_newline {s : CString} (h : 10 ∈ s) (last : 10 ∉ s.dropLast) :
    s.dropLast ++ [10] = s := by
  have ne : s ≠ [] := List.ne_nil_of_mem h
  have split := List.dropLast_append_getLast ne
  rw [← split] at h
  rcases List.mem_append.1 h with h | h
  · exact absurd h last
  · rw [List.mem_singleton.1 h, split]

theorem ended_idLines {p : Peer} (last : 10 ∉ p.id.dropLast) :
    ended (idLines p) = Field.id.line p ++ [10] := by
  unfold idLines
  split_ifs with h
  · have whole := dropLast_concat_newline h last
    have text : Field.id.text p = 34 :: (p.id.dropLast ++ [10]) ++ [34] := by
      rw [whole]
      rfl
    unfold Field.line
    rw [text]
    simp [ended]
  · rw [ended_cons, ended_nil, List.append_nil]

theorem savePeer_eq (last : Bool) {p : Peer} (h : 10 ∉ p.id.dropLast) :
    savePeer last p = ended (recordLines last p) := by
  have fields : (Field.all.flatMap fun f => f.line p ++ [10]) =
      ended (idLines p) ++ ended (Field.others.map fun f => f.line p) := by
    rw [ended_idLines h]
    unfold ended
    rw [List.flatMap_map]
    rfl
  unfold savePeer recordLines
  rw [fields, ended_cons, ended_append, ended_append]
  cases last <;> rfl

theorem savePeers_eq {ps : List Peer} (h : ∀ p ∈ ps, 10 ∉ p.id.dropLast) :
    savePeers ps = ended (recordsLines ps) := by
  induction ps using savePeers.induct with
  | case1 => rfl
  | case2 p => exact savePeer_eq true (h p List.mem_cons_self)
  | case3 p ps more ih =>
    have rest := ih fun q hq => h q (List.mem_cons_of_mem p hq)
    rw [savePeers, recordsLines, ended_append, savePeer_eq false (h p List.mem_cons_self), rest]
    · exact more
    · exact more

theorem isLine_idLines {p : Peer} (fits : p.Fits) (last : 10 ∉ p.id.dropLast) :
    ∀ l ∈ idLines p, IsLine l := by
  unfold idLines
  split_ifs with h
  · intro l hl
    have short := fits.id_lt
    have str := fits.id_str
    unfold idSize at short
    rcases List.mem_cons.1 hl with rfl | hl
    · have frame : (ascii "      " ++ 34 :: Field.id.label ++ [34, 58, 32, 34]) =
          [32, 32, 32, 32, 32, 32, 34, 105, 100, 34, 58, 32, 34] := rfl
      have split : ascii "      " ++ 34 :: Field.id.label ++ 34 :: 58 :: 32 :: 34 :: p.id.dropLast =
          [32, 32, 32, 32, 32, 32, 34, 105, 100, 34, 58, 32, 34] ++ p.id.dropLast := by
        rw [← frame, List.append_assoc, List.append_assoc]
        rfl
      rw [split]
      refine ⟨?_, ?_, ?_⟩
      · rw [List.mem_append]
        rintro (h10 | h10)
        · exact absurd h10 (by decide)
        · exact last h10
      · rw [List.mem_append]
        rintro (h0 | h0)
        · exact absurd h0 (by decide)
        · exact str (List.dropLast_subset _ h0)
      · rw [List.length_append, List.length_dropLast]
        show 13 + _ + 1 < 4096
        omega
    · rw [List.mem_singleton.1 hl]
      exact ⟨by decide, by decide, by decide⟩
  · intro l hl
    rw [List.mem_singleton.1 hl]
    exact Field.isLine_line fits (fun _ => h) fun hf => by cases hf

theorem isLine_recordLines {p : Peer} (fits : p.Fits) (id_line : 10 ∉ p.id.dropLast)
    (ip_line : 10 ∉ p.ip) (last : Bool) : ∀ l ∈ recordLines last p, IsLine l := by
  have opens : IsLine (ascii "    \x7b") := ⟨by decide, by decide, by decide⟩
  have closes : IsLine (if last then ascii "    \x7d" else ascii "    \x7d,") := by
    cases last <;> exact ⟨by decide, by decide, by decide⟩
  unfold recordLines
  intro l hl
  rcases List.mem_cons.1 hl with rfl | hl
  · exact opens
  rcases List.mem_append.1 hl with hl | hl
  · rcases List.mem_append.1 hl with hl | hl
    · exact isLine_idLines fits id_line l hl
    · obtain ⟨f, hf, rfl⟩ := List.mem_map.1 hl
      apply Field.isLine_line fits
      · rintro rfl
        exact absurd hf (by decide)
      · exact fun _ => ip_line
  · rw [List.mem_singleton.1 hl]
    exact closes

theorem mem_recordsLines {ps : List Peer} {l : CString} (h : l ∈ recordsLines ps) :
    ∃ last, ∃ p ∈ ps, l ∈ recordLines last p := by
  induction ps using recordsLines.induct with
  | case1 => exact absurd h List.not_mem_nil
  | case2 p => exact ⟨true, p, List.mem_cons_self, h⟩
  | case3 p ps more ih =>
    rw [recordsLines] at h
    · rcases List.mem_append.1 h with h | h
      · exact ⟨false, p, List.mem_cons_self, h⟩
      · obtain ⟨last, q, hq, hl⟩ := ih h
        exact ⟨last, q, List.mem_cons_of_mem p hq, hl⟩
    · exact more

/-! ## Reading a record -/

namespace LoadState

theorem readLine_open (st : LoadState) :
    st.readLine (ascii "    \x7b" ++ [10]) = ⟨st.peers, Peer.zero, true⟩ := by
  unfold readLine
  rw [if_neg (by decide), if_pos (by decide)]

/-- A line without an opening brace is looked at within a record only. -/
theorem readLine_field (st : LoadState) {l : CString} (long : 1 < l.length) (opens : 123 ∉ l) :
    st.readLine l =
      if st.inPeer then
        if 125 ∈ l then ⟨st.push (Field.all.foldl (Field.read l) st.peer), Peer.zero, false⟩
        else { st with peer := Field.all.foldl (Field.read l) st.peer }
      else st := by
  unfold readLine
  rw [if_neg (Nat.not_le.2 long), if_neg opens]
  cases st.inPeer <;> rfl

/-- The lines that hold no field. -/
theorem foldl_read_of_silent {l : CString} (silent : ∀ f, scanText (Field.format f) l = none)
    (q : Peer) : Field.all.foldl (Field.read l) q = q := by
  have keep (f : Field) (q : Peer) : Field.read l q f = q := by
    unfold Field.read
    rw [silent f]
    rfl
  simp [Field.all, keep]

theorem readLine_close (st : LoadState) (last : Bool) :
    st.readLine ((if last then ascii "    \x7d" else ascii "    \x7d,") ++ [10]) =
      if st.inPeer then ⟨st.push st.peer, Peer.zero, false⟩ else st := by
  have silent : ∀ f, scanText (Field.format f)
      ((if last then ascii "    \x7d" else ascii "    \x7d,") ++ [10]) = none := by
    intro f
    cases last <;> cases f <;> rfl
  have opens : 123 ∉ (if last then ascii "    \x7d" else ascii "    \x7d,") ++ [10] := by
    cases last <;> decide
  have closes : 125 ∈ (if last then ascii "    \x7d" else ascii "    \x7d,") ++ [10] := by
    cases last <;> decide
  have long : 1 < ((if last then ascii "    \x7d" else ascii "    \x7d,") ++ [10]).length := by
    cases last <;> decide
  rw [readLine_field st long opens, if_pos closes, foldl_read_of_silent silent]

/-- Between records, and in a record without an id so far, the last two lines change nothing. -/
theorem readLines_footer {st : LoadState} (h : st.inPeer = false ∨ st.peer.id = []) :
    (st.readLines [ascii "  ]", ascii "\x7d"]).peers = st.peers := by
  have silent : ∀ f, scanText (Field.format f) (ascii "  ]" ++ [10]) = none := by
    intro f
    cases f <;> rfl
  have silent' : ∀ f, scanText (Field.format f) (ascii "\x7d" ++ [10]) = none := by
    intro f
    cases f <;> rfl
  have bracket : st.readLine (ascii "  ]" ++ [10]) = st := by
    rw [readLine_field st (by decide) (by decide), foldl_read_of_silent silent]
    split_ifs with inside closes
    · exact absurd closes (by decide)
    · rfl
    · rfl
  have brace : (125 : UInt8) ∈ ascii "\x7d" ++ [10] := by decide
  rw [readLines_cons, bracket, readLines_cons, readLine_field st (by decide) (by decide),
    if_pos brace, foldl_read_of_silent silent', readLines_nil]
  rcases h with outside | empty
  · rw [outside]
    rfl
  · split_ifs
    · exact if_neg fun hp => hp.1 empty
    · rfl

/-- The lines before the records. -/
def header : List CString := [ascii "\x7b", ascii "  \"version\": 1,", ascii "  \"peers\": ["]

theorem readLines_header (st : LoadState) :
    st.readLines header = ⟨st.peers, Peer.zero, true⟩ := by
  have opened : st.readLine (ascii "\x7b" ++ [10]) = ⟨st.peers, Peer.zero, true⟩ := by
    unfold readLine
    rw [if_neg (by decide), if_pos (by decide)]
  have version : ∀ f, scanText (Field.format f) (ascii "  \"version\": 1," ++ [10]) = none := by
    intro f
    cases f <;> rfl
  have peers : ∀ f, scanText (Field.format f) (ascii "  \"peers\": [" ++ [10]) = none := by
    intro f
    cases f <;> rfl
  unfold header
  rw [readLines_cons, opened, readLines_cons, readLine_field _ (by decide) (by decide), if_pos rfl,
    if_neg (by decide), foldl_read_of_silent version, readLines_cons,
    readLine_field _ (by decide) (by decide), if_pos rfl, if_neg (by decide),
    foldl_read_of_silent peers, readLines_nil]

/-- If each record's lines store what `out` says, or nothing, the file stores it for all of them. -/
theorem readLines_records {β : Type*} {g : Peer → β} {out : Peer → Option β} {ps : List Peer}
    (record : ∀ p ∈ ps, ∀ (last : Bool) (st : LoadState), st.peers.length < maxPeers →
      (st.readLines (recordLines last p)).inPeer = false ∧
        (st.readLines (recordLines last p)).peers.map g = st.peers.map g ++ (out p).toList)
    {st : LoadState} (room : st.peers.length + ps.length ≤ maxPeers)
    (start : st.inPeer = false ∨ st.peer.id = []) :
    ((st.readLines (recordsLines ps)).inPeer = false ∨
        (st.readLines (recordsLines ps)).peer.id = []) ∧
      (st.readLines (recordsLines ps)).peers.map g = st.peers.map g ++ ps.filterMap out := by
  induction ps using recordsLines.induct generalizing st with
  | case1 => exact ⟨start, (List.append_nil _).symm⟩
  | case2 p =>
    rw [List.length_singleton] at room
    obtain ⟨outside, stored⟩ := record p List.mem_cons_self true st room
    refine ⟨Or.inl outside, ?_⟩
    rw [recordsLines, stored, List.filterMap_cons]
    cases out p <;> rfl
  | case3 p ps more ih =>
    rw [List.length_cons] at room
    obtain ⟨outside, stored⟩ := record p List.mem_cons_self false st (by omega)
    have count := congrArg List.length stored
    rw [List.length_map, List.length_append, List.length_map] at count
    have few : (out p).toList.length ≤ 1 := by
      cases out p with
      | none => exact Nat.zero_le 1
      | some b => exact Nat.le_refl 1
    have room' : (st.readLines (recordLines false p)).peers.length + ps.length ≤ maxPeers := by
      omega
    obtain ⟨after, rest⟩ :=
      ih (fun q hq => record q (List.mem_cons_of_mem p hq)) room' (Or.inl outside)
    rw [recordsLines, readLines_append]
    · refine ⟨after, ?_⟩
      rw [rest, stored, List.append_assoc, List.filterMap_cons]
      cases out p <;> rfl
    · exact more

end LoadState

/-- The lines of the file. -/
def fileLines (peers : List Peer) : List CString :=
  LoadState.header ++ recordsLines peers ++ [ascii "  ]", ascii "\x7d"]

theorem mem_fileLines {peers : List Peer} {l : CString} (h : l ∈ fileLines peers) :
    l ∈ LoadState.header ++ [ascii "  ]", ascii "\x7d"] ∨
      ∃ last, ∃ p ∈ peers, l ∈ recordLines last p := by
  rcases List.mem_append.1 h with h | h
  · rcases List.mem_append.1 h with h | h
    · exact Or.inl (List.mem_append_left _ h)
    · exact Or.inr (mem_recordsLines h)
  · exact Or.inl (List.mem_append_right _ h)

theorem isLine_fileLines {peers : List Peer} (fits : ∀ p ∈ peers, p.Fits)
    (id_line : ∀ p ∈ peers, 10 ∉ p.id.dropLast) (ip_line : ∀ p ∈ peers, 10 ∉ p.ip) :
    ∀ l ∈ fileLines peers, IsLine l := by
  intro l hl
  rcases mem_fileLines hl with hl | ⟨last, p, hp, hl⟩
  · simp only [LoadState.header, List.cons_append, List.nil_append, List.mem_cons, List.not_mem_nil,
      or_false] at hl
    rcases hl with rfl | rfl | rfl | rfl | rfl <;> exact ⟨by decide, by decide, by decide⟩
  · exact isLine_recordLines (fits p hp) (id_line p hp) (ip_line p hp) last l hl

/-- As long as no id and no ip contains a newline, an id at its end apart, `state_load` reads the lines
that `state_save` wrote. -/
theorem restart_lines {sm : StateManager} (fits : ∀ p ∈ sm.peers, p.Fits)
    (id_line : ∀ p ∈ sm.peers, 10 ∉ p.id.dropLast) (ip_line : ∀ p ∈ sm.peers, 10 ∉ p.ip) :
    (restart sm).peers =
      (LoadState.readLines ⟨[], Peer.zero, false⟩ (fileLines sm.peers)).peers := by
  have file : stateSave sm = ended (fileLines sm.peers) ++ [] := by
    have before : ascii "\x7b\n" ++ ascii "  \"version\": 1,\n" ++ ascii "  \"peers\": [\n" =
        ended LoadState.header := by decide
    have after : ascii "  ]\n" ++ ascii "\x7d\n" = ended [ascii "  ]", ascii "\x7d"] := by decide
    unfold stateSave fileLines
    rw [before, savePeers_eq id_line, List.append_assoc _ (ascii "  ]\n"), after, ended_append,
      ended_append, List.append_nil]
  have lines := isLine_fileLines fits id_line ip_line
  have peers : (restart sm).peers = (LoadState.readFile ⟨[], Peer.zero, false⟩ (stateSave sm)).peers :=
    rfl
  rw [peers, file, LoadState.readFile_ended _ lines, LoadState.readFile_nil]

/-- The records `state_load` finds in the file that `state_save` wrote of a table. -/
theorem restart_peers {sm : StateManager} (fits : ∀ p ∈ sm.peers, p.Fits)
    (few : sm.peers.length ≤ maxPeers) (id_line : ∀ p ∈ sm.peers, 10 ∉ p.id.dropLast)
    (ip_line : ∀ p ∈ sm.peers, 10 ∉ p.ip) {β : Type*} {g : Peer → β} {out : Peer → Option β}
    (record : ∀ p ∈ sm.peers, ∀ (last : Bool) (st : LoadState), st.peers.length < maxPeers →
      (st.readLines (recordLines last p)).inPeer = false ∧
        (st.readLines (recordLines last p)).peers.map g = st.peers.map g ++ (out p).toList) :
    (restart sm).peers.map g = sm.peers.filterMap out := by
  have room : (LoadState.mk [] Peer.zero true).peers.length + sm.peers.length ≤ maxPeers := by
    simpa using few
  obtain ⟨outside, stored⟩ := LoadState.readLines_records record room (Or.inr rfl)
  rw [restart_lines fits id_line ip_line, fileLines, LoadState.readLines_append,
    LoadState.readLines_append, LoadState.readLines_header, LoadState.readLines_footer outside, stored]
  rfl

/-! ## Whatever a file holds -/

/-- What is not last in a piece is not last in the whole. -/
theorem dropLast_subset_of_part {s l : CString} (h : s <:+: l) : s.dropLast ⊆ l.dropLast := by
  obtain ⟨before, after, rfl⟩ := h
  intro c hc
  have ne : s ≠ [] := List.ne_nil_of_mem (List.dropLast_subset s hc)
  rcases List.eq_nil_or_concat after with rfl | ⟨after, d, rfl⟩
  · rw [List.append_nil, List.dropLast_append_of_ne_nil ne]
    exact List.mem_append_right _ hc
  · rw [List.concat_eq_append, ← List.append_assoc, List.dropLast_concat]
    exact List.mem_append_left _ (List.mem_append_right _ (List.dropLast_subset s hc))

namespace LoadState

/-- What the empty record has and reading a field keeps, the current record has; what follows from it
for a record with an id, every stored record has. -/
theorem readLine_forall {P Q : Peer → Prop} (zero : P Peer.zero)
    (store : ∀ q, P q → q.id ≠ [] → Q q) {l : CString}
    (read : 123 ∉ l → ∀ q f, P q → P (Field.read l q f)) {st : LoadState}
    (h : (∀ p ∈ st.peers, Q p) ∧ P st.peer) :
    (∀ p ∈ (st.readLine l).peers, Q p) ∧ P (st.readLine l).peer := by
  obtain ⟨stored, current⟩ := h
  unfold readLine
  split_ifs with short opens outside closes
  · exact ⟨stored, current⟩
  · exact ⟨stored, zero⟩
  · exact ⟨stored, current⟩
  all_goals
    have fields : P (Field.all.foldl (Field.read l) st.peer) := by
      apply List.foldlRecOn (motive := P)
      · exact current
      · exact fun q hq f _ => read opens q f hq
  · refine ⟨?_, zero⟩
    show ∀ p ∈ st.push _, Q p
    unfold push
    split_ifs with kept
    · intro p hp
      rcases List.mem_append.1 hp with hp | hp
      · exact stored p hp
      · rw [List.mem_singleton.1 hp]
        exact store _ fields kept.1
    · exact stored
  · exact ⟨stored, fields⟩

/-- The lines of a file are strings, and a newline ends them. -/
theorem mem_lines {file : Bytes} {l : CString}
    (h : l ∈ (fgets lineSize file).map fun line => strAt line 0) : 0 ∉ l ∧ 10 ∉ l.dropLast := by
  obtain ⟨line, hline, rfl⟩ := List.mem_map.1 h
  unfold strAt
  rw [List.drop_zero]
  constructor
  · intro h0
    have stops := List.mem_takeWhile_imp h0
    exact absurd rfl (bne_iff_ne.1 stops)
  · intro hmem
    have pre : line.takeWhile (fun b => b != 0) <+: line := List.takeWhile_prefix _
    exact newline_last List.not_mem_nil hline (dropLast_subset_of_part pre.isInfix hmem)

theorem readFile_forall {P Q : Peer → Prop} (zero : P Peer.zero)
    (store : ∀ q, P q → q.id ≠ [] → Q q)
    (read : ∀ l, 0 ∉ l ∧ 10 ∉ l.dropLast → 123 ∉ l → ∀ q f, P q → P (Field.read l q f))
    {st : LoadState} (h : (∀ p ∈ st.peers, Q p) ∧ P st.peer) (file : Bytes) :
    (∀ p ∈ (st.readFile file).peers, Q p) ∧ P (st.readFile file).peer := by
  unfold readFile
  apply List.foldlRecOn (motive := fun st : LoadState => (∀ p ∈ st.peers, Q p) ∧ P st.peer)
  · exact h
  · exact fun st hst l hl => readLine_forall zero store (read l (mem_lines hl)) hst

theorem length_readFile_le {st : LoadState} (h : st.peers.length ≤ maxPeers) (file : Bytes) :
    (st.readFile file).peers.length ≤ maxPeers := by
  unfold readFile
  apply List.foldlRecOn (motive := fun st : LoadState => st.peers.length ≤ maxPeers)
  · exact h
  · intro st hst l _
    unfold readLine
    split_ifs
    · exact hst
    · exact hst
    · exact hst
    · show (st.push _).length ≤ maxPeers
      unfold push
      split_ifs with kept
      · rw [List.length_append, List.length_singleton]
        exact kept.2
      · exact hst
    · exact hst

end LoadState

/-- What holds of every record while it is read from a file. -/
structure Peer.Loaded (q : Peer) : Prop where
  id_lt : q.id.length < idSize
  id_str : 0 ∉ q.id
  ip_str : 0 ∉ q.ip
  state : IsInt q.state.code
  port : IsInt q.port
  lastSeen : IsLong q.lastSeen
  createdAt : IsLong q.createdAt
  friendSince : IsLong q.friendSince
  pendingMessages : IsInt q.pendingMessages
  ghostCount : IsInt q.ghostCount

namespace Peer.Loaded

theorem zero : Peer.zero.Loaded where
  id_lt := by decide
  id_str := by decide
  ip_str := by decide
  state := ⟨by decide, by decide⟩
  port := ⟨by decide, by decide⟩
  lastSeen := ⟨by decide, by decide⟩
  createdAt := ⟨by decide, by decide⟩
  friendSince := ⟨by decide, by decide⟩
  pendingMessages := ⟨by decide, by decide⟩
  ghostCount := ⟨by decide, by decide⟩

/-- Whatever a conversion yields fits its field. -/
theorem convert {q : Peer} (hq : q.Loaded) (f : Field) {rest : CString} (str : 0 ∉ rest) :
    (f.convert rest q).Loaded := by
  have int {g : ℤ → Peer} (h : ∀ n, IsInt n → (g n).Loaded) : ((scanInt rest).elim q g).Loaded := by
    cases number : scanInt rest with
    | none => exact hq
    | some n => exact h n (isInt_of_scanInt number)
  have long {g : ℤ → Peer} (h : ∀ n, IsLong n → (g n).Loaded) :
      ((scanLong rest).elim q g).Loaded := by
    cases number : scanLong rest with
    | none => exact hq
    | some n => exact h n (isLong_of_scanLong number)
  have text {g : CString → Peer} (h : ∀ s, s.length ≤ 63 → 0 ∉ s → (g s).Loaded) :
      ((scanSet 63 34 rest).elim q g).Loaded := by
    cases set : scanSet 63 34 rest with
    | none => exact hq
    | some s =>
      obtain ⟨pre, -, short, -⟩ := scanSet_eq_some set
      exact h s short fun h0 => str (pre.subset h0)
  cases f with
  | id => exact text fun s short clean => { hq with id_lt := Nat.lt_succ_of_le short, id_str := clean }
  | ip => exact text fun s _ clean => { hq with ip_str := clean }
  | state =>
    apply int
    intro n hn
    refine { hq with state := ?_ }
    show IsInt (PeerState.ofCode n).code
    rwa [PeerState.code_ofCode]
  | online | busy => exact int fun n _ => { hq with }
  | port => exact int fun n hn => { hq with port := hn }
  | lastSeen => exact long fun n hn => { hq with lastSeen := hn }
  | createdAt => exact long fun n hn => { hq with createdAt := hn }
  | friendSince => exact long fun n hn => { hq with friendSince := hn }
  | pendingMessages => exact int fun n hn => { hq with pendingMessages := hn }
  | ghostCount => exact int fun n hn => { hq with ghostCount := hn }

theorem read {q : Peer} (hq : q.Loaded) (f : Field) {l : CString} (str : 0 ∉ l) :
    (Field.read l q f).Loaded := by
  unfold Field.read
  cases text : scanText f.format l with
  | none => exact hq
  | some rest => exact hq.convert f fun h0 => str ((suffix_of_scanText text).subset h0)

theorem fits {q : Peer} (hq : q.Loaded) (id_ne : q.id ≠ []) (ip_lt : q.ip.length < inetAddrStrLen) :
    q.Fits :=
  { hq with id_ne := id_ne, ip_lt := ip_lt }

end Peer.Loaded

/-- The records a process starts with. -/
theorem stateInit_loaded (file : Bytes) :
    (∀ p ∈ (stateInit (some file)).peers, p.Loaded ∧ p.id ≠ []) ∧
      (stateInit (some file)).peers.length ≤ maxPeers := by
  constructor
  · have start : (∀ p ∈ (LoadState.mk [] Peer.zero false).peers, p.Loaded ∧ p.id ≠ []) ∧
        Peer.zero.Loaded := ⟨fun p hp => absurd hp List.not_mem_nil, Peer.Loaded.zero⟩
    refine (LoadState.readFile_forall Peer.Loaded.zero ?_ ?_ start file).1
    · exact fun q hq id_ne => ⟨hq, id_ne⟩
    · exact fun l hl _ q f hq => hq.read f hl.1
  · have few : (LoadState.mk [] Peer.zero false).peers.length ≤ maxPeers := Nat.zero_le _
    exact LoadState.length_readFile_le few file

/-! ## The tables of a process -/

/-- The arguments are C strings, and numbers of the C types. -/
def TableCall.Typed : TableCall → Prop
  | .addPeer now id => IsLong now ∧ 0 ∉ id
  | .updatePeer now _ state => IsLong now ∧ IsInt state.code
  | .setOnline now _ _ => IsLong now
  | .setIp _ ip => 0 ∉ ip.val
  | .setPort _ port => IsInt port
  | .updateLastSeen now _ => IsLong now
  | _ => True

/-- What a process can have made of the state manager since it started, without a file or with one
whose ips fit `ip[16]` and whose counts leave room for the ghost messages of the process. -/
inductive Reachable : StateManager → Prop where
  | init : Reachable StateManager.init
  | load (file : Bytes)
    (sound : ∀ p ∈ (stateInit (some file)).peers,
      p.ip.length < inetAddrStrLen ∧ p.ghostCount + maxGhostMessages < 2147483648) :
    Reachable (stateInit (some file))
  | table {sm : StateManager} (h : Reachable sm) (call : TableCall) (typed : call.Typed) :
    Reachable (call.exec sm).2
  | addGhost {sm : StateManager} (h : Reachable sm) (now : Time) (rand : ℕ) (toId message : CString) :
    Reachable (stateAddGhostMessage now rand toId message sm).2
  | deliver {s : Store} (h : Reachable s.sm) (now : Time) (toId : CString) :
    Reachable (stateDeliverGhostMessages now toId s).2.sm

/-- A count can take the messages there is still room for. -/
def HasRoom (ghosts : List GhostMessage) (p : Peer) : Prop :=
  p.ghostCount + (maxGhostMessages - ghosts.length) < 2147483648

/-- Every record fits and goes on fitting; so do the records that slots behind the table still hold,
as far as they are used again. -/
structure FitsTable (sm : StateManager) : Prop where
  fits : ∀ p ∈ sm.peers, p.Fits
  counts : ∀ p ∈ sm.peers, HasRoom sm.ghosts p
  ghosts : sm.ghosts.length ≤ maxGhostMessages
  stale : ∀ p ∈ sm.stale, IsLong p.friendSince
  few : sm.peers.length ≤ maxPeers

theorem HasRoom.more {ghosts ghosts' : List GhostMessage} {p : Peer} (h : HasRoom ghosts p)
    (more : ghosts.length ≤ ghosts'.length) : HasRoom ghosts' p := by
  unfold HasRoom at h ⊢
  omega

namespace FitsTable

variable {sm : StateManager}

/-- A write through the pointer a search returned. -/
theorem write (h : FitsTable sm) {normId : CString} {c : Cursor Peer}
    (found : findRecord normId sm.peers = some c) {p' : Peer} {ghosts : List GhostMessage}
    (fits : p'.Fits) (counts : HasRoom ghosts p')
    (more : sm.ghosts.length ≤ ghosts.length) (room : ghosts.length ≤ maxGhostMessages) :
    FitsTable { sm with peers := (c.set p').toList, ghosts := ghosts } := by
  have table := (findRecord_eq_some found).1
  have old : ∀ p ∈ (c.set p').toList, p = p' ∨ p ∈ sm.peers := by
    intro p hp
    rw [← table]
    rcases Cursor.mem_toList_set hp with hp | hp | hp
    · exact Or.inl hp
    · exact Or.inr (Cursor.mem_toList.2 (Or.inl hp))
    · exact Or.inr (Cursor.mem_toList.2 (Or.inr (Or.inr hp)))
  refine ⟨?_, ?_, room, h.stale, ?_⟩
  · intro p hp
    rcases old p hp with rfl | hp
    · exact fits
    · exact h.fits p hp
  · intro p hp
    rcases old p hp with rfl | hp
    · exact counts
    · exact (h.counts p hp).more more
  · have few := h.few
    rw [← table] at few
    simpa [Cursor.toList] using few

theorem val_mem {normId : CString} {c : Cursor Peer} (found : findRecord normId sm.peers = some c) :
    c.val ∈ sm.peers :=
  (findRecord_eq_some found).1 ▸ c.val_mem_toList

theorem modify (h : FitsTable sm) (id : CString) {f : Peer → Peer}
    (fits : ∀ p, p.Fits → (f p).Fits) (same : ∀ p, (f p).ghostCount = p.ghostCount) :
    FitsTable (modifyPeer id f sm).2 := by
  unfold modifyPeer
  split_ifs
  · exact h
  · cases found : findRecord (normalizeId id) sm.peers with
    | none => exact h
    | some c =>
      apply h.write found
      · exact fits _ (h.fits _ (val_mem found))
      · unfold HasRoom
        rw [same]
        exact h.counts _ (val_mem found)
      · exact Nat.le_refl _
      · exact h.ghosts

/-- The count of the recipient follows the stored messages. -/
theorem adjust (h : FitsTable sm) (id : CString) {f : ℤ → ℤ} {ghosts : List GhostMessage}
    (bounds : ∀ p : Peer, IsInt p.ghostCount → HasRoom sm.ghosts p →
      IsInt (f p.ghostCount) ∧ HasRoom ghosts { p with ghostCount := f p.ghostCount })
    (more : sm.ghosts.length ≤ ghosts.length) (room : ghosts.length ≤ maxGhostMessages) :
    FitsTable { sm with peers := adjustGhostCount id f sm.peers, ghosts := ghosts } := by
  unfold adjustGhostCount
  cases found : findRecord id sm.peers with
  | none => exact ⟨h.fits, fun p hp => (h.counts p hp).more more, room, h.stale, h.few⟩
  | some c =>
    have old := h.fits _ (val_mem found)
    obtain ⟨int, counts⟩ := bounds c.val old.ghostCount (h.counts _ (val_mem found))
    exact h.write found { old with ghostCount := int } counts more room

theorem add (h : FitsTable sm) {now : Time} (range : IsLong now) {id : CString} (str : 0 ∉ id) :
    FitsTable (stateAddPeer now id sm).2 := by
  rcases stateAddPeer_cases now id sm with
    ⟨-, hadd⟩ | ⟨hid, ⟨c, -, hadd⟩ | ⟨-, -, hadd⟩ | ⟨-, room, hadd⟩⟩
  · rwa [hadd]
  · rwa [hadd]
  · rwa [hadd]
  · rw [hadd]
    have since : IsLong (sm.stale.headD Peer.zero).friendSince := by
      cases hs : sm.stale with
      | nil => exact ⟨by decide, by decide⟩
      | cons p l => exact h.stale p (hs ▸ List.mem_cons_self)
    have zero : IsInt 0 := ⟨by decide, by decide⟩
    have fits : ((sm.stale.headD Peer.zero).renewed now (normalizeId id)).Fits :=
      { id_ne := hid
        id_lt := length_normalizeId_lt id
        id_str := fun h0 => str (List.mem_of_mem_filter (List.mem_of_mem_take h0))
        ip_lt := Nat.zero_lt_succ 15
        ip_str := List.not_mem_nil
        state := zero
        port := zero
        lastSeen := range
        createdAt := range
        friendSince := since
        pendingMessages := zero
        ghostCount := zero }
    refine ⟨?_, ?_, h.ghosts, ?_, ?_⟩
    · intro p hp
      rcases List.mem_append.1 hp with hp | hp
      · exact h.fits p hp
      · rw [List.mem_singleton.1 hp]
        exact fits
    · intro p hp
      rcases List.mem_append.1 hp with hp | hp
      · exact h.counts p hp
      · rw [List.mem_singleton.1 hp]
        show 0 + ((maxGhostMessages : ℤ) - sm.ghosts.length) < 2147483648
        unfold maxGhostMessages
        omega
    · exact fun p hp => h.stale p (List.mem_of_mem_tail hp)
    · show (sm.peers ++ [_]).length ≤ maxPeers
      rw [List.length_append, List.length_singleton]
      omega

theorem remove (h : FitsTable sm) (id : CString) : FitsTable (stateRemovePeer id sm).2 := by
  unfold stateRemovePeer
  split_ifs
  · exact h
  · cases found : findRecord (normalizeId id) sm.peers with
    | none => exact h
    | some c =>
      have table := (findRecord_eq_some found).1
      have kept : ∀ p ∈ c.erase, p ∈ sm.peers := by
        intro p hp
        rw [← table, Cursor.mem_toList]
        rcases List.mem_append.1 hp with hp | hp
        · exact Or.inl hp
        · exact Or.inr (Or.inr hp)
      have last : c.after.getLastD c.val ∈ sm.peers := by
        rw [← table, Cursor.mem_toList]
        exact Or.inr (List.mem_cons.1 List.getLastD_mem_cons)
      refine ⟨fun p hp => h.fits p (kept p hp), fun p hp => h.counts p (kept p hp), h.ghosts, ?_, ?_⟩
      · intro p hp
        rcases List.mem_cons.1 hp with rfl | hp
        · exact (h.fits _ last).friendSince
        · exact h.stale p hp
      · have few := h.few
        rw [← table] at few
        simp only [Cursor.toList, Cursor.erase, List.length_append, List.length_cons] at few ⊢
        omega

theorem exec (h : FitsTable sm) {call : TableCall} (typed : call.Typed) :
    FitsTable (call.exec sm).2 := by
  cases call with
  | addPeer now id => exact h.add typed.1 typed.2
  | removePeer id => exact h.remove id
  | updatePeer now id state =>
    refine h.modify id (fun p fits => ?_) fun _ => rfl
    refine { fits with state := typed.2, lastSeen := typed.1, friendSince := ?_ }
    dsimp only
    split_ifs
    · exact typed.1
    · exact fits.friendSince
  | setOnline now id online =>
    exact h.modify id (fun p fits => { fits with lastSeen := typed }) fun _ => rfl
  | setIp id ip =>
    exact h.modify id (fun p fits => { fits with ip_lt := ip.property, ip_str := typed }) fun _ => rfl
  | setPort id port => exact h.modify id (fun p fits => { fits with port := typed }) fun _ => rfl
  | updateLastSeen now id =>
    exact h.modify id (fun p fits => { fits with lastSeen := typed }) fun _ => rfl
  | setBusy id | setSecure id | setName id | setPublicKey id =>
    exact h.modify id (fun p fits => { fits with }) fun _ => rfl
  | _ => exact h

theorem addGhost (h : FitsTable sm) (now : Time) (rand : ℕ) (toId message : CString) :
    FitsTable (stateAddGhostMessage now rand toId message sm).2 := by
  unfold stateAddGhostMessage
  dsimp only
  split_ifs with empty full
  · exact h
  · exact h
  · have last : sm.ghosts.length + 1 ≤ maxGhostMessages := Nat.lt_of_not_le full
    apply h.adjust
    · intro p int counts
      unfold HasRoom at counts ⊢
      unfold IsInt at int ⊢
      rw [List.length_append, List.length_singleton]
      dsimp only
      omega
    · rw [List.length_append]
      exact Nat.le_add_right _ _
    · rw [List.length_append, List.length_singleton]
      exact last

theorem deliver {s : Store} (h : FitsTable s.sm) (now : Time) (toId : CString) :
    FitsTable (stateDeliverGhostMessages now toId s).2.sm := by
  rw [stateDeliverGhostMessages_eq]
  split_ifs
  · exact h
  · apply h.adjust
    · intro p int counts
      unfold HasRoom at counts ⊢
      unfold IsInt at int ⊢
      rw [List.length_map]
      unfold maxGhostMessages at counts ⊢
      dsimp only
      omega
    · rw [List.length_map]
    · rw [List.length_map]
      exact h.ghosts

theorem init : FitsTable StateManager.init where
  fits := fun _ hp => absurd hp List.not_mem_nil
  counts := fun _ hp => absurd hp List.not_mem_nil
  ghosts := Nat.zero_le _
  stale := fun _ hp => absurd hp List.not_mem_nil
  few := Nat.zero_le _

/-- The table a process starts with. -/
theorem load {file : Bytes} (sound : ∀ p ∈ (stateInit (some file)).peers,
    p.ip.length < inetAddrStrLen ∧ p.ghostCount + maxGhostMessages < 2147483648) :
    FitsTable (stateInit (some file)) := by
  obtain ⟨loaded, few⟩ := stateInit_loaded file
  refine ⟨?_, ?_, Nat.zero_le _, ?_, few⟩
  · intro p hp
    exact (loaded p hp).1.fits (loaded p hp).2 (sound p hp).1
  · intro p hp
    have counts := (sound p hp).2
    show p.ghostCount + ((maxGhostMessages : ℤ) - ((0 : ℕ) : ℤ)) < 2147483648
    omega
  · intro p hp
    exact absurd (List.mem_of_mem_drop hp) List.not_mem_nil

end FitsTable

/-- The records of every table that a process can reach fit. -/
theorem Reachable.fitsTable {sm : StateManager} (h : Reachable sm) : FitsTable sm := by
  induction h with
  | init => exact FitsTable.init
  | load file sound => exact FitsTable.load sound
  | table _ call typed ih => exact ih.exec typed
  | addGhost _ now rand toId message ih => exact ih.addGhost now rand toId message
  | deliver _ now toId ih => exact ih.deliver now toId

theorem reachable_foldl {sm : StateManager} (h : Reachable sm) {calls : List TableCall}
    (typed : ∀ call ∈ calls, call.Typed) :
    Reachable (calls.foldl (fun sm call => (call.exec sm).2) sm) := by
  induction calls generalizing sm with
  | nil => exact h
  | cons call calls ih =>
    apply ih
    · exact h.table call (typed call List.mem_cons_self)
    · exact fun c hc => typed c (List.mem_cons_of_mem call hc)

/-! ## Tables with plain ids and ips -/

/-- Letters, digits, `-` and `.`. -/
def isPlainByte (c : UInt8) : Bool :=
  (97 ≤ c && c ≤ 122) || (65 ≤ c && c ≤ 90) || isDigit c || c == 45 || c == 46

/-- A text of plain characters. -/
def IsPlain (s : CString) : Prop := s.all isPlainByte = true

instance (s : CString) : Decidable (IsPlain s) := inferInstanceAs (Decidable (_ = _))

theorem IsPlain.not_mem {s : CString} (h : IsPlain s) {c : UInt8} (hc : isPlainByte c = false) :
    c ∉ s := by
  intro hmem
  rw [List.all_eq_true.1 h c hmem] at hc
  cases hc

/-- The fields `state_save` writes. -/
structure SavedFields where
  id : CString
  state : ℤ
  online : Bool
  busy : Bool
  ip : CString
  port : ℤ
  lastSeen : Time
  createdAt : Time
  friendSince : Time
  pendingMessages : ℤ
  ghostCount : ℤ
  deriving DecidableEq

/-- The fields of a record that are saved. -/
def Peer.saved (p : Peer) : SavedFields where
  id := p.id
  state := p.state.code
  online := p.online
  busy := p.busy
  ip := p.ip
  port := p.port
  lastSeen := p.lastSeen
  createdAt := p.createdAt
  friendSince := p.friendSince
  pendingMessages := p.pendingMessages
  ghostCount := p.ghostCount

/-- What comes back of a record: all that is written but the flags. -/
def Peer.restored (p : Peer) : Peer :=
  { Peer.zero with
    id := p.id
    state := .ofCode p.state.code
    ip := p.ip
    port := p.port
    lastSeen := p.lastSeen
    createdAt := p.createdAt
    friendSince := p.friendSince
    pendingMessages := p.pendingMessages
    ghostCount := p.ghostCount }

theorem saved_restored (p : Peer) :
    p.restored.saved = { p.saved with online := false, busy := false } := by
  unfold Peer.saved Peer.restored
  simp only [PeerState.code_ofCode]
  rfl

namespace LoadState

/-- The lines of the fields of a plain record are copied one after the other. -/
theorem readLines_fields {p : Peer} (fits : p.Fits) (plain_id : IsPlain p.id)
    (plain_ip : IsPlain p.ip) (peers : List Peer) (q : Peer) (fs : List Field) :
    readLines ⟨peers, q, true⟩ (fs.map fun f => f.line p) =
      ⟨peers, fs.foldl (fun q f => f.copy p q) q, true⟩ := by
  induction fs generalizing q with
  | nil => rfl
  | cons f fs ih =>
    have absent {c : UInt8} (special : isSpecial c = true) (hc : isPlainByte c = false)
        (hn : c ≠ 10) : c ∉ f.line p ++ [10] := by
      rw [List.mem_append, Field.mem_line_iff special]
      rintro ((⟨-, h⟩ | ⟨-, h⟩) | h)
      · exact plain_id.not_mem hc h
      · exact plain_ip.not_mem hc h
      · exact hn (List.mem_singleton.1 h)
    have copied : Field.all.foldl (Field.read (f.line p ++ [10])) q = f.copy p q := by
      rw [Field.foldl_read (g := f) fun f' q h => Field.read_other h p q]
      exact Field.read_own fits f (fun _ => plain_id.not_mem rfl) (fun _ => plain_ip.not_mem rfl) q
    rw [List.map_cons, readLines_cons, readLine_field _ (Field.length_line_gt p f)
      (absent rfl rfl (by decide)), if_pos rfl, if_neg (absent rfl rfl (by decide)), copied, ih]
    rfl

theorem readLines_plain_record {p : Peer} (fits : p.Fits) (plain_id : IsPlain p.id)
    (plain_ip : IsPlain p.ip) (last : Bool) (st : LoadState) (room : st.peers.length < maxPeers) :
    st.readLines (recordLines last p) = ⟨st.peers ++ [p.restored], Peer.zero, false⟩ := by
  have lines : idLines p ++ Field.others.map (fun f => f.line p) =
      Field.all.map fun f => f.line p := by
    unfold idLines
    rw [if_neg (plain_id.not_mem rfl)]
    rfl
  have record : Field.all.foldl (fun q f => f.copy p q) Peer.zero = p.restored := by
    simp only [Field.all, List.foldl_cons, List.foldl_nil, Field.copy, Peer.restored]
    split_ifs with empty
    · rw [empty]
      rfl
    · rfl
  unfold recordLines
  rw [readLines_cons, readLine_open, lines, readLines_append, readLines_fields fits plain_id plain_ip,
    record, readLines_cons, readLines_nil, readLine_close, if_pos rfl]
  unfold push
  rw [if_pos ⟨fits.id_ne, room⟩]

end LoadState

/-- The table that a restart makes of a plain one. -/
theorem restart_plain {sm : StateManager} (fits : ∀ p ∈ sm.peers, p.Fits)
    (few : sm.peers.length ≤ maxPeers) (plain : ∀ p ∈ sm.peers, IsPlain p.id ∧ IsPlain p.ip) :
    (restart sm).peers = sm.peers.map Peer.restored := by
  have stored : (restart sm).peers.map (fun p => p) = sm.peers.filterMap fun p => some p.restored := by
    apply restart_peers fits few
    · intro p hp h10
      exact (plain p hp).1.not_mem rfl (List.dropLast_subset _ h10)
    · intro p hp
      exact (plain p hp).2.not_mem rfl
    · intro p hp last st room
      rw [LoadState.readLines_plain_record (fits p hp) (plain p hp).1 (plain p hp).2 last st room]
      refine ⟨rfl, ?_⟩
      rw [List.map_id', List.map_id']
      rfl
  rwa [List.map_id', List.filterMap_eq_map'] at stored

/-- Saving a table with plain ids and ips and loading it again restores the fields that are written
exactly if no record is online or busy. -/
theorem saved_restart_iff {sm : StateManager} (fits : ∀ p ∈ sm.peers, p.Fits)
    (few : sm.peers.length ≤ maxPeers) (plain : ∀ p ∈ sm.peers, IsPlain p.id ∧ IsPlain p.ip) :
    (restart sm).peers.map Peer.saved = sm.peers.map Peer.saved ↔
      ∀ p ∈ sm.peers, p.online = false ∧ p.busy = false := by
  rw [restart_plain fits few plain, List.map_map, List.map_inj_left]
  refine forall₂_congr fun p _ => ?_
  rw [Function.comp_apply, saved_restored]
  constructor
  · intro h
    exact ⟨(congrArg SavedFields.online h).symm, (congrArg SavedFields.busy h).symm⟩
  · rintro ⟨online, busy⟩
    unfold Peer.saved
    rw [online, busy]

theorem save_load_restores_iff {sm : StateManager} (reachable : Reachable sm)
    (plain : ∀ p ∈ sm.peers, IsPlain p.id ∧ IsPlain p.ip) :
    (restart sm).peers.map Peer.saved = sm.peers.map Peer.saved ↔
      ∀ p ∈ sm.peers, p.online = false ∧ p.busy = false :=
  saved_restart_iff reachable.fitsTable.fits reachable.fitsTable.few plain

theorem friendIp_lt : (ascii "10.0.0.1").length < inetAddrStrLen := by decide

/-- The calls that make a friend, who comes online and goes away again. -/
def friendCalls : List TableCall :=
  [.addPeer 1 (ascii "bob"), .setIp (ascii "bob") ⟨ascii "10.0.0.1", friendIp_lt⟩,
    .setPort (ascii "bob") 9000, .updatePeer 2 (ascii "bob") .friend,
    .setOnline 3 (ascii "bob") true, .setOnline 4 (ascii "bob") false]

theorem friendCalls_typed : ∀ call ∈ friendCalls, call.Typed := by
  have small {n : ℤ} (lo : 0 ≤ n) (hi : n ≤ 9000) : IsLong n ∧ IsInt n := by
    unfold IsLong IsInt longMin longMax
    omega
  intro call hcall
  simp only [friendCalls, List.mem_cons, List.not_mem_nil, or_false] at hcall
  rcases hcall with rfl | rfl | rfl | rfl | rfl | rfl
  · exact ⟨(small (by decide) (by decide)).1, by decide⟩
  · show 0 ∉ ascii "10.0.0.1"
    decide +kernel
  · exact (small (by decide) (by decide)).2
  · exact ⟨(small (by decide) (by decide)).1, (small (by decide) (by decide)).2⟩
  · exact (small (by decide) (by decide)).1
  · exact (small (by decide) (by decide)).1

/-- The table after the first `n` of these calls. -/
def friendTable (n : ℕ) : StateManager :=
  (friendCalls.take n).foldl (fun sm call => (call.exec sm).2) StateManager.init

theorem friendTable_reachable (n : ℕ) : Reachable (friendTable n) :=
  reachable_foldl Reachable.init fun call hcall => friendCalls_typed call (List.mem_of_mem_take hcall)

theorem save_load_restores_iff_away :
    (restart (friendTable 6)).peers.map Peer.saved = (friendTable 6).peers.map Peer.saved ↔
      ∀ p ∈ (friendTable 6).peers, p.online = false ∧ p.busy = false :=
  save_load_restores_iff (friendTable_reachable 6) (by decide +kernel)

/-- The flag of a friend who is online is lost. -/
theorem online_lost :
    Reachable (friendTable 5) ∧ (∀ p ∈ (friendTable 5).peers, IsPlain p.id ∧ IsPlain p.ip) ∧
      (restart (friendTable 5)).peers.map Peer.saved ≠ (friendTable 5).peers.map Peer.saved :=
  ⟨friendTable_reachable 5, by decide +kernel, by decide +kernel⟩

end Orcashi
