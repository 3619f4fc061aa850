import Orcashi.Persistence

/-!
# Saving that is interrupted

`state_save` empties the file and fills it piece by piece.  What a process loads in between, or
after the saving one has stopped, grows from nothing to the new table; only a table whose records
all appear at once is never seen in part.
-/

namespace Orcashi

open CMemory Stdio

/-! ## The pieces -/

/-- The `fprintf` calls that end a record; the last record gets no comma. -/
def bracePieces (last : Bool) : List Bytes :=
  if last then [ascii "    \x7d", ascii "\n"] else [ascii "    \x7d", ascii ",", ascii "\n"]

/-- The `fprintf` calls for one record. -/
def recordPieces (last : Bool) (p : Peer) : List Bytes :=
  ascii "    \x7b\n" :: (Field.all.map fun f => f.line p ++ [10]) ++ bracePieces last

/-- What is printed for all records. -/
def recordsPieces : List Peer → List Bytes
  | [] => []
  | [p] => recordPieces true p
  | p :: ps => recordPieces false p ++ recordsPieces ps

/-- The `fprintf` calls of `state_save`. -/
def savePieces (sm : StateManager) : List Bytes :=
  [ascii "\x7b\n", ascii "  \"version\": 1,\n", ascii "  \"peers\": [\n"] ++ recordsPieces sm.peers ++
    [ascii "  ]\n", ascii "\x7d\n"]

theorem flatten_recordPieces (last : Bool) (p : Peer) :
    (recordPieces last p).flatten = savePeer last p := by
  unfold recordPieces savePeer
  rw [List.flatten_append, List.flatten_cons, ← List.flatMap_def]
  cases last <;> rfl

theorem flatten_recordsPieces (ps : List Peer) : (recordsPieces ps).flatten = savePeers ps := by
  induction ps using recordsPieces.induct with
  | case1 => rfl
  | case2 p => exact flatten_recordPieces true p
  | case3 p ps more ih =>
    rw [recordsPieces, savePeers, List.flatten_append, flatten_recordPieces, ih]
    · exact more
    · exact more

theorem flatten_savePieces (sm : StateManager) : (savePieces sm).flatten = stateSave sm := by
  unfold savePieces stateSave
  rw [List.flatten_append, List.flatten_append, flatten_recordsPieces, List.append_assoc _ (ascii "  ]\n")]
  rfl

/-- The file while `state_save` is at work: as it was, emptied, and then with more and more pieces. -/
def fileDuring (old : Option Bytes) (sm : StateManager) : ℕ → Option Bytes
  | 0 => old
  | k + 1 => some ((savePieces sm).take k).flatten

/-- `state_load` into a cleared table. -/
def loadTable (file : Option Bytes) : List Peer := (stateInit file).peers

/-- What is loaded is the table of the old file or that of the new one. -/
def Whole (old : Option Bytes) (sm : StateManager) (k : ℕ) : Prop :=
  loadTable (fileDuring old sm k) = loadTable old ∨
    loadTable (fileDuring old sm k) = loadTable (some (stateSave sm))

/-! ## Reading on -/

namespace LoadState

theorem readLine_prefix (st : LoadState) (l : CString) : st.peers <+: (st.readLine l).peers := by
  have push (q : Peer) : st.peers <+: st.push q := by
    unfold LoadState.push
    split_ifs
    · exact List.prefix_append _ _
    · exact List.prefix_rfl
  unfold readLine
  split_ifs
  · exact List.prefix_rfl
  · exact List.prefix_rfl
  · exact List.prefix_rfl
  · exact push _
  · exact List.prefix_rfl

/-- Whatever the file holds, records are only added. -/
theorem readFile_prefix (st : LoadState) (file : Bytes) : st.peers <+: (st.readFile file).peers := by
  unfold readFile
  apply List.foldlRecOn (motive := fun st' : LoadState => st.peers <+: st'.peers)
  · exact List.prefix_rfl
  · exact fun st' h l _ => h.trans (st'.readLine_prefix l)

/-- What follows a newline is read by itself. -/
theorem readFile_append (st : LoadState) {a : Bytes} (closed : a.getLast? = some 10) (b : Bytes) :
    st.readFile (a ++ b) = (st.readFile a).readFile b := by
  unfold readFile
  rw [fgets_append closed, List.map_append, List.foldl_append]

/-- The line that ends a record, however far it is written. -/
def braceLines : List CString :=
  [ascii "    \x7d", ascii "    \x7d,", ascii "    \x7d\n", ascii "    \x7d,\n"]

theorem readFile_braceLine (st : LoadState) {l : CString} (h : l ∈ braceLines) :
    st.readFile l = if st.inPeer then ⟨st.push st.peer, Peer.zero, false⟩ else st := by
  have one : ∀ l ∈ braceLines, (fgets lineSize l).map (fun line => strAt line 0) = [l] := by decide
  have silent (f : Field) : ∀ l ∈ braceLines, scanText f.format l = none := by
    cases f <;> decide
  have braces : ∀ l ∈ braceLines, 1 < l.length ∧ 123 ∉ l ∧ 125 ∈ l := by decide
  obtain ⟨long, opens, closes⟩ := braces l h
  unfold readFile
  rw [one l h, List.foldl_cons, List.foldl_nil, readLine_field st long opens, if_pos closes,
    foldl_read_of_silent fun f => silent f l h]

/-- That line has its effect as soon as its first piece is there. -/
theorem readFile_brace (st : LoadState) (last : Bool) {i : ℕ} (hi : 0 < i) :
    st.readFile ((bracePieces last).take i).flatten =
      if st.inPeer then ⟨st.push st.peer, Peer.zero, false⟩ else st := by
  apply readFile_braceLine
  obtain ⟨i, rfl⟩ : ∃ i', i = i' + 1 := ⟨i - 1, by omega⟩
  cases last with
  | true => rcases i with _ | i <;> simp [bracePieces, braceLines, ascii]
  | false => rcases i with _ | _ | i <;> simp [bracePieces, braceLines, ascii]

end LoadState

/-! ## Files that grow -/

/-- Every piece ends a line, but for the closing brace of a record. -/
inductive Orderly : List Bytes → Prop where
  | nil : Orderly []
  | line {b : Bytes} {ps : List Bytes} (closed : b.getLast? = some 10) (h : Orderly ps) :
    Orderly (b :: ps)
  | brace (last : Bool) {ps : List Bytes} (h : Orderly ps) : Orderly (bracePieces last ++ ps)

theorem Orderly.append {ps qs : List Bytes} (hp : Orderly ps) (hq : Orderly qs) :
    Orderly (ps ++ qs) := by
  induction hp with
  | nil => exact hq
  | line closed _ ih => exact .line closed ih
  | brace last _ ih =>
    rw [List.append_assoc]
    exact .brace last ih

theorem Orderly.of_lines {ps : List Bytes} (h : ∀ b ∈ ps, b.getLast? = some 10) : Orderly ps := by
  induction ps with
  | nil => exact .nil
  | cons b ps ih =>
    exact .line (h b List.mem_cons_self) (ih fun b' hb' => h b' (List.mem_cons_of_mem b hb'))

theorem orderly_recordPieces (last : Bool) (p : Peer) : Orderly (recordPieces last p) := by
  unfold recordPieces
  refine .append (.of_lines ?_) ?_
  · intro b hb
    rcases List.mem_cons.1 hb with rfl | hb
    · rfl
    · obtain ⟨f, -, rfl⟩ := List.mem_map.1 hb
      exact List.getLast?_concat
  · rw [← List.append_nil (bracePieces last)]
    exact .brace last .nil

theorem orderly_savePieces (sm : StateManager) : Orderly (savePieces sm) := by
  unfold savePieces
  refine .append (.append (.of_lines (by decide)) ?_) (.of_lines (by decide))
  induction sm.peers using recordsPieces.induct with
  | case1 => exact .nil
  | case2 p => exact orderly_recordPieces true p
  | case3 p ps more ih =>
    rw [recordsPieces]
    · exact (orderly_recordPieces false p).append ih
    · exact more

/-- With more pieces in the file, records are added to what is loaded. -/
theorem Orderly.mono {ps : List Bytes} (h : Orderly ps) {i j : ℕ} (hij : i ≤ j) (st : LoadState) :
    (st.readFile (ps.take i).flatten).peers <+: (st.readFile (ps.take j).flatten).peers := by
  induction h generalizing i j st with
  | nil => simp
  | @line b ps closed _ ih =>
    cases i with
    | zero => exact st.readFile_prefix _
    | succ i =>
      obtain ⟨j, rfl⟩ : ∃ j', j = j' + 1 := ⟨j - 1, by omega⟩
      simp only [List.take_succ_cons, List.flatten_cons, st.readFile_append closed]
      exact ih (by omega) _
  | @brace last ps _ ih =>
    -- from the first piece on, the record is stored and reading goes on behind it
    have stored {i : ℕ} (hi : 0 < i) :
        st.readFile ((bracePieces last ++ ps).take i).flatten =
          (if st.inPeer then ⟨st.push st.peer, Peer.zero, false⟩ else st).readFile
            (ps.take (i - (bracePieces last).length)).flatten := by
      rw [List.take_append, List.flatten_append]
      rcases Nat.lt_or_ge i (bracePieces last).length with short | long
      · rw [show i - (bracePieces last).length = 0 by omega, List.take_zero, List.flatten_nil,
          List.append_nil, LoadState.readFile_nil, st.readFile_brace last hi]
      · have closed : ((bracePieces last).take i).flatten.getLast? = some 10 := by
          rw [List.take_of_length_le long]
          cases last <;> rfl
        rw [st.readFile_append closed, st.readFile_brace last hi]
    rcases Nat.eq_zero_or_pos i with rfl | hi
    · exact st.readFile_prefix _
    · rw [stored hi, stored (by omega)]
      exact ih (by omega) _

/-! ## What is loaded in between -/

/-- What is loaded when the first `k` pieces are in the file. -/
def loadedAfter (sm : StateManager) (k : ℕ) : List Peer :=
  loadTable (some ((savePieces sm).take k).flatten)

theorem loadedAfter_mono (sm : StateManager) {i j : ℕ} (hij : i ≤ j) :
    loadedAfter sm i <+: loadedAfter sm j :=
  (orderly_savePieces sm).mono hij ⟨[], Peer.zero, false⟩

theorem loadedAfter_all {sm : StateManager} {k : ℕ} (hk : (savePieces sm).length ≤ k) :
    loadedAfter sm k = loadTable (some (stateSave sm)) := by
  unfold loadedAfter
  rw [List.take_of_length_le hk, flatten_savePieces]

theorem loadedAfter_part (sm : StateManager) (k : ℕ) :
    loadedAfter sm k <+: loadTable (some (stateSave sm)) := by
  rw [← loadedAfter_all (Nat.le_max_right k (savePieces sm).length)]
  exact loadedAfter_mono sm (Nat.le_max_left _ _)

/-- Some piece is the first with which anything is loaded. -/
theorem exists_first_record {sm : StateManager} (some_ : loadTable (some (stateSave sm)) ≠ []) :
    ∃ k, loadedAfter sm k = [] ∧ loadedAfter sm (k + 1) ≠ [] := by
  by_contra never
  push Not at never
  have empty : ∀ k, loadedAfter sm k = [] := by
    intro k
    induction k with
    | zero => rfl
    | succ k ih => exact never k ih
  exact some_ (loadedAfter_all (Nat.le_refl _) ▸ empty _)

/-- All records of the new table are stored by one piece. -/
def AtOnce (sm : StateManager) : Prop :=
  ∃ k, loadedAfter sm k = [] ∧ loadedAfter sm (k + 1) = loadTable (some (stateSave sm))

/-- Whenever the file is loaded, the table is the old or the new one, exactly if the new file holds no
record, or the old one held none and those of the new one are stored all at once. -/
theorem save_whole_iff (old : Option Bytes) (sm : StateManager) :
    (∀ k, Whole old sm k) ↔
      loadTable (some (stateSave sm)) = [] ∨ (loadTable old = [] ∧ AtOnce sm) := by
  constructor
  · intro whole
    by_cases none_new : loadTable (some (stateSave sm)) = []
    · exact Or.inl none_new
    have none_old : loadTable old = [] := by
      rcases whole 1 with h | h
      · exact h.symm
      · exact absurd h.symm none_new
    obtain ⟨k, before, after⟩ := exists_first_record none_new
    refine Or.inr ⟨none_old, k, before, ?_⟩
    rcases whole (k + 2) with h | h
    · exact absurd (h.trans none_old) after
    · exact h
  · rintro (none_new | ⟨none_old, k₀, before, after⟩) k
    · cases k with
      | zero => exact Or.inl rfl
      | succ k => exact Or.inr ((List.prefix_nil.1 (none_new ▸ loadedAfter_part sm k)).trans none_new.symm)
    · cases k with
      | zero => exact Or.inl rfl
      | succ k =>
        rcases Nat.lt_or_ge k₀ k with late | early
        · have all := loadedAfter_mono sm late
          rw [Nat.succ_eq_add_one, after] at all
          exact Or.inr ((loadedAfter_part sm k).eq_of_length_le all.length_le)
        · have none_yet := loadedAfter_mono sm early
          rw [before] at none_yet
          exact Or.inl ((List.prefix_nil.1 none_yet).trans none_old.symm)

/-! ## Plain tables -/

/-- What is loaded after the first of several records. -/
theorem loadedAfter_record {sm : StateManager} {p q : Peer} {ps : List Peer}
    (table : sm.peers = p :: q :: ps) (fits : p.Fits) (plain : IsPlain p.id ∧ IsPlain p.ip) :
    loadedAfter sm (3 + (recordPieces false p).length) = [p.restored] := by
  have cutAt : (savePieces sm).take (3 + (recordPieces false p).length) =
      [ascii "\x7b\n", ascii "  \"version\": 1,\n", ascii "  \"peers\": [\n"] ++
        recordPieces false p := by
    unfold savePieces
    rw [table, recordsPieces, ← List.append_assoc, List.append_assoc]
    · exact List.take_left' (by rw [List.length_append]; rfl)
    · exact List.cons_ne_nil q ps
  have id_line : 10 ∉ p.id.dropLast := fun h => plain.1.not_mem rfl (List.dropLast_subset _ h)
  have lines : ∀ l ∈ LoadState.header ++ recordLines false p, IsLine l := by
    intro l hl
    rcases List.mem_append.1 hl with hl | hl
    · have there : l ∈ fileLines [] := List.mem_append_left _ (List.mem_append_left _ hl)
      exact isLine_fileLines (by simp) (by simp) (by simp) l there
    · exact isLine_recordLines fits id_line (plain.2.not_mem rfl) false l hl
  have text : ((savePieces sm).take (3 + (recordPieces false p).length)).flatten =
      ended (LoadState.header ++ recordLines false p) ++ [] := by
    rw [cutAt, List.flatten_append, flatten_recordPieces, savePeer_eq false id_line, ended_append,
      List.append_nil]
    rfl
  show (LoadState.readFile ⟨[], Peer.zero, false⟩ _).peers = _
  rw [text, LoadState.readFile_ended _ lines, LoadState.readFile_nil, LoadState.readLines_append,
    LoadState.readLines_header, LoadState.readLines_plain_record fits plain.1 plain.2 false _ (by decide)]
  rfl

/-- For tables with plain ids and ips: the new table is empty, or it has one record and the old file
had none. -/
theorem save_whole_iff_plain (old : Option Bytes) {sm : StateManager}
    (fits : ∀ p ∈ sm.peers, p.Fits) (few : sm.peers.length ≤ maxPeers)
    (plain : ∀ p ∈ sm.peers, IsPlain p.id ∧ IsPlain p.ip) :
    (∀ k, Whole old sm k) ↔ sm.peers = [] ∨ (loadTable old = [] ∧ sm.peers.length = 1) := by
  have full : loadTable (some (stateSave sm)) = sm.peers.map Peer.restored :=
    restart_plain fits few plain
  rw [save_whole_iff, full, List.map_eq_nil_iff]
  refine or_congr_right' fun some_ => and_congr_right fun _ => ?_
  constructor
  · rintro ⟨k, before, after⟩
    rw [full] at after
    match table : sm.peers with
    | [] => exact absurd table some_
    | [p] => rfl
    | p :: q :: ps =>
      have hp : p ∈ sm.peers := table ▸ List.mem_cons_self
      have first := loadedAfter_record table (fits p hp) (plain p hp)
      rcases Nat.lt_or_ge k (3 + (recordPieces false p).length) with early | late
      · have part := (loadedAfter_mono sm (Nat.succ_le_of_lt early)).length_le
        rw [Nat.succ_eq_add_one, after, first, table] at part
        simp at part
      · have part := (loadedAfter_mono sm late).length_le
        rw [before, first] at part
        simp at part
  · intro one
    have loads : loadTable (some (stateSave sm)) ≠ [] := by simpa [full] using some_
    obtain ⟨k, before, after⟩ := exists_first_record loads
    refine ⟨k, before, (loadedAfter_part sm (k + 1)).eq_of_length_le ?_⟩
    rw [full, List.length_map, one]
    exact List.length_pos_iff.2 after

/-- While the table of one friend is saved over itself, the friend is not in the file. -/
theorem friend_missing :
    loadTable (some (stateSave (friendTable 6))) ≠ [] ∧
      loadTable (fileDuring (some (stateSave (friendTable 6))) (friendTable 6) 1) = [] ∧
      ¬ ∀ k, Whole (some (stateSave (friendTable 6))) (friendTable 6) k := by
  have there : loadTable (some (stateSave (friendTable 6))) ≠ [] := by decide +kernel
  refine ⟨there, rfl, fun whole => ?_⟩
  rcases whole 1 with h | h
  · exact there h.symm
  · exact there h.symm

end Orcashi
