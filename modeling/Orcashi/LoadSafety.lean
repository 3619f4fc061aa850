import Orcashi.Lib.History
import Orcashi.PersistentIds

/-!
# Loading any file

`state_load` takes the records of the file as they are.  It neither normalizes an id nor looks for it in
the table, as `state_add_peer` does, and it copies an ip of up to 63 characters into the sixteen bytes of
`peer.ip`.  So what it leaves is a table only where the file is one: here the records of a file are read off
its lines, without the table, and it is computed which of them make `state_load` go wrong.
-/

namespace Orcashi

open CMemory Stdio

/-! ## The records of a file -/

/-- The lines that are read from a file. -/
def stateLines (file : Bytes) : List CString := (fgets lineSize file).map fun line => strAt line 0

/-- The text that a line gives for the id or the ip, if it gives one. -/
def Field.given (f : Field) (line : CString) : Option CString :=
  (scanText f.format line).bind (scanSet 63 34)

/-- The ids of the records: for each the last one that a line between its braces gives.  `now` is that of the
record that is open. -/
def recordIds : Option CString → List CString → List CString
  | _, [] => []
  | now, line :: lines =>
    if line.length ≤ 1 then recordIds now lines
    else if 123 ∈ line then recordIds (some []) lines
    else
      now.elim (recordIds none lines) fun id =>
        let id := (Field.given .id line).getD id
        if 125 ∈ line then
          if id ≠ [] then id :: recordIds none lines else recordIds none lines
        else recordIds (some id) lines

/-- The texts for an ip that are given within records. -/
def recordIps : Bool → List CString → List CString
  | _, [] => []
  | inside, line :: lines =>
    if line.length ≤ 1 then recordIps inside lines
    else if 123 ∈ line then recordIps true lines
    else if inside then (Field.given .ip line).toList ++ recordIps (125 ∉ line) lines
    else recordIps false lines

/-- The ids of the records for which there is room in the table. -/
def storedIds (file : Bytes) (sm : StateManager) : List CString :=
  (recordIds none (stateLines file)).take (maxPeers - sm.peers.length)

/-! ## Copies -/

/-- A text that is copied into an array of `size`. -/
structure TextCopy where
  size : ℕ
  text : CString

/-- There is room for the text and its terminator. -/
def TextCopy.Fits (c : TextCopy) : Prop := c.text.length < c.size

/-- The copies made for a line: `sscanf` into `id[64]` and `ip[64]`, and `strcpy` from there into the
fields of `peer`. -/
def LoadState.copies (st : LoadState) (line : CString) : List TextCopy :=
  if line.length ≤ 1 then []
  else if 123 ∈ line then []
  else if !st.inPeer then []
  else
    ((Field.given .id line).toList.flatMap fun id => [⟨64, id⟩, ⟨idSize, id⟩]) ++
      (Field.given .ip line).toList.flatMap fun ip => [⟨64, ip⟩, ⟨inetAddrStrLen, ip⟩]

/-- The copies that `state_load` makes. -/
def loadCopies (file : Bytes) (sm : StateManager) : List TextCopy :=
  History.outputs LoadState.readLine LoadState.copies ⟨sm.peers, Peer.zero, false⟩ (stateLines file)

/-! ## What is asked for -/

/-- The invariant of the peer table. -/
structure TidyPeers (peers : List Peer) : Prop where
  count : peers.length ≤ maxPeers
  id_ne : ∀ id ∈ peers.map Peer.id, id ≠ []
  id_lt : ∀ id ∈ peers.map Peer.id, id.length < idSize
  plain : ∀ id ∈ peers.map Peer.id, 60 ∉ id ∧ 62 ∉ id
  distinct : (peers.map Peer.id).Nodup
  ip_lt : ∀ p ∈ peers, p.ip.length < inetAddrStrLen

/-- The table is one after the file was loaded, and every copy fitted. -/
structure LoadsSafely (file : Bytes) (sm : StateManager) : Prop where
  tidy : TidyPeers (stateLoad (some file) sm).2.peers
  fits : ∀ c ∈ loadCopies file sm, c.Fits

/-- The ips given within records are short, and the ids of the records that are stored have no brackets, are
distinct and are not in the table. -/
structure RecordsFit (file : Bytes) (sm : StateManager) : Prop where
  ips : ∀ ip ∈ recordIps false (stateLines file), ip.length < inetAddrStrLen
  plain : ∀ id ∈ storedIds file sm, 60 ∉ id ∧ 62 ∉ id
  distinct : (storedIds file sm).Nodup
  fresh : ∀ id ∈ storedIds file sm, id ∉ sm.peers.map Peer.id

/-! ## Fields -/

namespace Field

theorem given_eq_some {f : Field} {line text : CString} (h : f.given line = some text) :
    text ≠ [] ∧ text.length < 64 := by
  obtain ⟨rest, -, scanned⟩ := Option.bind_eq_some_iff.1 h
  obtain ⟨-, -, short, ne⟩ := scanSet_eq_some scanned
  exact ⟨ne, by omega⟩

theorem id_fields (line : CString) (p : Peer) :
    (all.foldl (read line) p).id = (given id line).getD p.id := by
  rw [id_foldl_read]
  unfold read given
  cases scanText (format id) line with
  | none => rfl
  | some rest =>
    show (convert rest p id).id = (scanSet 63 34 rest).getD p.id
    cases scanned : scanSet 63 34 rest <;> simp [convert, scanned]

theorem read_ip_of_ne {f : Field} (h : f ≠ ip) (line : CString) (p : Peer) : (read line p f).ip = p.ip := by
  unfold read
  cases scanText f.format line with
  | none => rfl
  | some rest =>
    show (f.convert rest p).ip = p.ip
    cases f with
    | ip => exact absurd rfl h
    | id => cases hs : scanSet 63 34 rest <;> simp [convert, hs]
    | lastSeen | createdAt | friendSince => cases hs : scanLong rest <;> simp [convert, hs]
    | state | online | busy | port | pendingMessages | ghostCount =>
      cases hs : scanInt rest <;> simp [convert, hs]

theorem ip_fields (line : CString) (p : Peer) :
    (all.foldl (read line) p).ip = (given ip line).getD p.ip := by
  have others (fs : List Field) (h : ip ∉ fs) (p : Peer) : (fs.foldl (read line) p).ip = p.ip := by
    induction fs generalizing p with
    | nil => rfl
    | cons f fs ih =>
      rw [List.foldl_cons, ih fun hf => h (List.mem_cons_of_mem f hf)]
      exact read_ip_of_ne (fun hf => h (hf ▸ List.mem_cons_self)) line p
  have split : all = [id, state, online, busy] ++
      ip :: [port, lastSeen, createdAt, friendSince, pendingMessages, ghostCount] := rfl
  have before := others [id, state, online, busy] (by decide) p
  rw [split, List.foldl_append, List.foldl_cons, others _ (by decide), ← before]
  unfold read given
  cases scanText (format ip) line with
  | none => rfl
  | some rest =>
    show (convert rest _ ip).ip = (scanSet 63 34 rest).getD _
    cases scanned : scanSet 63 34 rest <;> simp [convert, scanned]

end Field

/-! ## Lines -/

section Lines

variable {st : LoadState} {line : CString} {lines : List CString}

/-- What a line is read as, and the state after it. -/
inductive LineRead (st : LoadState) (line : CString) : LoadState → Prop
  | short (h : line.length ≤ 1) : LineRead st line st
  | opens (long : ¬ line.length ≤ 1) (brace : 123 ∈ line) : LineRead st line ⟨st.peers, Peer.zero, true⟩
  | outside (long : ¬ line.length ≤ 1) (brace : 123 ∉ line) (out : st.inPeer = false) : LineRead st line st
  | closes (long : ¬ line.length ≤ 1) (brace : 123 ∉ line) (inside : st.inPeer = true) (close : 125 ∈ line) :
      LineRead st line ⟨st.push (Field.all.foldl (Field.read line) st.peer), Peer.zero, false⟩
  | fields (long : ¬ line.length ≤ 1) (brace : 123 ∉ line) (inside : st.inPeer = true) (close : 125 ∉ line) :
      LineRead st line { st with peer := Field.all.foldl (Field.read line) st.peer }

theorem exists_lineRead (st : LoadState) (line : CString) : ∃ st', st.readLine line = st' ∧ LineRead st line st' := by
  refine ⟨_, rfl, ?_⟩
  unfold LoadState.readLine
  split_ifs with short opens outside closes
  · exact .short short
  · exact .opens short opens
  · exact .outside short opens (by simpa using outside)
  · exact .closes short opens (by simpa using outside) closes
  · exact .fields short opens (by simpa using outside) closes

/-- The id of the record that is open. -/
def LoadState.now (st : LoadState) : Option CString := if st.inPeer then some st.peer.id else none

/-- A record that is ended is stored if it has an id and there is room. -/
theorem ids_push (room : st.peers.length ≤ maxPeers) (peer : Peer) (later : List CString) :
    (st.push peer).map Peer.id ++ later.take (maxPeers - (st.push peer).length) =
      st.peers.map Peer.id ++
        (if peer.id ≠ [] then peer.id :: later else later).take (maxPeers - st.peers.length) := by
  unfold LoadState.push
  by_cases named : peer.id ≠ []
  · by_cases free : st.peers.length < maxPeers
    · have one : maxPeers - st.peers.length = maxPeers - (st.peers ++ [peer]).length + 1 := by
        rw [List.length_append, List.length_singleton]
        omega
      rw [if_pos ⟨named, free⟩, if_pos named, one, List.take_succ_cons, List.map_append, List.append_assoc]
      rfl
    · have full : maxPeers - st.peers.length = 0 := by omega
      rw [if_neg fun h => free h.2, full, List.take_zero, List.take_zero]
  · rw [if_neg fun h => named h.1, if_neg named]

/-- The records are stored in order, as long as there is room. -/
theorem ids_readLines (room : st.peers.length ≤ maxPeers) :
    (lines.foldl LoadState.readLine st).peers.map Peer.id =
      st.peers.map Peer.id ++ (recordIds st.now lines).take (maxPeers - st.peers.length) := by
  induction lines generalizing st with
  | nil => simp [recordIds]
  | cons line lines ih =>
    obtain ⟨st', after, kind⟩ := exists_lineRead st line
    rw [List.foldl_cons, after, recordIds]
    cases kind with
    | short h =>
      rw [if_pos h]
      exact ih room
    | opens long brace =>
      rw [if_neg long, if_pos brace]
      exact ih room
    | outside long brace out =>
      have now : st.now = none := if_neg (by rw [out]; exact Bool.false_ne_true)
      rw [if_neg long, if_neg brace, now, Option.elim_none, ih room, now]
    | closes long brace inside close =>
      have now : st.now = some st.peer.id := if_pos inside
      have bound : (st.push (Field.all.foldl (Field.read line) st.peer)).length ≤ maxPeers := by
        unfold LoadState.push
        split_ifs with kept
        · rw [List.length_append, List.length_singleton]
          exact kept.2
        · exact room
      rw [if_neg long, if_neg brace, now, Option.elim_some]
      dsimp only
      rw [if_pos close, ← Field.id_fields, ih bound]
      exact ids_push room _ _
    | fields long brace inside close =>
      have now : st.now = some st.peer.id := if_pos inside
      rw [if_neg long, if_neg brace, now, Option.elim_some]
      dsimp only
      have next : LoadState.now { st with peer := Field.all.foldl (Field.read line) st.peer } =
        some (Field.all.foldl (Field.read line) st.peer).id := if_pos inside
      rw [if_neg close, ← Field.id_fields, ← next]
      exact ih room

/-- Where the ips within records are short, those of the stored records are. -/
theorem ips_readLines (short : ∀ ip ∈ recordIps st.inPeer lines, ip.length < inetAddrStrLen)
    (now : st.peer.ip.length < inetAddrStrLen) (stored : ∀ p ∈ st.peers, p.ip.length < inetAddrStrLen) :
    ∀ p ∈ (lines.foldl LoadState.readLine st).peers, p.ip.length < inetAddrStrLen := by
  induction lines generalizing st with
  | nil => exact stored
  | cons line lines ih =>
    obtain ⟨st', after, kind⟩ := exists_lineRead st line
    rw [List.foldl_cons, after]
    rw [recordIps] at short
    have empty : Peer.zero.ip.length < inetAddrStrLen := by decide
    have read (inside : st.inPeer = true) (long : ¬ line.length ≤ 1) (brace : 123 ∉ line) :
        (Field.all.foldl (Field.read line) st.peer).ip.length < inetAddrStrLen ∧
          ∀ ip ∈ recordIps (125 ∉ line) lines, ip.length < inetAddrStrLen := by
      rw [if_neg long, if_neg brace, inside, if_pos rfl, List.forall_mem_append] at short
      refine ⟨?_, short.2⟩
      rw [Field.ip_fields]
      cases given : Field.given .ip line with
      | none => exact now
      | some ip => exact short.1 ip (by rw [given]; exact List.mem_singleton_self ip)
    cases kind with
    | short h =>
      rw [if_pos h] at short
      exact ih short now stored
    | opens long brace =>
      rw [if_neg long, if_pos brace] at short
      exact ih short empty stored
    | outside long brace out =>
      rw [if_neg long, if_neg brace, out, if_neg Bool.false_ne_true, ← out] at short
      exact ih short now stored
    | closes long brace inside close =>
      obtain ⟨here, later⟩ := read inside long brace
      rw [decide_eq_false (not_not.2 close)] at later
      refine ih later empty fun p hp => ?_
      unfold LoadState.push at hp
      split_ifs at hp
      · rcases List.mem_append.1 hp with hp | hp
        · exact stored p hp
        · rw [List.mem_singleton.1 hp]
          exact here
      · exact stored p hp
    | fields long brace inside close =>
      obtain ⟨here, later⟩ := read inside long brace
      rw [decide_eq_true close, ← inside] at later
      exact ih later here stored

/-- The copies for one line within a record. -/
theorem fits_copies_iff (long : ¬ line.length ≤ 1) (brace : 123 ∉ line) (inside : st.inPeer = true) :
    (∀ c ∈ st.copies line, c.Fits) ↔ ∀ ip ∈ (Field.given .ip line).toList, ip.length < inetAddrStrLen := by
  have within {f : Field} {text : CString} (h : text ∈ (f.given line).toList) : text.length < 64 :=
    (Field.given_eq_some (Option.mem_toList.1 h)).2
  have here : st.copies line =
      ((Field.given .id line).toList.flatMap fun id => [⟨64, id⟩, ⟨idSize, id⟩]) ++
        (Field.given .ip line).toList.flatMap fun ip => [⟨64, ip⟩, ⟨inetAddrStrLen, ip⟩] := by
    unfold LoadState.copies
    rw [if_neg long, if_neg brace, inside]
    rfl
  rw [here, List.forall_mem_append]
  constructor
  · rintro ⟨-, ips⟩ ip given
    exact ips ⟨inetAddrStrLen, ip⟩ (List.mem_flatMap.2 ⟨ip, given, by simp⟩)
  · intro short
    constructor
    · intro c hc
      obtain ⟨id, given, hc⟩ := List.mem_flatMap.1 hc
      simp only [List.mem_cons, List.not_mem_nil, or_false] at hc
      rcases hc with rfl | rfl
      · exact within given
      · exact within given
    · intro c hc
      obtain ⟨ip, given, hc⟩ := List.mem_flatMap.1 hc
      simp only [List.mem_cons, List.not_mem_nil, or_false] at hc
      rcases hc with rfl | rfl
      · exact within given
      · exact short ip given

/-- The copies fit exactly if the ips within records are short. -/
theorem fits_readLines_iff :
    (∀ c ∈ History.outputs LoadState.readLine LoadState.copies st lines, c.Fits) ↔
      ∀ ip ∈ recordIps st.inPeer lines, ip.length < inetAddrStrLen := by
  induction lines generalizing st with
  | nil => simp [History.outputs, recordIps]
  | cons line lines ih =>
    obtain ⟨st', after, kind⟩ := exists_lineRead st line
    rw [History.outputs, List.forall_mem_append, after, ih, recordIps]
    cases kind with
    | short h =>
      rw [LoadState.copies, if_pos h, if_pos h]
      simp
    | opens long brace =>
      rw [LoadState.copies, if_neg long, if_pos brace, if_neg long, if_pos brace]
      simp
    | outside long brace out =>
      rw [LoadState.copies, if_neg long, if_neg brace, if_neg long, if_neg brace, out]
      simp
    | closes long brace inside close =>
      rw [fits_copies_iff long brace inside, if_neg long, if_neg brace, inside, if_pos rfl,
        List.forall_mem_append, decide_eq_false (not_not.2 close)]
    | fields long brace inside close =>
      rw [fits_copies_iff long brace inside, if_neg long, if_neg brace, inside, if_pos rfl,
        List.forall_mem_append, decide_eq_true close]

/-- The id of a record is not empty and fits its array. -/
theorem mem_recordIds {now : Option CString} (short : ∀ id ∈ now, id.length < idSize) {id : CString}
    (h : id ∈ recordIds now lines) : id ≠ [] ∧ id.length < idSize := by
  induction lines generalizing now with
  | nil => simp [recordIds] at h
  | cons line lines ih =>
    have nothing : ∀ id ∈ (none : Option CString), id.length < idSize := by simp
    rw [recordIds] at h
    by_cases blank : line.length ≤ 1
    · rw [if_pos blank] at h
      exact ih short h
    by_cases opens : 123 ∈ line
    · rw [if_neg blank, if_pos opens] at h
      exact ih (by simp [idSize]) h
    rw [if_neg blank, if_neg opens] at h
    cases now with
    | none => exact ih nothing h
    | some now =>
      rw [Option.elim_some] at h
      dsimp only at h
      have next : ((Field.given .id line).getD now).length < idSize := by
        cases given : Field.given .id line with
        | none => exact short now rfl
        | some text => exact (Field.given_eq_some given).2
      split_ifs at h with closes named
      · rcases List.mem_cons.1 h with rfl | h
        · exact ⟨named, next⟩
        · exact ih nothing h
      · exact ih nothing h
      · exact ih (by simpa using next) h

end Lines

/-! ## Every file -/

section File

variable {file : Bytes} {sm : StateManager}

theorem ids_stateLoad (room : sm.peers.length ≤ maxPeers) :
    (stateLoad (some file) sm).2.peers.map Peer.id = sm.peers.map Peer.id ++ storedIds file sm :=
  @ids_readLines ⟨sm.peers, Peer.zero, false⟩ (stateLines file) room

theorem mem_storedIds {id : CString} (h : id ∈ storedIds file sm) : id ≠ [] ∧ id.length < idSize :=
  mem_recordIds (by simp) (List.mem_of_mem_take h)

/-- A file is loaded safely into a table exactly if its records fit it. -/
theorem loads_safely_iff (file : Bytes) (sm : StateManager) (tidy : TidyPeers sm.peers) :
    LoadsSafely file sm ↔ RecordsFit file sm := by
  have ids := @ids_stateLoad file sm tidy.count
  have copies := @fits_readLines_iff ⟨sm.peers, Peer.zero, false⟩ (stateLines file)
  constructor
  · rintro ⟨after, fits⟩
    have plain := after.plain
    have distinct := after.distinct
    rw [ids] at plain distinct
    rw [List.nodup_append] at distinct
    refine ⟨copies.1 fits, ?_, distinct.2.1, ?_⟩
    · exact fun id hid => plain id (List.mem_append_right _ hid)
    · exact fun id hid old => distinct.2.2 id old id hid rfl
  · intro fit
    refine ⟨⟨?_, ?_, ?_, ?_, ?_, ?_⟩, copies.2 fit.ips⟩
    · exact LoadState.length_readFile_le tidy.count file
    · rw [ids, List.forall_mem_append]
      exact ⟨tidy.id_ne, fun id hid => (mem_storedIds hid).1⟩
    · rw [ids, List.forall_mem_append]
      exact ⟨tidy.id_lt, fun id hid => (mem_storedIds hid).2⟩
    · rw [ids, List.forall_mem_append]
      exact ⟨tidy.plain, fit.plain⟩
    · rw [ids, List.nodup_append]
      refine ⟨tidy.distinct, fit.distinct, ?_⟩
      rintro id old _ new rfl
      exact fit.fresh id new old
    · have empty : Peer.zero.ip.length < inetAddrStrLen := by decide
      exact @ips_readLines ⟨sm.peers, Peer.zero, false⟩ (stateLines file) fit.ips empty tidy.ip_lt

end File

theorem tidy_init : TidyPeers StateManager.init.peers :=
  ⟨by decide, by decide, by decide, by decide, by decide, by decide⟩

/-- A file with a record of this id and this ip. -/
def recordFile (id ip : String) : Bytes :=
  ascii "\x7b\n\"id\": \"" ++ ascii id ++ ascii "\"\n\"ip\": \"" ++ ascii ip ++ ascii "\"\n\x7d\n"

set_option maxRecDepth 8000 in
theorem one_record_loads : LoadsSafely (recordFile "7" "10.0.0.1") StateManager.init :=
  (loads_safely_iff _ _ tidy_init).2 ⟨by decide, by decide, by decide, by decide⟩

set_option maxRecDepth 8000 in
/-- Two records of one id, a record whose id has brackets, and an ip of sixteen characters. -/
theorem records_load_unsafely :
    ¬ LoadsSafely (recordFile "7" "10.0.0.1" ++ recordFile "7" "10.0.0.2") StateManager.init ∧
      ¬ LoadsSafely (recordFile "<7>" "10.0.0.1") StateManager.init ∧
      ¬ LoadsSafely (recordFile "7" "1234567890123456") StateManager.init := by
  refine ⟨fun safe => ?_, fun safe => ?_, fun safe => ?_⟩
  · exact absurd safe.tidy.distinct (by decide)
  · exact absurd safe.tidy.plain (by decide)
  · have fits := (@fits_readLines_iff ⟨[], Peer.zero, false⟩ _).1 safe.fits
    exact absurd fits (by decide)

end Orcashi
