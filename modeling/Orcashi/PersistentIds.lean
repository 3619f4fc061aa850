import Orcashi.Persistence

/-!
# Which ids a restart keeps

Ids come from the network and are written between quotes as they are.  Read back, a quote ends the
id, an opening brace starts the record over, a newline ends the line and a closing brace ends the
record.  Here the ids that come back are computed for tables whose ids can be read at all, and it is
shown that no other id ever comes back.
-/

namespace Orcashi

open CMemory Stdio

/-! ## Tables with any ids -/

/-- What `state_load` can have read as an id: no quote, no opening brace, a newline only at the
end. -/
structure IsReadable (s : CString) : Prop where
  quote : 34 ∉ s
  brace : 123 ∉ s
  newline : 10 ∉ s.dropLast

instance (s : CString) : Decidable (IsReadable s) :=
  decidable_of_iff (34 ∉ s ∧ 123 ∉ s ∧ 10 ∉ s.dropLast)
    ⟨fun h => ⟨h.1, h.2.1, h.2.2⟩, fun h => ⟨h.quote, h.brace, h.newline⟩⟩

namespace Field

theorem read_id_of_ne {f : Field} (h : f ≠ id) (l : CString) (q : Peer) :
    (read l q f).id = q.id := by
  unfold read
  cases scanText f.format l with
  | none => rfl
  | some rest =>
    show (f.convert rest q).id = q.id
    cases f with
    | id => exact absurd rfl h
    | ip => cases hs : scanSet 63 34 rest <;> simp [convert, hs]
    | lastSeen | createdAt | friendSince => cases hs : scanLong rest <;> simp [convert, hs]
    | state | online | busy | port | pendingMessages | ghostCount =>
      cases hs : scanInt rest <;> simp [convert, hs]

/-- The id after a line is what its own pattern made of it. -/
theorem id_foldl_read (l : CString) (q : Peer) :
    (all.foldl (read l) q).id = (read l q id).id := by
  have later (fs : List Field) (h : id ∉ fs) (q : Peer) : (fs.foldl (read l) q).id = q.id := by
    induction fs generalizing q with
    | nil => rfl
    | cons f fs ih =>
      rw [List.foldl_cons, ih fun hf => h (List.mem_cons_of_mem f hf)]
      exact read_id_of_ne (fun hf => h (hf ▸ List.mem_cons_self)) l q
  have first : all = id :: others := rfl
  rw [first, List.foldl_cons]
  exact later others (by decide) (read l q id)

theorem id_foldl_read_of_none {l : CString} (h : scanText (format id) l = none) (q : Peer) :
    (all.foldl (read l) q).id = q.id := by
  rw [id_foldl_read]
  unfold read
  rw [h]
  rfl

end Field

namespace LoadState

/-- The ids stored so far, the id of the record being read, and whether there is one. -/
structure Shows (st : LoadState) (ids : List CString) (cur : CString) (inside : Bool) : Prop where
  ids : st.peers.map Peer.id = ids
  cur : st.peer.id = cur
  inside : st.inPeer = inside

namespace Shows

variable {st : LoadState} {ids : List CString} {cur l : CString} {inside : Bool}

theorem opening (h : st.Shows ids cur inside) (long : 1 < l.length) (opens : 123 ∈ l) :
    (st.readLine l).Shows ids [] true := by
  unfold readLine
  rw [if_neg (Nat.not_le.2 long), if_pos opens]
  exact ⟨h.ids, rfl, rfl⟩

/-- Outside of records only an opening brace counts. -/
theorem outside (h : st.Shows ids cur false) (long : 1 < l.length) (opens : 123 ∉ l) :
    (st.readLine l).Shows ids cur false := by
  rw [readLine_field st long opens, h.inside]
  exact h

/-- A line without braces that does not name an id. -/
theorem calm (h : st.Shows ids cur inside) (long : 1 < l.length) (opens : 123 ∉ l)
    (closes : 125 ∉ l) (silent : scanText (Field.format .id) l = none) :
    (st.readLine l).Shows ids cur inside := by
  rw [readLine_field st long opens, if_neg closes]
  split_ifs
  · exact ⟨h.ids, (Field.id_foldl_read_of_none silent _).trans h.cur, h.inside⟩
  · exact h

/-- A closing brace stores a record with an id. -/
theorem closing (h : st.Shows ids cur true) (long : 1 < l.length) (opens : 123 ∉ l)
    (closes : 125 ∈ l) {id : CString} (named : (Field.all.foldl (Field.read l) st.peer).id = id)
    (room : ids.length < maxPeers) :
    (st.readLine l).Shows (if id = [] then ids else ids ++ [id]) [] false := by
  have count : st.peers.length < maxPeers := by
    rw [← h.ids, List.length_map] at room
    exact room
  rw [readLine_field st long opens, h.inside, if_pos rfl, if_pos closes]
  refine ⟨?_, rfl, rfl⟩
  show (st.push _).map Peer.id = _
  unfold push
  by_cases empty : id = []
  · rw [if_pos empty, if_neg fun hp => hp.1 (named.trans empty), h.ids]
  · rw [if_neg empty, if_pos ⟨named.trans_ne empty, count⟩, List.map_append, h.ids, List.map_singleton,
      named]

/-- The lines of fields other than the id and the ip. -/
theorem fields (h : st.Shows ids cur inside) (p : Peer) (fs : List Field)
    (plain : ∀ f ∈ fs, f ≠ .id ∧ f ≠ .ip) :
    (st.readLines (fs.map fun f => f.line p)).Shows ids cur inside := by
  induction fs generalizing st with
  | nil => exact h
  | cons f fs ih =>
    obtain ⟨not_id, not_ip⟩ := plain f List.mem_cons_self
    have absent {c : UInt8} (special : isSpecial c = true) (hn : c ≠ 10) : c ∉ f.line p ++ [10] := by
      rw [List.mem_append, Field.mem_line_iff special]
      rintro ((⟨hf, -⟩ | ⟨hf, -⟩) | h)
      · exact not_id hf
      · exact not_ip hf
      · exact hn (List.mem_singleton.1 h)
    rw [List.map_cons, readLines_cons]
    apply ih
    · apply h.calm
      · exact Field.length_line_gt p f
      · exact absent rfl (by decide)
      · exact absent rfl (by decide)
      · exact Field.scan_other (Ne.symm not_id) p
    · exact fun g hg => plain g (List.mem_cons_of_mem f hg)

/-- A line that holds the id stores it at once if it also holds a closing brace. -/
theorem naming (h : st.Shows ids [] true) {id : CString} (long : 1 < l.length) (opens : 123 ∉ l)
    (named : ∀ q : Peer, (Field.all.foldl (Field.read l) q).id = id) (ne : id ≠ [])
    (closes : 125 ∈ l ↔ 125 ∈ id) (room : ids.length < maxPeers) :
    (st.readLine l).Shows (if 125 ∈ id then ids ++ [id] else ids) (if 125 ∈ id then [] else id)
      (decide (125 ∉ id)) := by
  by_cases brace : 125 ∈ id
  · have stored := h.closing long opens (closes.2 brace) (named st.peer) room
    rw [if_neg ne] at stored
    simpa [brace] using stored
  · have kept : (LoadState.mk st.peers (Field.all.foldl (Field.read l) st.peer) st.inPeer).Shows
        ids id true := ⟨h.ids, named st.peer, h.inside⟩
    rw [readLine_field st long opens, h.inside, if_pos rfl, if_neg fun hl => brace (closes.1 hl)]
    simpa [brace, h.inside] using kept

theorem idLines (h : st.Shows ids [] true) {p : Peer} (fits : p.Fits) (readable : IsReadable p.id)
    (room : ids.length < maxPeers) :
    (st.readLines (idLines p)).Shows (if 125 ∈ p.id then ids ++ [p.id] else ids)
      (if 125 ∈ p.id then [] else p.id) (decide (125 ∉ p.id)) := by
  unfold Orcashi.idLines
  by_cases newline : 10 ∈ p.id
  · have whole := dropLast_concat_newline newline readable.newline
    have line : (ascii "      " ++ 34 :: Field.id.label ++ 34 :: 58 :: 32 :: 34 :: p.id.dropLast) ++
        [10] = ascii "      " ++ 34 :: (Field.id.label ++ 34 :: 58 :: 32 :: (34 :: p.id)) := by
      nth_rewrite 2 [← whole]
      simp only [List.append_assoc, List.cons_append]
    have frame : ascii "      " ++ 34 :: (Field.id.label ++ 34 :: 58 :: 32 :: (34 :: p.id)) =
        [32, 32, 32, 32, 32, 32, 34, 105, 100, 34, 58, 32, 34] ++ p.id := rfl
    have silent : scanText (Field.format .id) ([34, 44] ++ [10]) = none := rfl
    rw [if_pos newline, readLines_cons, line]
    apply Shows.calm _ (by decide) (by decide) (by decide) silent
    apply h.naming
    · rw [frame, List.length_append]
      exact Nat.lt_of_lt_of_le (by decide) (Nat.le_add_right 13 _)
    · rw [frame, List.mem_append]
      rintro (hb | hb)
      · exact absurd hb (by decide)
      · exact readable.brace hb
    · intro q
      have none_left : ∀ c ∈ List.head? ([] : CString), c = 34 := by
        rintro c hc
        cases hc
      have read := scanSet_append fits.id_ne (Nat.le_of_lt_succ fits.id_lt) readable.quote none_left
      rw [List.append_nil] at read
      have head : ∀ c ∈ List.head? (34 :: p.id), isSpace c = false := by
        rintro c hc
        obtain rfl := Option.some.inj hc
        rfl
      rw [Field.id_foldl_read]
      unfold Field.read
      rw [Field.scan_format (fun h34 => (Field.label_clean .id 34 h34).1 rfl) head, if_pos rfl,
        if_pos (Or.inl rfl), scanText_cons_self rfl]
      show ((scanSet 63 34 p.id).elim q fun s => { q with id := s }).id = p.id
      rw [read]
      rfl
    · exact fits.id_ne
    · rw [frame, List.mem_append]
      exact or_iff_right (by decide)
    · exact room
  · rw [if_neg newline, readLines_cons, readLines_nil]
    have mem {c : UInt8} (special : isSpecial c = true) (hn : c ≠ 10) :
        c ∈ Field.id.line p ++ [10] ↔ c ∈ p.id := by
      rw [List.mem_append, Field.mem_line_iff special]
      constructor
      · rintro ((⟨-, hc⟩ | ⟨hf, -⟩) | hc)
        · exact hc
        · cases hf
        · exact absurd (List.mem_singleton.1 hc) hn
      · exact fun hc => Or.inl (Or.inl ⟨rfl, hc⟩)
    apply h.naming
    · exact Field.length_line_gt p .id
    · rw [mem rfl (by decide)]
      exact readable.brace
    · intro q
      rw [Field.id_foldl_read, Field.read_own fits .id (fun _ => readable.quote) fun hf => by cases hf]
      rfl
    · exact fits.id_ne
    · exact mem rfl (by decide)
    · exact room

/-- The line of the ip starts over at an opening brace and ends the record at a closing one. -/
theorem ipLine (h : st.Shows ids cur inside) (p : Peer) (ne : inside = true → cur ≠ [])
    (room : inside = true → ids.length < maxPeers) :
    (st.readLine (Field.ip.line p ++ [10])).Shows
      (if inside = true ∧ 123 ∉ p.ip ∧ 125 ∈ p.ip then ids ++ [cur] else ids)
      (if 123 ∈ p.ip ∨ inside = true ∧ 125 ∈ p.ip then [] else cur)
      (decide (123 ∈ p.ip) || inside && !decide (125 ∈ p.ip)) := by
  have mem {c : UInt8} (special : isSpecial c = true) (hn : c ≠ 10) :
      c ∈ Field.ip.line p ++ [10] ↔ c ∈ p.ip := by
    rw [List.mem_append, Field.mem_line_iff special]
    constructor
    · rintro ((⟨hf, -⟩ | ⟨-, hc⟩) | hc)
      · cases hf
      · exact hc
      · exact absurd (List.mem_singleton.1 hc) hn
    · exact fun hc => Or.inl (Or.inr ⟨rfl, hc⟩)
  have long := Field.length_line_gt p .ip
  have silent := Field.scan_other (f := .id) (g := .ip) (by decide) p
  have open_iff : 123 ∈ Field.ip.line p ++ [10] ↔ 123 ∈ p.ip := mem rfl (by decide)
  have close_iff : 125 ∈ Field.ip.line p ++ [10] ↔ 125 ∈ p.ip := mem rfl (by decide)
  by_cases opens : 123 ∈ p.ip
  · simpa [opens] using h.opening long (open_iff.2 opens)
  have opens' := fun hl => opens (open_iff.1 hl)
  cases inside with
  | false => simpa [opens] using h.outside long opens'
  | true =>
    by_cases closes : 125 ∈ p.ip
    · have stored := h.closing long opens' (close_iff.2 closes)
        ((Field.id_foldl_read_of_none silent _).trans h.cur) (room rfl)
      rw [if_neg (ne rfl)] at stored
      simpa [opens, closes] using stored
    · simpa [opens, closes] using h.calm long opens' (fun hl => closes (close_iff.1 hl)) silent

/-- The last line stores the record that is being read, if it has an id. -/
theorem close (h : st.Shows ids cur inside)
    (room : inside = true → cur ≠ [] → ids.length < maxPeers) (last : Bool) :
    (st.readLine ((if last then ascii "    \x7d" else ascii "    \x7d,") ++ [10])).inPeer = false ∧
      (st.readLine ((if last then ascii "    \x7d" else ascii "    \x7d,") ++ [10])).peers.map Peer.id =
        if inside = true ∧ cur ≠ [] then ids ++ [cur] else ids := by
  rw [readLine_close, h.inside]
  cases inside with
  | false => exact ⟨h.inside, h.ids⟩
  | true =>
    refine ⟨rfl, ?_⟩
    show (st.push st.peer).map Peer.id = _
    unfold push
    rw [h.cur]
    by_cases empty : cur = []
    · simp [empty, h.ids]
    · have count := room rfl empty
      rw [← h.ids, List.length_map] at count
      simp [empty, count, h.ids, h.cur]

end Shows

/-- Whether the line of the ip starts the record over before it is stored. -/
def ipLoses (p : Peer) : Bool := decide (123 ∈ p.ip) && !decide (125 ∈ p.id)

/-- The lines of a record with a readable id store that id, unless its ip has an opening brace and
the id no closing one. -/
theorem readLines_record {p : Peer} (fits : p.Fits) (readable : IsReadable p.id) (last : Bool)
    (st : LoadState) (room : st.peers.length < maxPeers) :
    (st.readLines (recordLines last p)).inPeer = false ∧
      (st.readLines (recordLines last p)).peers.map Peer.id =
        st.peers.map Peer.id ++ (if ipLoses p then none else some p.id).toList := by
  have room' : (st.peers.map Peer.id).length < maxPeers := by
    rwa [List.length_map]
  have begun : (LoadState.mk st.peers Peer.zero true).Shows (st.peers.map Peer.id) [] true :=
    ⟨rfl, rfl, rfl⟩
  have named := begun.idLines fits readable room'
  have split : Field.others.map (fun f => f.line p) =
      [Field.state, .online, .busy].map (fun f => f.line p) ++ (Field.ip.line p ::
        [Field.port, .lastSeen, .createdAt, .friendSince, .pendingMessages, .ghostCount].map
          fun f => f.line p) := rfl
  unfold recordLines
  rw [readLines_cons, readLine_open, readLines_append, readLines_append, split, readLines_append,
    readLines_cons, readLines_cons, readLines_nil]
  -- the lines of the other fields change neither ids nor records
  have before := named.fields p [.state, .online, .busy] (by decide)
  have atIp := before.ipLine p
    (by
      intro inside
      rw [if_neg (of_decide_eq_true inside)]
      exact fits.id_ne)
    (by
      intro inside
      rw [if_neg (of_decide_eq_true inside)]
      exact room')
  have after := atIp.fields p
    [.port, .lastSeen, .createdAt, .friendSince, .pendingMessages, .ghostCount] (by decide)
  have done := after.close (by
    by_cases stored : 125 ∈ p.id <;> by_cases opens : 123 ∈ p.ip <;> by_cases closes : 125 ∈ p.ip <;>
      simp [stored, opens, closes, room]) last
  refine ⟨done.1, done.2.trans ?_⟩
  unfold ipLoses
  have ne := fits.id_ne
  by_cases stored : 125 ∈ p.id <;> by_cases opens : 123 ∈ p.ip <;> by_cases closes : 125 ∈ p.ip <;>
    simp [stored, opens, closes, ne]

end LoadState

/-! ## Ids that can be read -/

/-- A piece of a line without an opening brace, up to a quote, is a readable id. -/
theorem isReadable_of_infix {s l : CString} (h : s <:+: l) (brace : 123 ∉ l) (quote : 34 ∉ s)
    (newline : 10 ∉ l.dropLast) : IsReadable s where
  quote := quote
  brace := fun hb => brace (h.subset hb)
  newline := fun hmem => newline (dropLast_subset_of_part h hmem)

theorem isReadable_nil : IsReadable [] where
  quote := List.not_mem_nil
  brace := List.not_mem_nil
  newline := List.not_mem_nil

namespace LoadState

/-- The ids in the variables of `state_load` can be read from a line. -/
def Readable (st : LoadState) : Prop := (∀ p ∈ st.peers, IsReadable p.id) ∧ IsReadable st.peer.id

theorem read_readable {l : CString} (newline : 10 ∉ l.dropLast) (brace : 123 ∉ l) {q : Peer}
    (hq : IsReadable q.id) (f : Field) : IsReadable (Field.read l q f).id := by
  by_cases hf : f = .id
  · rw [hf]
    unfold Field.read
    cases text : scanText (Field.format .id) l with
    | none => exact hq
    | some rest =>
      show IsReadable ((scanSet 63 34 rest).elim q fun s => { q with id := s }).id
      cases set : scanSet 63 34 rest with
      | none => exact hq
      | some s =>
        obtain ⟨pre, quote, -, -⟩ := scanSet_eq_some set
        have piece : s <:+: l := pre.isInfix.trans (suffix_of_scanText text).isInfix
        exact isReadable_of_infix piece brace quote newline
  · rw [Field.read_id_of_ne hf]
    exact hq

theorem readFile_readable {st : LoadState} (h : st.Readable) (file : Bytes) :
    (st.readFile file).Readable := by
  apply readFile_forall (P := fun q => IsReadable q.id) (Q := fun q => IsReadable q.id) _ _ _ h file
  · exact isReadable_nil
  · exact fun q hq _ => hq
  · exact fun l hl brace q f hq => read_readable hl.2 brace hq f

end LoadState

/-- Saving and loading yields the same ids in the same order. -/
def IdsSurvive (sm : StateManager) : Prop :=
  (restart sm).peers.map Peer.id = sm.peers.map Peer.id

/-- Whatever the file holds, the ids that are loaded can be read from a line. -/
theorem restart_readable (sm : StateManager) : ∀ p ∈ (restart sm).peers, IsReadable p.id := by
  have start : (LoadState.mk [] Peer.zero false).Readable :=
    ⟨fun p hp => absurd hp List.not_mem_nil, isReadable_nil⟩
  exact (LoadState.readFile_readable start (stateSave sm)).1

theorem readable_of_idsSurvive {sm : StateManager} (h : IdsSurvive sm) :
    ∀ p ∈ sm.peers, IsReadable p.id := by
  intro p hp
  have hid : p.id ∈ (restart sm).peers.map Peer.id := by
    rw [show (restart sm).peers.map Peer.id = _ from h]
    exact List.mem_map_of_mem hp
  obtain ⟨q, hq, same⟩ := List.mem_map.1 hid
  rw [← same]
  exact restart_readable sm q hq

/-- The ids that come back of a table whose ids can be read. -/
theorem restart_ids {sm : StateManager} (fits : ∀ p ∈ sm.peers, p.Fits)
    (few : sm.peers.length ≤ maxPeers) (readable : ∀ p ∈ sm.peers, IsReadable p.id)
    (ip_line : ∀ p ∈ sm.peers, 10 ∉ p.ip) :
    (restart sm).peers.map Peer.id =
      sm.peers.filterMap fun p => if LoadState.ipLoses p then none else some p.id := by
  apply restart_peers fits few (fun p hp => (readable p hp).newline) ip_line
  intro p hp last st room
  exact LoadState.readLines_record (fits p hp) (readable p hp) last st room

/-- The ids of a table survive saving and loading only if all of them can be read; where no ip
contains a newline they do exactly if, besides, every ip with an opening brace stands beside an id
with a closing one. -/
theorem idsSurvive_iff {sm : StateManager} (fits : ∀ p ∈ sm.peers, p.Fits)
    (few : sm.peers.length ≤ maxPeers) :
    (IdsSurvive sm → ∀ p ∈ sm.peers, IsReadable p.id) ∧
      ((∀ p ∈ sm.peers, 10 ∉ p.ip) →
        (IdsSurvive sm ↔ ∀ p ∈ sm.peers, IsReadable p.id ∧ (123 ∈ p.ip → 125 ∈ p.id))) := by
  refine ⟨readable_of_idsSurvive, fun ip_line => ?_⟩
  have kept (p : Peer) : LoadState.ipLoses p = false ↔ (123 ∈ p.ip → 125 ∈ p.id) := by
    unfold LoadState.ipLoses
    by_cases opens : 123 ∈ p.ip <;> by_cases closes : 125 ∈ p.id <;> simp [opens, closes]
  constructor
  · intro survive p hp
    have readable := readable_of_idsSurvive survive
    refine ⟨readable p hp, (kept p).1 ?_⟩
    have ids := restart_ids fits few readable ip_line
    rw [show (restart sm).peers.map Peer.id = _ from survive] at ids
    -- no record is missing
    have count := congrArg List.length ids
    rw [List.length_map] at count
    have all := List.filterMap_length_eq_length.1 count.symm p hp
    by_contra lost
    rw [Bool.not_eq_false] at lost
    rw [lost, if_pos rfl] at all
    cases all
  · intro h
    unfold IdsSurvive
    rw [restart_ids fits few (fun p hp => (h p hp).1) ip_line, ← List.filterMap_eq_map]
    apply List.filterMap_congr
    intro p hp
    rw [(kept p).2 (h p hp).2]
    rfl

theorem ids_survive_iff {sm : StateManager} (reachable : Reachable sm) :
    (IdsSurvive sm → ∀ p ∈ sm.peers, IsReadable p.id) ∧
      ((∀ p ∈ sm.peers, 10 ∉ p.ip) →
        (IdsSurvive sm ↔ ∀ p ∈ sm.peers, IsReadable p.id ∧ (123 ∈ p.ip → 125 ∈ p.id))) :=
  idsSurvive_iff reachable.fitsTable.fits reachable.fitsTable.few

theorem ids_survive_iff_friend :
    (IdsSurvive (friendTable 5) → ∀ p ∈ (friendTable 5).peers, IsReadable p.id) ∧
      ((∀ p ∈ (friendTable 5).peers, 10 ∉ p.ip) →
        (IdsSurvive (friendTable 5) ↔
          ∀ p ∈ (friendTable 5).peers, IsReadable p.id ∧ (123 ∈ p.ip → 125 ∈ p.id))) :=
  ids_survive_iff (friendTable_reachable 5)

/-- A table with an id that contains a quote. -/
def quotedTable : StateManager := (stateAddPeer 0 (ascii "bo\"b") StateManager.init).2

/-- Only the part before the quote comes back. -/
theorem quote_cuts_id :
    Reachable quotedTable ∧ (restart quotedTable).peers.map Peer.id = [ascii "bo"] ∧
      ¬ IdsSurvive quotedTable := by
  have typed : (TableCall.addPeer 0 (ascii "bo\"b")).Typed := ⟨⟨by decide, by decide⟩, by decide⟩
  refine ⟨Reachable.init.table _ typed, ?_⟩
  unfold IdsSurvive
  decide +kernel

end Orcashi
