import Orcashi.GhostQueues
import Orcashi.PersistentIds

/-!
# The counts of ghost messages

A record counts the ghost messages that wait for its peer, while the messages are in a table of
their own.  The count follows that table as long as a record is there to hold it: a record that is
made later starts at zero, and the state file keeps the counts but not the messages.
-/

namespace Orcashi

open CMemory Stdio

/-! ## Records that were loaded -/

namespace LoadState

/-- What the empty record has and reading a field keeps, every stored record has. -/
theorem forall_readLines {P : Peer → Prop} (zero : P Peer.zero) {ls : List CString}
    (read : ∀ l ∈ ls, ∀ q f, P q → P (Field.read (l ++ [10]) q f)) {st : LoadState}
    (h : (∀ p ∈ st.peers, P p) ∧ P st.peer) : ∀ p ∈ (st.readLines ls).peers, P p := by
  unfold readLines
  have all := List.foldlRecOn ls (fun st l => st.readLine (l ++ [10]))
    (motive := fun st : LoadState => (∀ p ∈ st.peers, P p) ∧ P st.peer) h
    fun st hst l hl => readLine_forall zero (fun q hq _ => hq) (fun _ => read l hl) hst
  exact all.1

end LoadState

namespace Field

/-- A field other than the id is found on no line but the one that was written for it. -/
theorem scan_fileLines {peers : List Peer} {f : Field} (hf : f ≠ id) {l : CString}
    (hl : l ∈ fileLines peers) :
    (∃ p ∈ peers, l = f.line p) ∨ scanText f.format (l ++ [10]) = none := by
  rcases mem_fileLines hl with hl | ⟨last, p, hp, hl⟩
  · right
    simp only [LoadState.header, List.cons_append, List.nil_append, List.mem_cons, List.not_mem_nil,
      or_false] at hl
    rcases hl with rfl | rfl | rfl | rfl | rfl <;> cases f <;> rfl
  unfold recordLines at hl
  rcases List.mem_cons.1 hl with rfl | hl
  · right
    cases f <;> rfl
  rcases List.mem_append.1 hl with hl | hl
  · rcases List.mem_append.1 hl with hl | hl
    · right
      unfold idLines at hl
      split_ifs at hl with newline
      · rcases List.mem_cons.1 hl with rfl | hl
        · -- the first part of an id that ends in a newline
          have line : (ascii "      " ++ 34 :: id.label ++ 34 :: 58 :: 32 :: 34 :: p.id.dropLast) ++
              [10] = ascii "      " ++ 34 :: (id.label ++ 34 :: 58 :: 32 ::
                (34 :: (p.id.dropLast ++ [10]))) := by
            simp only [List.append_assoc, List.cons_append]
          rw [line, scan_format fun h34 => (id.label_clean 34 h34).1 rfl]
          · exact if_neg fun h => hf (label_inj h)
          · rintro c hc
            obtain rfl := Option.some.inj hc
            rfl
        · rw [List.mem_singleton.1 hl]
          cases f <;> rfl
      · rw [List.mem_singleton.1 hl]
        exact scan_other hf p
    · obtain ⟨g, -, rfl⟩ := List.mem_map.1 hl
      by_cases hg : f = g
      · exact Or.inl ⟨p, hp, hg ▸ rfl⟩
      · exact Or.inr (scan_other hg p)
  · right
    rw [List.mem_singleton.1 hl]
    cases last <;> cases f <;> rfl

end Field

/-- A record without an ip that counts nothing. -/
structure Peer.Blank (q : Peer) : Prop where
  ip : q.ip = []
  ghostCount : q.ghostCount = 0

/-- A blank record with an id that can be read back. -/
structure Peer.Bare (p : Peer) : Prop extends p.Blank where
  fits : p.Fits
  readable : IsReadable p.id

/-- A conversion to another field leaves a record blank. -/
theorem Peer.Blank.convert {q : Peer} (hq : q.Blank) {f : Field} (not_ip : f ≠ .ip)
    (not_count : f ≠ .ghostCount) (rest : CString) : (f.convert rest q).Blank := by
  obtain ⟨ip, count⟩ := hq
  cases f with
  | ip => exact absurd rfl not_ip
  | ghostCount => exact absurd rfl not_count
  | id =>
    show Peer.Blank ((scanSet 63 34 rest).elim q _)
    cases scanSet 63 34 rest <;> exact ⟨ip, count⟩
  | state | online | busy | port | pendingMessages =>
    show Peer.Blank ((scanInt rest).elim q _)
    cases scanInt rest <;> exact ⟨ip, count⟩
  | lastSeen | createdAt | friendSince =>
    show Peer.Blank ((scanLong rest).elim q _)
    cases scanLong rest <;> exact ⟨ip, count⟩

theorem Peer.Blank.read {peers : List Peer} (bare : ∀ p ∈ peers, p.Bare) {l : CString}
    (hl : l ∈ fileLines peers) {q : Peer} (hq : q.Blank) (f : Field) :
    (Field.read (l ++ [10]) q f).Blank := by
  -- the ip and the count come from the line that was written for them
  by_cases special : f = .ip ∨ f = .ghostCount
  · have not_id : f ≠ .id := by
      rintro rfl
      revert special
      decide
    rcases Field.scan_fileLines not_id hl with ⟨p, hp, rfl⟩ | none
    · have own := bare p hp
      rw [Field.read_own own.fits f (fun h => absurd h not_id) fun _ => own.ip ▸ List.not_mem_nil]
      rcases special with rfl | rfl
      · show Peer.Blank { q with ip := if p.ip = [] then q.ip else p.ip }
        rw [if_pos own.ip]
        exact hq
      · exact { hq with ghostCount := own.ghostCount }
    · unfold Field.read
      rw [none]
      exact hq
  · rw [not_or] at special
    unfold Field.read
    cases scanText f.format (l ++ [10]) with
    | none => exact hq
    | some rest => exact hq.convert special.1 special.2 rest

/-- The table that a restart makes of such a one. -/
theorem restart_blank {sm : StateManager} (bare : ∀ p ∈ sm.peers, p.Bare) :
    ∀ p ∈ (restart sm).peers, p.Blank := by
  rw [restart_lines (fun p hp => (bare p hp).fits) (fun p hp => (bare p hp).readable.newline)
    fun p hp => (bare p hp).ip ▸ List.not_mem_nil]
  have zero : Peer.zero.Blank := ⟨rfl, rfl⟩
  apply LoadState.forall_readLines zero
  · exact fun l hl q f hq => hq.read bare hl f
  · exact ⟨fun p hp => absurd hp List.not_mem_nil, zero⟩

theorem restart_idsSurvive {sm : StateManager} (bare : ∀ p ∈ sm.peers, p.Bare)
    (few : sm.peers.length ≤ maxPeers) : IdsSurvive sm := by
  have iff := (idsSurvive_iff (fun p hp => (bare p hp).fits) few).2
    fun p hp => (bare p hp).ip ▸ List.not_mem_nil
  apply iff.2
  intro p hp
  refine ⟨(bare p hp).readable, ?_⟩
  rw [(bare p hp).ip]
  exact fun h => absurd h List.not_mem_nil

/-! ## Calls -/

/-- The calls that change counters or messages, and a restart. -/
inductive CounterCall where
  | addPeer (now : Time) (id : CString)
  | removePeer (id : CString)
  | updatePeer (now : Time) (id : CString) (state : PeerState)
  | addGhost (now : Time) (rand : ℕ) (toId : CString) (message : FieldText 4096)
  | deliver (now : Time) (toId : CString)
  | restart

namespace CounterCall

/-- The state after a call. -/
def exec (s : Store) : CounterCall → Store
  | addPeer now id => s.call (stateAddPeer now id)
  | removePeer id => s.call (stateRemovePeer id)
  | updatePeer now id state => s.call (stateUpdatePeer now id state)
  | addGhost now rand toId message => s.call (stateAddGhostMessage now rand toId message.val)
  | deliver now toId => s.deliver now toId
  | restart => ⟨Orcashi.restart s.sm, EventQueue.init⟩

/-- The arguments are C strings, and numbers of the C types. -/
def Typed : CounterCall → Prop
  | addPeer now id => IsLong now ∧ 0 ∉ id
  | updatePeer now _ state => IsLong now ∧ IsInt state.code
  | _ => True

/-- A record is made only for a peer for whom nothing waits, and the process is restarted only when
nothing waits for any peer of the table and all ids can be read from the file. -/
def Keeps (s : Store) : CounterCall → Prop
  | addPeer _ id =>
    stateGetPeer id s.sm = none → s.sm.peers.length < maxPeers → stateGetGhostCount id s.sm = 0
  | restart => ∀ p ∈ s.sm.peers, stateGetGhostCount p.id s.sm = 0 ∧ IsReadable p.id
  | _ => True

end CounterCall

/-- Every record counts the messages that wait for its peer. -/
def CountsAgree (sm : StateManager) : Prop :=
  ∀ p ∈ sm.peers, p.ghostCount = stateGetGhostCount p.id sm

/-! ## The counts as a table -/

theorem stateGetGhostCount_eq {id : CString} {k : PeerKey} (h : k.text = normalizeId id)
    (sm : StateManager) : stateGetGhostCount id sm = (waiting k sm.ghosts).length := by
  unfold stateGetGhostCount waiting
  rw [← h, if_neg k.ne_nil, List.length_map, List.countP_eq_length_filter]

/-- The entry of a key, with the messages that are stored. -/
structure Counts (ghosts : List GhostMessage) (e : PeerKey × Peer) : Prop where
  ip : e.2.ip = []
  count : e.2.ghostCount = (waiting e.1 ghosts).length

/-- The records are those of a map, each with the count of its key. -/
structure Counted (s : Store) : Prop where
  table : FitsTable s.sm
  counts : ∃ m, Represents s.sm m ∧ ∀ e ∈ m.entries, Counts s.sm.ghosts e

namespace Counted

variable {s : Store}

theorem agree (h : Counted s) : CountsAgree s.sm := by
  obtain ⟨m, rep, counts⟩ := h.counts
  intro p hp
  rw [← rep.values] at hp
  obtain ⟨e, he, rfl⟩ := List.mem_map.1 hp
  have key : e.1.text = normalizeId e.2.id := by
    rw [rep.ids e he, e.1.normal]
  rw [stateGetGhostCount_eq key]
  exact (counts e he).count

theorem addPeer (h : Counted s) {now : Time} {id : CString}
    (typed : (CounterCall.addPeer now id).Typed) (keeps : CounterCall.Keeps s (.addPeer now id)) :
    Counted (CounterCall.exec s (.addPeer now id)) := by
  refine ⟨h.table.add typed.1 typed.2, ?_⟩
  obtain ⟨m, rep, counts⟩ := h.counts
  obtain ⟨m', added, rep'⟩ := rep.add now id
  refine ⟨m', rep', ?_⟩
  show ∀ e ∈ m'.entries, Counts (stateAddPeer now id s.sm).2.ghosts e
  rw [stateAddPeer_ghosts]
  unfold PeerMap.AllowsAdd at added
  by_cases hid : normalizeId id = []
  · rw [PeerKey.ofId_eq_none hid] at added
    rw [added.2]
    exact counts
  obtain ⟨k, hk, text⟩ := PeerKey.ofId_eq_some hid
  rw [hk] at added
  dsimp only at added
  split_ifs at added with new full
  · rw [added.2]
    exact counts
  · rw [added.2]
    exact counts
  · obtain ⟨-, p, fresh, rfl⟩ := added
    have absent : stateGetPeer id s.sm = none := by
      rw [rep.getPeer]
      unfold PeerMap.get
      rw [hk, Option.bind_some]
      exact OrderedMap.lookup_eq_none_iff.2 new
    have idle := keeps absent (rep.length_peers ▸ Nat.lt_of_not_le full)
    rw [stateGetGhostCount_eq text] at idle
    intro e he
    rcases List.mem_append.1 he with he | he
    · exact counts e he
    · obtain rfl := List.mem_singleton.1 he
      refine ⟨?_, ?_⟩
      · rw [fresh]
        rfl
      · rw [fresh, idle]
        rfl

theorem removePeer (h : Counted s) (id : CString) :
    Counted (CounterCall.exec s (.removePeer id)) := by
  refine ⟨h.table.remove id, ?_⟩
  obtain ⟨m, rep, counts⟩ := h.counts
  refine ⟨_, (rep.remove id).2, ?_⟩
  show ∀ e ∈ (m.remove id).2.entries, Counts (stateRemovePeer id s.sm).2.ghosts e
  rw [stateRemovePeer_ghosts]
  unfold PeerMap.remove
  cases PeerKey.ofId id with
  | none => exact counts
  | some k =>
    dsimp only
    split_ifs
    · exact fun e he => counts e (List.mem_of_mem_filter he)
    · exact counts

theorem updatePeer (h : Counted s) {now : Time} {id : CString} {state : PeerState}
    (typed : (CounterCall.updatePeer now id state).Typed) :
    Counted (CounterCall.exec s (.updatePeer now id state)) := by
  have fits : (TableCall.updatePeer now id state).Typed := typed
  refine ⟨h.table.exec fits, ?_⟩
  obtain ⟨m, rep, counts⟩ := h.counts
  obtain ⟨m', write, rep'⟩ := rep.exec (.updatePeer now id state)
  refine ⟨m', rep', ?_⟩
  show ∀ e ∈ m'.entries, Counts (stateUpdatePeer now id state s.sm).2.ghosts e
  rw [stateUpdatePeer_ghosts, (Prod.mk.inj write).2]
  cases PeerKey.ofId id with
  | none => exact counts
  | some k =>
    dsimp only
    by_cases mem : k ∈ m.keys
    · rw [if_pos mem]
      intro e he
      obtain ⟨e', he', rfl⟩ := List.mem_map.1 he
      obtain ⟨ip, count⟩ := counts e' he'
      by_cases hk : e'.1 = k
      · refine ⟨?_, ?_⟩ <;> dsimp only <;> rw [if_pos hk]
        · exact ip
        · exact count
      · refine ⟨?_, ?_⟩ <;> dsimp only <;> rw [if_neg hk]
        · exact ip
        · exact count
    · rw [if_neg mem]
      exact counts

/-- Messages come or go for one key and its count is adjusted by as many. -/
theorem adjust (h : Counted s) {sm : StateManager} {k : PeerKey} (f : ℤ → ℤ)
    (peers : sm.peers = adjustGhostCount k.text f s.sm.peers)
    (own : ((waiting k sm.ghosts).length : ℤ) = f (waiting k s.sm.ghosts).length)
    (others : ∀ j, j ≠ k → waiting j sm.ghosts = waiting j s.sm.ghosts) :
    ∃ m, Represents sm m ∧ ∀ e ∈ m.entries, Counts sm.ghosts e := by
  obtain ⟨m, rep, counts⟩ := h.counts
  obtain ⟨values, ids, size_le⟩ := rep.adjust k f sm.ghosts
  refine ⟨_, ⟨values.trans peers.symm, ids, size_le⟩, ?_⟩
  intro e he
  obtain ⟨e', he', rfl⟩ := List.mem_map.1 he
  obtain ⟨ip, count⟩ := counts e' he'
  by_cases hk : e'.1 = k
  · refine ⟨?_, ?_⟩ <;> dsimp only <;> rw [if_pos hk]
    · exact ip
    · rw [count, hk, own]
  · refine ⟨?_, ?_⟩ <;> dsimp only <;> rw [if_neg hk]
    · exact ip
    · rw [others _ hk, count]

theorem addGhost (h : Counted s) (now : Time) (rand : ℕ) (toId : CString)
    (message : FieldText 4096) :
    Counted (CounterCall.exec s (.addGhost now rand toId message)) := by
  refine ⟨h.table.addGhost now rand toId message.val, ?_⟩
  unfold CounterCall.exec Store.call stateAddGhostMessage
  dsimp only
  by_cases hid : normalizeId toId = []
  · rw [if_pos hid]
    exact h.counts
  obtain ⟨k, hk, text⟩ := PeerKey.ofId_eq_some hid
  rw [if_neg hid, ← text]
  by_cases full : maxGhostMessages ≤ s.sm.ghosts.length
  · rw [if_pos full]
    exact h.counts
  · rw [if_neg full]
    refine h.adjust (k := k) (· + 1) rfl ?_ ?_
    · dsimp only
      rw [waiting_append, waiting_new rfl rfl, if_pos rfl, List.length_append]
      rfl
    · intro j hj
      dsimp only
      rw [waiting_append, waiting_new rfl rfl, if_neg hj, List.append_nil]

theorem deliver (h : Counted s) (now : Time) (toId : CString) :
    Counted (CounterCall.exec s (.deliver now toId)) := by
  refine ⟨h.table.deliver now toId, ?_⟩
  show ∃ m, Represents (stateDeliverGhostMessages now toId s).2.sm m ∧
    ∀ e ∈ m.entries, Counts (stateDeliverGhostMessages now toId s).2.sm.ghosts e
  rw [stateDeliverGhostMessages_eq]
  by_cases hid : normalizeId toId = []
  · rw [if_pos hid]
    exact h.counts
  obtain ⟨k, hk, text⟩ := PeerKey.ofId_eq_some hid
  rw [if_neg hid, ← text]
  dsimp only
  refine h.adjust (k := k)
    (fun n => max (n - (s.sm.ghosts.filter (·.pendingFor k.text)).length) 0) rfl ?_ ?_
  · dsimp only
    rw [waiting_mark_self]
    unfold waiting
    rw [List.length_map, List.length_nil]
    omega
  · intro j hj
    exact waiting_mark_of_ne now hj _

/-- When nothing waits, the records that are loaded count nothing. -/
theorem restart (h : Counted s) (keeps : CounterCall.Keeps s .restart) :
    Counted (CounterCall.exec s .restart) := by
  obtain ⟨m, rep, counts⟩ := h.counts
  have bare : ∀ p ∈ s.sm.peers, p.Bare := by
    intro p hp
    obtain ⟨idle, readable⟩ := keeps p hp
    refine ⟨⟨?_, ?_⟩, h.table.fits p hp, readable⟩
    · rw [← rep.values] at hp
      obtain ⟨e, he, rfl⟩ := List.mem_map.1 hp
      exact (counts e he).ip
    · rw [h.agree p hp, idle]
      rfl
  have ids : (Orcashi.restart s.sm).peers.map Peer.id = s.sm.peers.map Peer.id :=
    restart_idsSurvive bare h.table.few
  have blank := restart_blank bare
  have table : FitsTable (Orcashi.restart s.sm) := by
    apply FitsTable.load
    intro p hp
    rw [(blank p hp).ip, (blank p hp).ghostCount]
    exact ⟨by decide, by decide⟩
  obtain ⟨distinct, normal⟩ := rep.wellFormed
  have normal' : ∀ p ∈ (Orcashi.restart s.sm).peers, normalizeId p.id = p.id ∧ p.id ≠ [] := by
    intro p hp
    have hid : p.id ∈ s.sm.peers.map Peer.id := ids ▸ List.mem_map_of_mem hp
    obtain ⟨q, hq, same⟩ := List.mem_map.1 hid
    rw [← same]
    exact normal q hq
  obtain ⟨m', rep'⟩ := Represents.exists_of_wellFormed (ids ▸ distinct) normal' table.few
  refine ⟨table, m', rep', ?_⟩
  intro e he
  have own := blank e.2 (rep'.values ▸ List.mem_map_of_mem he)
  exact ⟨own.ip, own.ghostCount⟩

theorem exec (h : Counted s) {call : CounterCall} (typed : call.Typed)
    (keeps : call.Keeps s) : Counted (call.exec s) := by
  cases call with
  | addPeer now id => exact h.addPeer typed keeps
  | removePeer id => exact h.removePeer id
  | updatePeer now id state => exact h.updatePeer typed
  | addGhost now rand toId message => exact h.addGhost now rand toId message
  | deliver now toId => exact h.deliver now toId
  | restart => exact h.restart keeps

end Counted

/-- In every run from a start without a file in which no record is made, and no process ends, while
messages wait, every record counts the messages that wait for its peer. -/
theorem ghost_counts_agree {calls : List CounterCall} (typed : ∀ call ∈ calls, call.Typed)
    (meets : History.Meets CounterCall.exec CounterCall.Keeps Store.init calls) :
    CountsAgree (History.run CounterCall.exec Store.init calls).sm := by
  have start : Counted Store.init := by
    refine ⟨FitsTable.init, _, represents_empty StateManager.init, ?_⟩
    exact fun e he => absurd he List.not_mem_nil
  have both : History.Meets CounterCall.exec (fun s call => call.Typed ∧ call.Keeps s) Store.init
      calls := meets.and typed
  have counted := History.run_invariant Counted (fun s call h cond => h.exec cond.1 cond.2) start both
  exact counted.agree

theorem greeting_lt : (ascii "hi").length < 4096 := by decide

theorem ghost_counts_agree_restart :
    CountsAgree (History.run CounterCall.exec Store.init
      [.addPeer 1 (ascii "bob"), .addGhost 2 0 (ascii "bob") ⟨ascii "hi", greeting_lt⟩,
        .deliver 3 (ascii "bob"), .restart, .addGhost 4 0 (ascii "bob") ⟨ascii "hi", greeting_lt⟩]).sm := by
  apply ghost_counts_agree
  · intro call hcall
    simp only [List.mem_cons, List.not_mem_nil, or_false] at hcall
    rcases hcall with rfl | rfl | rfl | rfl | rfl
    · exact ⟨⟨by decide, by decide⟩, by decide⟩
    all_goals trivial
  · refine ⟨fun _ _ => rfl, trivial, trivial, ?_, trivial, trivial⟩
    unfold CounterCall.Keeps
    decide

/-- A message that was stored before its recipient is not counted, and a count outlives the messages in
the state file. -/
theorem counts_disagree :
    ¬ CountsAgree (History.run CounterCall.exec Store.init
      [.addGhost 1 0 (ascii "bob") ⟨ascii "hi", greeting_lt⟩, .addPeer 2 (ascii "bob")]).sm ∧
    ¬ CountsAgree (History.run CounterCall.exec Store.init
      [.addPeer 1 (ascii "bob"), .addGhost 2 0 (ascii "bob") ⟨ascii "hi", greeting_lt⟩,
        .restart]).sm := by
  unfold CountsAgree
  decide +kernel

end Orcashi
