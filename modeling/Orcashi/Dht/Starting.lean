import Orcashi.Dht.Replies

/-!
# How a search begins

`dht_search` takes up the search for an id of a family if there is one.  If not, it takes the place of one
that is done, or makes room for one more.
-/

namespace Orcashi

/-! ## The oldest search that is done -/

theorem oldestDone_done {searches : List Search} {k : ℕ} {sr : Search} (found : oldestDone searches = some (k, sr)) :
    searches[k]? = some sr ∧ sr.done = true := by
  have loop (l : List (Search × ℕ)) (oldest : Option (ℕ × Search))
      (inside : ∀ p ∈ l, searches[p.2]? = some p.1)
      (before : ∀ p ∈ oldest, searches[p.1]? = some p.2 ∧ p.2.done = true) :
      ∀ p ∈ l.foldl (fun oldest p =>
        if p.1.done && oldest.all fun o => p.1.stepTime < o.2.stepTime then some (p.2, p.1) else oldest) oldest,
        searches[p.1]? = some p.2 ∧ p.2.done = true := by
    induction l generalizing oldest with
    | nil => exact before
    | cons x l ih =>
      refine ih _ (fun p mem => inside p (List.mem_cons_of_mem x mem)) fun p mem => ?_
      dsimp only at mem
      split_ifs at mem with older
      · obtain rfl := Option.some.inj mem
        exact ⟨inside x List.mem_cons_self, ((Bool.and_eq_true _ _).mp older).1⟩
      · exact before p mem
  refine loop searches.zipIdx none (fun p mem => ?_) (fun p mem => by cases mem) (k, sr) found
  exact List.mem_zipIdx_iff_getElem?.1 mem

namespace Dht

section Starting

variable {s s' : Dht} {af : Family} {id : DhtId} {k : ℕ} {duplicate : Bool}

/-- Other searches in the same state. -/
theorem Sound.setSearches (sound : s.Sound) {l : List Search} {n : ℤ} {searchId : UInt16}
    (ok : ∀ sr ∈ l, sr.Ok s.myid) (distinct : (l.map Search.key).Nodup) (number : n = l.length)
    (le : l.length ≤ 1024) :
    Sound { s with searches := l, numsearches := n, searchId := searchId } :=
  ⟨fun af => sound.table af, fun af => sound.sockets af, ok, distinct, number, le, sound.stored⟩

/-- A search with the same number that is open for an id, if it was not already. -/
structure Opened (key : Family × DhtId) (duplicate : Bool) (k : ℕ) (s s' : Dht) : Prop where
  sound : s'.Sound
  fixed : s'.fixed = s.fixed
  sent : s'.sent = s.sent
  events : s'.events = s.events
  stored : s'.stored = s.stored
  search : ∃ sr, s'.searches[k]? = some sr ∧ sr.key = key ∧ sr.done = false
  searches : ∀ key', s'.searches.countP (openFor key') =
    s.searches.countP (openFor key') + if key' = key ∧ duplicate = false then 1 else 0

/-- A search in the place of one that is done or for the same id. -/
theorem Opened.replace (sound : s.Sound) {front back : List Search} {old : Search} (new : Search)
    (searchId : UInt16) (split : s.searches = front ++ old :: back) (ok : new.Ok s.myid) (opened : new.done = false)
    (only : ∀ sr ∈ front ++ back, sr.key ≠ new.key) (same : old.done = false → old.key = new.key) :
    Opened new.key (!old.done) front.length s
      { s with searches := front ++ new :: back, searchId := searchId } := by
  have distinct := sound.distinct
  have searches := sound.searches
  have number := sound.numsearches
  have le := sound.numsearches_le
  rw [split] at distinct searches number le
  refine ⟨sound.setSearches (fun sr mem => ?_) ?_ ?_ ?_, rfl, rfl, rfl, rfl, ⟨new, ?_, rfl, opened⟩, fun key => ?_⟩
  · rcases List.mem_append.1 mem with mem | mem
    · exact searches sr (List.mem_append_left _ mem)
    · rcases List.mem_cons.1 mem with rfl | mem
      · exact ok
      · exact searches sr (List.mem_append_right _ (List.mem_cons_of_mem _ mem))
  · have others : ((front ++ back).map Search.key).Nodup :=
      distinct.sublist ((List.Sublist.append_left (List.sublist_cons_self old back) front).map _)
    rw [List.map_append, List.map_cons, List.nodup_middle, List.nodup_cons, ← List.map_append]
    refine ⟨fun mem => ?_, others⟩
    obtain ⟨sr, mem, e⟩ := List.mem_map.1 mem
    exact only sr mem e
  · simpa using number
  · simpa using le
  · rw [List.getElem?_append_right le_rfl, Nat.sub_self]
    rfl
  · simp only [split, List.countP_append, List.countP_cons, openFor, opened, Bool.not_false, Bool.and_true,
      Bool.and_eq_true, decide_eq_true_eq, Bool.not_eq_true', Bool.not_eq_false']
    cases done : old.done with
    | true =>
      by_cases here : new.key = key
      · simp [here]
        omega
      · have : ¬ key = new.key := fun h => here h.symm
        simp [here, this]
    | false =>
      rw [same done]
      simp

/-- A search that is added. -/
theorem Opened.add (sound : s.Sound) {new : Search} {searchId : UInt16} (room : s.numsearches < 1024)
    (ok : new.Ok s.myid) (opened : new.done = false) (only : ∀ sr ∈ s.searches, sr.key ≠ new.key) :
    Opened new.key false 0 s
      { s with searches := new :: s.searches, numsearches := s.numsearches + 1, searchId := searchId } := by
  refine ⟨sound.setSearches (fun sr mem => ?_) ?_ ?_ ?_, rfl, rfl, rfl, rfl, ⟨new, rfl, rfl, opened⟩, fun key => ?_⟩
  · rcases List.mem_cons.1 mem with rfl | mem
    · exact ok
    · exact sound.searches sr mem
  · rw [List.map_cons, List.nodup_cons]
    refine ⟨fun mem => ?_, sound.distinct⟩
    obtain ⟨sr, mem, e⟩ := List.mem_map.1 mem
    exact only sr mem e
  · rw [sound.numsearches]
    simp
  · have := sound.numsearches
    rw [List.length_cons]
    omega
  · by_cases here : new.key = key
    · simp [openFor, opened, here]
    · have : ¬ key = new.key := fun h => here h.symm
      simp [openFor, here, this]

theorem new_search_ok (me : DhtId) (tid : UInt16) (af : Family) (id : DhtId) :
    Search.Ok me ⟨tid, af, 0, id, 0, false, []⟩ :=
  ⟨Nat.zero_le _, List.Pairwise.nil, fun _ mem => by cases mem⟩

/-- The nodes that a search starts again with. -/
theorem Search.Ok.refresh {me : DhtId} {sr : Search} (ok : sr.Ok me) (now : Time) :
    Search.Ok me { sr with done := false, nodes := refreshNodes now sr.nodes } := by
  have sub : (sr.nodes.filter fun n => !(3 ≤ n.pinged || n.replyTime < now - 7200)).Sublist sr.nodes :=
    List.filter_sublist
  refine ⟨?_, ?_, fun n mem => ?_⟩
  · exact (List.length_map ..).trans_le (sub.length_le.trans ok.length_le)
  · exact List.pairwise_map.2 (ok.sorted.sublist sub)
  · obtain ⟨n, hn, rfl⟩ := List.mem_map.1 mem
    have good := ok.nodes n (sub.subset hn)
    exact ⟨good.ne_me, good.family, Nat.zero_lt_succ 39, (by decide : (0 : ℤ) ≤ 0 ∧ (0 : ℤ) ≤ 3)⟩

/-- What `dht_search` starts with: a search that is open, or nothing. -/
theorem openSearch_cases (sound : s.Sound) (id : DhtId) (af : Family) :
    (s.openSearch id af = (s, none)) ∨
      ∃ s' k duplicate, s.openSearch id af = (s', some (k, duplicate)) ∧ Opened (af, id) duplicate k s s' := by
  unfold Dht.openSearch
  cases found : s.searches.findIdx? fun sr => sr.af = af && sr.id = id with
  | some k =>
    obtain ⟨inside, here, -⟩ := List.findIdx?_eq_some_iff_getElem.1 found
    have hsr := List.getElem?_eq_getElem inside
    generalize s.searches[k] = sr at here hsr
    obtain ⟨front, back, split, rfl⟩ := exists_append hsr
    have key : sr.key = (af, id) := by
      rw [Bool.and_eq_true, decide_eq_true_eq, decide_eq_true_eq] at here
      exact Prod.ext here.1 here.2
    have distinct := sound.distinct
    rw [split, List.map_append, List.map_cons, List.nodup_middle, List.nodup_cons, ← List.map_append] at distinct
    have opened := Opened.replace sound { sr with done := false, nodes := refreshNodes s.now sr.nodes } s.searchId split
      (Search.Ok.refresh (sound.searches sr (List.mem_of_getElem? hsr)) s.now) rfl
      (fun sr' mem same => distinct.1 (List.mem_map.2 ⟨sr', mem, same⟩)) (fun _ => rfl)
    have modified : s.modifySearch front.length
        (fun sr => { sr with done := false, nodes := refreshNodes s.now sr.nodes }) =
        { s with searches := front ++ { sr with done := false, nodes := refreshNodes s.now sr.nodes } :: back,
                 searchId := s.searchId } := by
      rw [modifySearch, split, modify_append]
    refine Or.inr ⟨_, _, _, rfl, ?_⟩
    rw [hsr, Option.any_some, modified, ← key]
    exact opened
  | none =>
    have only : ∀ sr ∈ s.searches, sr.key ≠ (af, id) := by
      intro sr mem same
      have other := List.findIdx?_eq_none_iff.1 found sr mem
      rw [Search.key, Prod.mk.injEq] at same
      simp [same.1, same.2] at other
    have reuse {k : ℕ} {old : Search} (oldest : oldestDone s.searches = some (k, old)) :
        Opened (af, id) false k s
          { s with
            searches := s.searches.set k ⟨s.searchId, af, 0, id, 0, false, []⟩
            searchId := s.searchId + 1 } := by
      obtain ⟨hold, done⟩ := oldestDone_done oldest
      obtain ⟨front, back, split, rfl⟩ := exists_append hold
      have sub : ∀ sr ∈ front ++ back, sr ∈ s.searches := fun sr mem => by
        rw [split]
        exact (List.Sublist.append_left (List.sublist_cons_self old back) front).subset mem
      have opened := Opened.replace sound ⟨s.searchId, af, 0, id, 0, false, []⟩ (s.searchId + 1) split
        (new_search_ok _ _ _ _) rfl
        (fun sr mem => only sr (sub sr mem)) (fun active => by simp [done] at active)
      rw [done] at opened
      rw [split, List.set_append_right _ _ le_rfl, Nat.sub_self, List.set_cons_zero]
      exact opened
    unfold Dht.newSearch
    dsimp only
    by_cases expired : (oldestDone s.searches).any fun o => o.2.expired s.now
    · rw [if_pos expired]
      cases oldest : oldestDone s.searches with
      | none => simp [oldest] at expired
      | some o => exact Or.inr ⟨_, _, _, rfl, reuse oldest⟩
    · rw [if_neg expired]
      by_cases room : s.numsearches < 1024
      · rw [if_pos room]
        exact Or.inr ⟨_, _, _, rfl, .add sound room (new_search_ok _ _ _ _) rfl only⟩
      · rw [if_neg room]
        cases oldest : oldestDone s.searches with
        | none => exact Or.inl rfl
        | some o => exact Or.inr ⟨_, _, _, rfl, reuse oldest⟩

/-! ## The rest of `dht_search` -/

theorem Evolves.insertSearchBucket (sound : s.Sound) (af : Family) (i k : ℕ) :
    Evolves s (s.insertSearchBucket af i k) := by
  refine Evolves.foldl (P := fun s n => n.id ≠ s.myid) sound ?_ ?_ fun n mem => ?_
  · exact fun s n sound other => .insert sound _ _ _ other
  · exact fun s s' n h other => h.myid ▸ other
  · have mem := mem_nodesAt mem
    have some : s.table af ≠ [] := by
      intro empty
      rw [empty] at mem
      cases mem
    obtain ⟨d, table⟩ := sound.table af some
    exact (table.peer_ok mem).ne_me

theorem Evolves.ite {c : Prop} [Decidable c] {a b : Dht} (h : Evolves s a) (h' : Evolves s b) :
    Evolves s (if c then a else b) := by
  split_ifs
  · exact h
  · exact h'

theorem Evolves.insertSearchBuckets (sound : s.Sound) (af : Family) (i k : ℕ) :
    Evolves s (s.insertSearchBuckets af i k) := by
  have first := Evolves.insertSearchBucket sound af i k
  unfold Dht.insertSearchBuckets
  dsimp only
  generalize s.insertSearchBucket af i k = s₁ at first
  have next := Evolves.ite (c := i + 1 < (s₁.table af).length)
    (first.trans (.insertSearchBucket first.sound af (i + 1) k)) first
  generalize (if i + 1 < (s₁.table af).length then s₁.insertSearchBucket af (i + 1) k else s₁) = s₂ at next
  refine (fun second => Evolves.ite ?_ second) ?_
  · split
    · exact second
    · exact second.trans (.insertSearchBucket second.sound af _ k)
  · refine .ite ?_ first
    split
    · exact next
    · exact next.trans (.insertSearchBucket next.sound af _ k)

/-- What is stored is told, which ends no search. -/
theorem Serves.localValues (sound : s.Sound) (id : DhtId) :
    Serves [] [] s { s with events := s.events ++ s.localValues id } := by
  refine .events sound fun e mem => values_ne_done ?_
  unfold Dht.localValues at mem
  split at mem
  · cases mem
  · obtain ⟨p, -, mem⟩ := List.mem_flatMap.1 mem
    split_ifs at mem
    · rw [List.mem_singleton.1 mem]
      exact Or.inl rfl
    · rw [List.mem_singleton.1 mem]
      exact Or.inr rfl
    · cases mem

/-- A call that starts the searches for `started`. -/
structure Performs (rs : List Sending) (ps : List (DhtId × StoredPeer)) (started : List (Family × DhtId))
    (s s' : Dht) : Prop where
  sound : s'.Sound
  given : s'.given = s.given
  sent : ∃ out, s'.sent = s.sent ++ out ∧ (out.filter fun x => !x.call.message.isQuery) = rs ∧
    ∀ x ∈ out, x.result ≠ .tooLong
  balance : ∀ key, s'.balance key = s.balance key + started.count key
  stored : ∀ id p, s'.stored.Has id p → s.stored.Has id p ∨ (id, p) ∈ ps

theorem Does.performs {rs : List Sending} {ps : List (DhtId × StoredPeer)} (h : Does rs ps s s') :
    Performs rs ps [] s s' :=
  ⟨h.sound, h.given, h.sent, fun key => (h.balance key).trans (Nat.add_zero _).symm, h.stored⟩

/-- What is started by a call of `dht_search` that has a result. -/
def startedBy (id : DhtId) (af : Family) (result : ℤ) : List (Family × DhtId) :=
  if result = 1 then [(af, id)] else []

/-- What follows in `dht_search` when there is a search. -/
theorem Serves.begin (sound : s.Sound) {sr : Search} (hsr : s.searches[k]? = some sr) (active : sr.done = false)
    (af : Family) (port : UInt16) (i : ℕ) :
    Serves [] [] s
      (((s.modifySearch k fun sr => { sr with port := port }).insertSearchBuckets af i k).searchStep k) := by
  have ported := Serves.modifyHead (k := k) (f := fun sr => { sr with port := port }) sound
    fun _ => ⟨⟨rfl, rfl⟩, rfl⟩
  have here : (s.modifySearch k fun sr => { sr with port := port }).searches[k]? = some { sr with port := port } := by
    rw [modifySearch, List.getElem?_modify, hsr]
    simp
  have inserted := Evolves.insertSearchBuckets ported.sound af i k
  have h := inserted.head k
  rw [here] at h
  obtain ⟨sr', hsr', head⟩ := Option.map_eq_some_iff.1 h
  have done : sr'.done = false := (congrArg Search.done head :).trans active
  exact (ported.next inserted.serves).next (.searchStep inserted.sound hsr' done)

theorem count_startedBy (key : Family × DhtId) (duplicate : Bool) :
    (startedBy id af (if duplicate then 0 else 1)).count key = if key = (af, id) ∧ duplicate = false then 1 else 0 := by
  cases duplicate with
  | true => simp [startedBy]
  | false =>
    by_cases here : key = (af, id)
    · simp [startedBy, here]
    · have : ¬ (af, id) = key := fun h => here h.symm
      simp [startedBy, here, this]

theorem Opened.performs {s₁ s₂ : Dht} {key : Family × DhtId} {started : List (Family × DhtId)}
    (h : Serves [] [] s s₁) (opened : Opened key duplicate k s₁ s₂) (rest : Serves [] [] s₂ s')
    (count : ∀ key', started.count key' = if key' = key ∧ duplicate = false then 1 else 0) :
    Performs [] [] started s s' := by
  have given : s₂.given = s₁.given := (congrArg Dht.given opened.fixed :)
  refine ⟨rest.sound, rest.does.given.trans (given.trans h.does.given), ?_, fun key' => ?_, fun id p has => ?_⟩
  · have does := rest.does.sent
    rw [opened.sent] at does
    obtain ⟨out, sent, replies, fits⟩ := h.does.sent
    obtain ⟨out', sent', replies', fits'⟩ := does
    refine ⟨out ++ out', by rw [sent', sent, List.append_assoc], ?_, ?_⟩
    · rw [List.filter_append, replies, replies']
      rfl
    · exact fun x mem => (List.mem_append.1 mem).elim (fits x) (fits' x)
  · rw [rest.does.balance, count, ← h.does.balance, Dht.balance, Dht.balance, opened.events, opened.searches,
      Nat.add_assoc]
  · have has := (rest.does.stored id p has).resolve_right List.not_mem_nil
    rw [opened.stored] at has
    exact h.does.stored id p has

theorem performs_dhtSearch (sound : s.Sound) (id : DhtId) (port : ℤ) (af : Family) :
    Performs [] [] (startedBy id af (s.dhtSearch id port af).2) s (s.dhtSearch id port af).1 ∧
      (s.dhtSearch id port af).1.fixed = s.fixed := by
  unfold Dht.dhtSearch
  split
  · exact ⟨(Serves.refl sound).does.performs, rfl⟩
  rename_i i _
  have told := Serves.localValues sound id
  dsimp only
  generalize { s with events := s.events ++ s.localValues id } = s₁ at told ⊢
  rcases openSearch_cases told.sound id af with e | ⟨s₂, k, duplicate, e, opened⟩
  · rw [e]
    exact ⟨told.does.performs, told.fixed⟩
  · rw [e]
    obtain ⟨sr, hsr, -, active⟩ := opened.search
    have begun := Serves.begin opened.sound hsr active af (port % 65536).toNat.toUInt16 i
    dsimp only
    generalize ((s₂.modifySearch k fun sr =>
      { sr with port := (port % 65536).toNat.toUInt16 }).insertSearchBuckets af i k).searchStep k = s₃ at begun ⊢
    have timed := begun.next (.timers begun.sound s₃.now s₃.confirmNodesTime s₃.expireStuffTime)
    exact ⟨opened.performs told timed fun key => count_startedBy key duplicate,
      timed.fixed.trans (opened.fixed.trans told.fixed)⟩

end Starting

end Dht

end Orcashi
