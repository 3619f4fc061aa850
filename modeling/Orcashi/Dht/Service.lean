import Orcashi.Dht.Invariant

/-!
# What a call does

A call sends requests, and at most one reply: to the sender of the datagram, under the transaction id of its
request.  It ends searches, each with one event, and what is stored comes from an announcement.
-/

namespace Orcashi

/-- The event at the end of a search. -/
def doneEventOf (key : Family × DhtId) : DhtEvent :=
  ⟨if key.1 = .inet then .searchDone else .searchDone6, key.2.val, []⟩

theorem doneEventOf_key (sr : Search) : sr.doneEvent = doneEventOf sr.key := rfl

theorem doneEventOf_inj {key key' : Family × DhtId} : doneEventOf key = doneEventOf key' ↔ key = key' := by
  refine ⟨fun same => ?_, fun same => same ▸ rfl⟩
  obtain ⟨af, id⟩ := key
  obtain ⟨af', id'⟩ := key'
  simp only [doneEventOf, DhtEvent.mk.injEq, and_true] at same
  refine Prod.ext ?_ (Subtype.ext same.2)
  cases af <;> cases af' <;> simp at same ⊢

namespace Dht

/-- A search that is not done. -/
def openFor (key : Family × DhtId) (sr : Search) : Bool := sr.key = key && !sr.done

/-- How often a search was done, and will be. -/
def balance (s : Dht) (key : Family × DhtId) : ℕ :=
  s.events.count (doneEventOf key) + s.searches.countP (openFor key)

/-- What `dht_init` was given and no call changes. -/
def given (s : Dht) : DhtId × Bool × Bool := (s.myid, s.socket, s.socket6)

/-- What a call does that sends the replies `rs` and stores the peers `ps`. -/
structure Does (rs : List Sending) (ps : List (DhtId × StoredPeer)) (s s' : Dht) : Prop where
  sound : s'.Sound
  given : s'.given = s.given
  sent : ∃ out, s'.sent = s.sent ++ out ∧ (out.filter fun x => !x.call.message.isQuery) = rs ∧
    ∀ x ∈ out, x.result ≠ .tooLong
  balance : ∀ key, s'.balance key = s.balance key
  stored : ∀ id p, s'.stored.Has id p → s.stored.Has id p ∨ (id, p) ∈ ps

/-- It does so without a change of the time or the secrets. -/
structure Serves (rs : List Sending) (ps : List (DhtId × StoredPeer)) (s s' : Dht) : Prop where
  does : Does rs ps s s'
  fixed : s'.fixed = s.fixed

section Serves

variable {s s' s₁ : Dht} {rs rs' : List Sending} {ps ps' : List (DhtId × StoredPeer)} {k : ℕ} {sr : Search}

/-- A change of nothing that counts. -/
theorem Does.of_same (sound : s'.Sound) (given : s'.given = s.given) (sent : s'.sent = s.sent)
    (events : s'.events = s.events) (searches : s'.searches.map Search.head = s.searches.map Search.head)
    (stored : s'.stored = s.stored) : Does [] [] s s' where
  sound := sound
  given := given
  sent := ⟨[], by simp [sent]⟩
  balance key := by
    have opened (searches : List Search) : searches.countP (openFor key) =
        (searches.map Search.head).countP (openFor key) := by
      rw [List.countP_map]
      rfl
    unfold Dht.balance
    rw [events, opened, opened s.searches, searches]
  stored _ _ has := by
    rw [stored] at has
    exact Or.inl has

theorem Serves.refl (sound : s.Sound) : Serves [] [] s s := ⟨.of_same sound rfl rfl rfl rfl rfl, rfl⟩

theorem Does.trans (h : Does rs ps s s₁) (h' : Does rs' ps' s₁ s') : Does (rs ++ rs') (ps ++ ps') s s' := by
  obtain ⟨out, sent, replies, fits⟩ := h.sent
  obtain ⟨out', sent', replies', fits'⟩ := h'.sent
  refine ⟨h'.sound, h'.given.trans h.given, ⟨out ++ out', ?_, ?_, ?_⟩, ?_, ?_⟩
  · rw [sent', sent, List.append_assoc]
  · rw [List.filter_append, replies, replies']
  · exact fun x mem => (List.mem_append.1 mem).elim (fits x) (fits' x)
  · exact fun key => (h'.balance key).trans (h.balance key)
  · intro id p has
    rw [List.mem_append]
    rcases h'.stored id p has with has | mem
    · exact (h.stored id p has).imp_right Or.inl
    · exact Or.inr (Or.inr mem)

/-- Steps without replies, one after the other. -/
theorem Does.next (h : Does [] [] s s₁) (h' : Does rs ps s₁ s') : Does rs ps s s' := h.trans h'

theorem Serves.next (h : Serves [] [] s s₁) (h' : Serves rs ps s₁ s') : Serves rs ps s s' :=
  ⟨h.does.next h'.does, h'.fixed.trans h.fixed⟩

theorem Serves.sound (h : Serves rs ps s s') : s'.Sound := h.does.sound

theorem Serves.foldl {α : Type} {g : Dht → α → Dht} (l : List α) (sound : s.Sound)
    (step : ∀ s x, s.Sound → Serves [] [] s (g s x)) : Serves [] [] s (l.foldl g s) := by
  induction l generalizing s with
  | nil => exact .refl sound
  | cons x l ih => exact (step s x sound).next (ih (step s x sound).sound)

theorem Evolves.serves (h : Evolves s s') : Serves [] [] s s' := by
  refine ⟨?_, fixed_of_core h.core⟩
  obtain ⟨out, sent, asks⟩ := h.sent
  have given : s'.given = s.given := (congrArg Dht.given h.core :)
  have quiet := @Does.of_same { s with sent := s'.sent } s' h.sound given rfl h.events h.heads h.stored
  refine ⟨h.sound, given, ⟨out, sent, ?_, fun x mem => (asks x mem).2⟩, quiet.balance, quiet.stored⟩
  rw [List.filter_eq_nil_iff]
  intro x mem
  simp [(asks x mem).1]

theorem Serves.now (h : Serves rs ps s s') : s'.now = s.now := (congrArg Dht.now h.fixed :)

/-! ## The steps of a search -/

theorem searches_sendAll (out : List Outgoing) : (s.sendAll out).searches = s.searches := by
  induction out generalizing s with
  | nil => rfl
  | cons o out ih => exact ih

theorem searches_pingKnown (id : DhtId) (af : Family) : (s.pingKnown id af).searches = s.searches := by
  unfold pingKnown
  split
  · rfl
  · exact (searches_sendAll _).trans searches_setTable

/-- The loop over the announcements does not change a node before it comes to it. -/
theorem Evolves.announceLoop (k : ℕ) (nodes : List SearchNode) (i j : ℕ) (allAcked : Bool) (sound : s.Sound)
    (snapshot : ∀ sr, s.searches[k]? = some sr → ∀ m n, nodes[m]? = some n → sr.nodes[i + m]? = some n) :
    Evolves s (s.announceLoop k nodes i j allAcked).1 := by
  induction nodes generalizing s i j allAcked with
  | nil => exact .refl sound
  | cons n nodes ih =>
    have rest {s' : Dht} {g : SearchNode → SearchNode}
        (same : s'.searches = (s.modifySearch k (Search.modifyNode i g)).searches) :
        ∀ sr, s'.searches[k]? = some sr → ∀ m n, nodes[m]? = some n → sr.nodes[i + 1 + m]? = some n := by
      intro sr hsr m n' hn'
      rw [same, Dht.modifySearch, List.getElem?_modify] at hsr
      cases h : s.searches[k]? with
      | none => simp [h] at hsr
      | some sr₀ =>
        have before := snapshot sr₀ h (m + 1) n' (by simpa using hn')
        obtain rfl : sr₀.modifyNode i g = sr := by simpa [h] using hsr
        rw [Search.modifyNode, List.getElem?_modify, Nat.add_assoc, Nat.add_comm 1, before]
        simp
    rw [Dht.announceLoop]
    split_ifs with enough dead silent
    · exact .refl sound
    · refine ih (i + 1) j allAcked sound fun sr hsr m n' hn' => ?_
      have := snapshot sr hsr (m + 1) n' (by simpa using hn')
      rwa [Nat.add_assoc, Nat.add_comm 1]
    · have acked : Evolves s (s.modifySearch k (Search.modifyNode i fun n => { n with acked := true })) :=
        .modifyNode sound fun _ _ _ _ ok => ⟨rfl, ok.ne_me, ok.family, ok.token, ok.pinged⟩
      exact acked.trans (ih _ _ _ acked.sound (rest rfl))
    · split
      · exact .refl sound
      · rename_i sr hsr
        have here : sr.nodes[i]? = some n := snapshot sr hsr 0 n rfl
        have ok := (sound.searches sr (List.mem_of_getElem? hsr)).nodes n (List.mem_of_getElem? here)
        have sent : Evolves s (s.send ⟨n.ss, .announcePeer (makeTid "ap" sr.tid) sr.id sr.port n.token⟩) :=
          .send sound rfl ⟨(makeTid_length "ap" sr.tid rfl).trans_lt (by decide), ok.token⟩
        have asked := Evolves.modifyNode (k := k) (j := i) (g := SearchNode.asked s.now) sent.sound
          fun sr' n' h hn' good => by
            obtain rfl := Option.some.inj (hsr.symm.trans h)
            obtain rfl := Option.some.inj (here.symm.trans hn')
            exact ⟨rfl, good.asked (not_le.1 dead) _⟩
        have pinged := (sent.trans asked).trans (.pingKnown asked.sound n.id n.ss.family)
        exact pinged.trans (ih _ _ _ pinged.sound (rest (searches_pingKnown _ _)))

theorem Evolves.askLoop (k m i j : ℕ) (sound : s.Sound) : Evolves s (s.askLoop k m i j) := by
  induction m generalizing s i j with
  | zero => exact .refl sound
  | succ m ih =>
    have asked := Evolves.searchSendGetPeers sound k (some i)
    rw [Dht.askLoop]
    split_ifs
    · exact asked
    · exact asked.trans (ih _ _ asked.sound)
    · exact asked
    · exact asked.trans (ih _ _ asked.sound)

theorem keys_modifySearch {f : Search → Search} (keeps : ∀ sr, (f sr).key = sr.key) :
    (s.modifySearch k f).searches.map Search.key = s.searches.map Search.key := by
  refine List.ext_getElem? fun j => ?_
  simp only [modifySearch, List.getElem?_map, List.getElem?_modify]
  cases s.searches[j]? with
  | none => rfl
  | some sr => by_cases here : k = j <;> simp [here, keeps]

/-- A change of the head of a search. -/
theorem Sound.modifyHead (sound : s.Sound) {f : Search → Search}
    (keeps : ∀ sr, (f sr).key = sr.key ∧ (f sr).nodes = sr.nodes) : (s.modifySearch k f).Sound := by
  have keys := keys_modifySearch (s := s) (k := k) fun sr => (keeps sr).1
  refine sound.of_fixed rfl rfl sound.stored keys (fun _ => Or.inl rfl) fun sr mem => ?_
  rcases mem_modifySearch mem with mem | ⟨sr', h, rfl⟩
  · exact sound.searches sr mem
  · have ok := sound.searches sr' (List.mem_of_getElem? h)
    have id : (f sr').id = sr'.id := congrArg Prod.snd (keeps sr').1
    have af : (f sr').af = sr'.af := congrArg Prod.fst (keeps sr').1
    refine ⟨?_, ?_, ?_⟩
    · rw [(keeps sr').2]
      exact ok.length_le
    · rw [(keeps sr').2, id]
      exact ok.sorted
    · rw [(keeps sr').2, af]
      exact ok.nodes

theorem Serves.modifyHead (sound : s.Sound) {f : Search → Search}
    (keeps : ∀ sr, ((f sr).key = sr.key ∧ (f sr).nodes = sr.nodes) ∧ (f sr).done = sr.done) :
    Serves [] [] s (s.modifySearch k f) := by
  refine ⟨⟨sound.modifyHead fun sr => (keeps sr).1, rfl, ⟨[], by simp [modifySearch]⟩, fun key => ?_,
    fun _ _ has => Or.inl has⟩, rfl⟩
  have opened (sr : Search) : openFor key (f sr) = openFor key sr := by
    unfold openFor
    rw [(keeps sr).1.1, (keeps sr).2]
  have same : (s.modifySearch k f).searches.countP (openFor key) = s.searches.countP (openFor key) := by
    cases h : s.searches[k]? with
    | none => rw [modifySearch, List.modify_eq_self (List.getElem?_eq_none_iff.1 h)]
    | some sr =>
      obtain ⟨front, back, split, rfl⟩ := exists_append h
      rw [modifySearch, split, modify_append, List.countP_append, List.countP_append, List.countP_cons,
        List.countP_cons, opened]
  exact congrArg _ same

/-- `sr->step_time = now.tv_sec` -/
theorem Serves.stepped (sound : s.Sound) (t : Time) :
    Serves [] [] s (s.modifySearch k fun sr => { sr with stepTime := t }) :=
  .modifyHead sound fun _ => ⟨⟨rfl, rfl⟩, rfl⟩

/-- The end of a search that is not done. -/
theorem Serves.searchDone (sound : s.Sound) (hsr : s.searches[k]? = some sr) (opened : sr.done = false) :
    Serves [] [] s (s.searchDone k) := by
  unfold Dht.searchDone
  rw [hsr]
  refine ⟨⟨?_, rfl, ⟨[], by simp [modifySearch, event]⟩, fun key => ?_, fun _ _ has => Or.inl has⟩, rfl⟩
  · have ended := sound.modifyHead (k := k) (f := fun sr => { sr with done := true, stepTime := s.now })
      fun _ => ⟨rfl, rfl⟩
    exact ended.of_fixed rfl rfl ended.stored rfl (fun _ => Or.inl rfl) ended.searches
  · obtain ⟨front, back, split, rfl⟩ := exists_append hsr
    have before : openFor key sr = decide (sr.key = key) := by simp [openFor, opened]
    have after : openFor key { sr with done := true, stepTime := s.now } = false := by simp [openFor]
    unfold Dht.balance
    simp only [event, modifySearch, split, modify_append, List.countP_append, List.countP_cons,
      List.count_append, doneEventOf_key, List.count_singleton, beq_iff_eq, doneEventOf_inj, before, after]
    by_cases same : sr.key = key
    · simp [same]
      omega
    · simp [same]

/-- `search_step` of a search that is not done. -/
theorem Serves.searchStep (sound : s.Sound) (hsr : s.searches[k]? = some sr) (opened : sr.done = false) :
    Serves [] [] s (s.searchStep k) := by
  have announced := Evolves.announceLoop k sr.nodes 0 0 true sound fun sr' h m n hn => by
    obtain rfl := Option.some.inj (hsr.symm.trans h)
    simpa using hn
  have asked := Evolves.askLoop k sr.nodes.length 0 0 sound
  unfold Dht.searchStep
  rw [hsr]
  dsimp only
  split_ifs
  · exact .searchDone sound hsr opened
  · obtain ⟨sr', hsr', head⟩ : ∃ sr', (s.announceLoop k sr.nodes 0 0 true).1.searches[k]? = some sr' ∧
        sr'.head = sr.head := by
      have h := announced.head k
      rw [hsr] at h
      exact Option.map_eq_some_iff.1 h
    have done : sr'.done = sr.done := (congrArg Search.done head :)
    exact announced.serves.next (.searchDone announced.sound hsr' (done.trans opened))
  · exact announced.serves.next (.stepped announced.sound _)
  · exact .refl sound
  · exact asked.serves.next (.stepped asked.sound _)

/-! ## What is done from time to time -/

/-- Every search that goes without being done gets its event. -/
theorem count_expired (searches : List Search) (now : Time) (key : Family × DhtId) :
    ((searches.filter fun sr => sr.expired now && !sr.done).map Search.doneEvent).count (doneEventOf key) +
      (searches.filter fun sr => !sr.expired now).countP (openFor key) = searches.countP (openFor key) := by
  induction searches with
  | nil => rfl
  | cons sr searches ih =>
    have opened : openFor key sr = (decide (sr.key = key) && !sr.done) := rfl
    by_cases old : sr.expired now = true <;> cases done : sr.done <;> by_cases same : sr.key = key <;>
      simp [doneEventOf_key, doneEventOf_inj, opened, old, done, same] <;> omega

/-- `expire_searches` -/
theorem Serves.expireSearches (sound : s.Sound) : Serves [] [] s s.expireSearches := by
  have sub : (s.searches.filter fun sr => !sr.expired s.now).Sublist s.searches := List.filter_sublist
  have lengths : (s.searches.filter fun sr => !sr.expired s.now).length +
      s.searches.countP (Search.expired s.now) = s.searches.length := by
    rw [← List.countP_eq_length_filter, List.length_eq_countP_add_countP (Search.expired s.now), Nat.add_comm]
    simp
  refine ⟨⟨?_, rfl, ⟨[], by simp [Dht.expireSearches]⟩, fun key => ?_, fun _ _ has => Or.inl has⟩, rfl⟩
  · refine ⟨fun af => sound.table af, fun af => sound.sockets af, fun sr mem => sound.searches sr (sub.subset mem),
      sound.distinct.sublist (sub.map _), ?_, sub.length_le.trans sound.numsearches_le, sound.stored⟩
    show s.numsearches - _ = ((s.searches.filter fun sr => !sr.expired s.now).length : ℤ)
    rw [sound.numsearches]
    omega
  · have counted := count_expired s.searches s.now key
    show (s.events ++ _).count _ + (s.searches.filter fun sr => !sr.expired s.now).countP _ = _
    rw [List.count_append, Nat.add_assoc, counted]
    rfl

theorem Serves.stepSearches (sound : s.Sound) : Serves [] [] s s.stepSearches := by
  refine .foldl _ sound fun s k sound => ?_
  split_ifs with due
  · cases h : s.searches[k]? with
    | none => simp [h] at due
    | some sr =>
      rw [h] at due
      simp only [Option.any_some, Bool.and_eq_true, Bool.not_eq_true'] at due
      exact .searchStep sound h due.1
  · exact .refl sound

theorem Serves.timers (sound : s.Sound) (searchTime confirmNodesTime expireStuffTime : Time) :
    Serves [] [] s
      { s with
        searchTime := searchTime
        confirmNodesTime := confirmNodesTime
        expireStuffTime := expireStuffTime } := by
  refine ⟨.of_same ?_ rfl rfl rfl rfl rfl, rfl⟩
  exact sound.of_fixed rfl rfl sound.stored rfl (fun af => Or.inl (by cases af <;> rfl)) sound.searches

theorem Serves.expireBuckets (sound : s.Sound) (af : Family) : Serves [] [] s (s.expireBuckets af) := by
  have expired : Evolves s ((s.setTable af (Orcashi.expireBuckets (s.table af)).1).sendAll
      (Orcashi.expireBuckets (s.table af)).2) := by
    by_cases empty : s.table af = []
    · have same : s.setTable af (s.table af) = s := by cases af <;> rfl
      have nothing : Orcashi.expireBuckets (s.table af) = (s.table af, []) := by
        rw [empty]
        rfl
      rw [nothing, same]
      exact .refl sound
    · obtain ⟨d, table⟩ := sound.table af empty
      have set := Evolves.setTable sound table.expireBuckets.1 empty
      exact set.trans (.pings set.sound (pings_expireBuckets _))
  have drawn := expired.trans (.draw expired.sound)
  exact drawn.serves.next (.timers drawn.sound _ _ _)

theorem Serves.expireStorage (sound : s.Sound) (now : Time) :
    Serves [] [] s { s with stored := Orcashi.expireStorage now s.stored } := by
  refine ⟨⟨?_, rfl, ⟨[], by simp⟩, fun _ => rfl, fun id p has => Or.inl ?_⟩, rfl⟩
  · exact sound.of_fixed rfl rfl sound.stored.expire rfl (fun af => Or.inl (by cases af <;> rfl)) sound.searches
  · change (Orcashi.expireStorage now s.stored).Has id p at has
    rw [sound.stored.expireStorage_eq] at has
    obtain ⟨st, mem, rfl, hp⟩ := has
    obtain ⟨st', mem', rfl⟩ := List.mem_map.1 (List.mem_filter.1 mem).1
    exact ⟨st', mem', rfl, (List.mem_filter.1 ((expirePeers_perm now st'.peers).mem_iff.1 hp)).1⟩

theorem Serves.expireIfDue (sound : s.Sound) : Serves [] [] s s.expireIfDue := by
  unfold Dht.expireIfDue
  split_ifs
  · have inet := Serves.expireBuckets sound .inet
    have inet6 := inet.next (.expireBuckets inet.sound .inet6)
    have storage := inet6.next (.expireStorage inet6.sound ((s.expireBuckets .inet).expireBuckets .inet6).now)
    exact storage.next (.expireSearches storage.sound)
  · exact .refl sound

theorem Serves.scheduleSearch (sound : s.Sound) (sr : Search) : Serves [] [] s (s.scheduleSearch sr) := by
  unfold Dht.scheduleSearch
  split_ifs
  · exact .refl sound
  · have drawn := Evolves.draw sound
    dsimp only
    split_ifs
    · exact drawn.serves.next (.timers drawn.sound _ _ _)
    · exact drawn.serves

theorem Serves.searchIfDue (sound : s.Sound) : Serves [] [] s s.searchIfDue := by
  unfold Dht.searchIfDue
  split_ifs
  · have stepped := Serves.stepSearches sound
    have reset := stepped.next
      (.timers stepped.sound 0 s.stepSearches.confirmNodesTime s.stepSearches.expireStuffTime)
    exact reset.next (.foldl _ reset.sound fun s sr sound => .scheduleSearch sound sr)
  · exact .refl sound

theorem Serves.confirmIfDue (sound : s.Sound) : Serves [] [] s s.confirmIfDue := by
  unfold Dht.confirmIfDue
  split_ifs
  · have confirmed := Evolves.confirmNodes sound
    have drawn := confirmed.trans (.draw confirmed.sound)
    exact drawn.serves.next (.timers drawn.sound _ _ _)
  · exact .refl sound

/-- What follows the secrets in `dht_periodic`. -/
theorem Serves.maintain (sound : s.rotateIfDue.Sound) : Serves [] [] s.rotateIfDue s.maintain := by
  have expired := Serves.expireIfDue sound
  have searched := expired.next (.searchIfDue expired.sound)
  exact searched.next (.confirmIfDue searched.sound)

theorem Does.rotateIfDue (sound : s.Sound) : Does [] [] s s.rotateIfDue := by
  unfold Dht.rotateIfDue
  split_ifs
  · refine .of_same ?_ rfl rfl rfl rfl rfl
    exact ⟨fun af => sound.table af, fun af => sound.sockets af, sound.searches, sound.distinct,
      sound.numsearches, sound.numsearches_le, sound.stored⟩
  · exact (Serves.refl sound).does

theorem Does.maintain (sound : s.Sound) : Does [] [] s s.maintain := by
  have rotated := Does.rotateIfDue sound
  exact rotated.next (Serves.maintain rotated.sound).does

end Serves

end Dht

end Orcashi
