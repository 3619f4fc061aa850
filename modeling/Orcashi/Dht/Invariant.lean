import Orcashi.Dht.Encoding
import Orcashi.Dht.NewNode
import Orcashi.Dht.Periodic

/-!
# What holds of the DHT at all times

The tables, the searches and what is stored for others keep their invariants in every call.  Most of what a
call does is of one kind: nodes come and go in the tables and in the searches, and requests are sent.
-/

namespace Orcashi

open KClosest

/-! ## The invariant -/

/-- A message that asks. -/
def DhtMessage.isQuery : DhtMessage → Bool
  | ping .. | findNode .. | getPeers .. | announcePeer .. => true
  | pong .. | nodesPeers .. | peerAnnounced .. | error .. => false

/-- What searches are told apart by. -/
def Search.key (sr : Search) : Family × DhtId := (sr.af, sr.id)

theorem SearchNode.Ok.asked {me : DhtId} {af : Family} {n : SearchNode} (ok : n.Ok me af) (alive : n.pinged < 3) (now : Time) :
    (n.asked now).Ok me af :=
  ⟨ok.ne_me, ok.family, ok.token, by
    have := ok.pinged
    show 0 ≤ n.pinged + 1 ∧ n.pinged + 1 ≤ 3
    omega⟩

theorem SearchNode.Ok.acknowledged {me : DhtId} {af : Family} {n : SearchNode} (ok : n.Ok me af) (now : Time) :
    (n.acknowledged now).Ok me af :=
  ⟨ok.ne_me, ok.family, ok.token, (by decide : (0 : ℤ) ≤ 0 ∧ (0 : ℤ) ≤ 3)⟩

namespace Dht

/-- What holds between two calls. -/
structure Sound (s : Dht) : Prop where
  table : ∀ af, s.table af ≠ [] → ∃ d, SoundTable s.myid af d (s.table af)
  sockets : ∀ af, s.table af = [] ↔ s.socketOf af = false
  searches : ∀ sr ∈ s.searches, sr.Ok s.myid
  distinct : (s.searches.map Search.key).Nodup
  numsearches : s.numsearches = s.searches.length
  numsearches_le : s.searches.length ≤ 1024
  stored : s.stored.Ok

/-- A state without the nodes, the messages, the random numbers and the blacklist. -/
def core (s : Dht) : Dht :=
  { s with
    buckets := []
    buckets6 := []
    searches := []
    blacklist := .replicate 10 none
    nextBlacklisted := firstBlacklisted
    mybucketGrowTime := 0
    mybucket6GrowTime := 0
    random := fun _ => 0
    sent := []
    events := [] }

/-- A state without what is done from time to time, too. -/
def fixed (s : Dht) : Dht :=
  { s.core with
    searchTime := 0
    confirmNodesTime := 0
    expireStuffTime := 0
    stored := .empty
    numsearches := 0
    searchId := 0 }

theorem fixed_of_core {s s' : Dht} (h : s'.core = s.core) : s'.fixed = s.fixed := by
  unfold fixed
  rw [h]

/-- A request, which fits into its array. -/
def Asks (x : Sending) : Prop := x.call.message.isQuery = true ∧ x.result ≠ .tooLong

/-- Nodes come and go, and requests are sent. -/
structure Evolves (s s' : Dht) : Prop where
  core : s'.core = s.core
  heads : s'.searches.map Search.head = s.searches.map Search.head
  events : s'.events = s.events
  sent : ∃ out, s'.sent = s.sent ++ out ∧ ∀ x ∈ out, Asks x
  sound : s'.Sound

section Evolves

variable {s s' s₁ : Dht} {af : Family} {bs : Buckets} {k d : ℕ} {f : Search → Search}

theorem Evolves.refl (sound : s.Sound) : Evolves s s :=
  ⟨rfl, rfl, rfl, ⟨[], by simp⟩, sound⟩

theorem Evolves.trans (h : Evolves s s₁) (h' : Evolves s₁ s') : Evolves s s' := by
  obtain ⟨out, sent, asks⟩ := h.sent
  obtain ⟨out', sent', asks'⟩ := h'.sent
  refine ⟨h'.core.trans h.core, h'.heads.trans h.heads, h'.events.trans h.events, ⟨out ++ out', ?_, ?_⟩,
    h'.sound⟩
  · rw [sent', sent, List.append_assoc]
  · intro x mem
    exact (List.mem_append.1 mem).elim (asks x) (asks' x)

/-- A loop of such steps; what each of them needs must stay true. -/
theorem Evolves.foldl {α : Type} {g : Dht → α → Dht} {P : Dht → α → Prop} {l : List α} (sound : s.Sound)
    (step : ∀ s x, s.Sound → P s x → Evolves s (g s x)) (stays : ∀ s s' x, Evolves s s' → P s x → P s' x)
    (h : ∀ x ∈ l, P s x) : Evolves s (l.foldl g s) := by
  induction l generalizing s with
  | nil => exact .refl sound
  | cons x l ih =>
    have first := step s x sound (h x List.mem_cons_self)
    exact first.trans (ih first.sound fun y mem => stays _ _ _ first (h y (List.mem_cons_of_mem x mem)))

/-! ### What does not change -/

theorem Evolves.myid (h : Evolves s s') : s'.myid = s.myid := (congrArg Dht.myid h.core :)

theorem Evolves.now (h : Evolves s s') : s'.now = s.now := (congrArg Dht.now h.core :)

theorem Evolves.stored (h : Evolves s s') : s'.stored = s.stored := (congrArg Dht.stored h.core :)

theorem Evolves.secret (h : Evolves s s') : s'.secret = s.secret := (congrArg Dht.secret h.core :)

theorem Evolves.oldsecret (h : Evolves s s') : s'.oldsecret = s.oldsecret := (congrArg Dht.oldsecret h.core :)

theorem Evolves.socketOf (h : Evolves s s') : s'.socketOf af = s.socketOf af := by
  cases af
  · exact (congrArg Dht.socket h.core :)
  · exact (congrArg Dht.socket6 h.core :)

theorem Evolves.length (h : Evolves s s') : s'.searches.length = s.searches.length := by
  simpa using congrArg List.length h.heads

theorem Evolves.head (h : Evolves s s') (k : ℕ) :
    s'.searches[k]?.map Search.head = s.searches[k]?.map Search.head := by
  rw [← List.getElem?_map, ← List.getElem?_map, h.heads]

/-! ### Tables -/

theorem table_setTable (s : Dht) (af af' : Family) (bs : Buckets) :
    (s.setTable af bs).table af' = if af = af' then bs else s.table af' := by
  cases af <;> cases af' <;> rfl

theorem core_setTable : (s.setTable af bs).core = s.core := by
  cases af <;> rfl

theorem searches_setTable : (s.setTable af bs).searches = s.searches := by
  cases af <;> rfl

theorem events_setTable : (s.setTable af bs).events = s.events := by
  cases af <;> rfl

theorem sent_setTable : (s.setTable af bs).sent = s.sent := by
  cases af <;> rfl

theorem keys_of_heads {searches searches' : List Search}
    (h : searches'.map Search.head = searches.map Search.head) :
    searches'.map Search.key = searches.map Search.key := by
  have := congrArg (List.map Search.key) h
  rw [List.map_map, List.map_map] at this
  exact this

/-- What is needed for the invariant, if no table and no search comes or goes. -/
theorem Sound.of_fixed (sound : s.Sound) (fixed : s'.fixed = s.fixed) (numsearches : s'.numsearches = s.numsearches)
    (stored : s'.stored.Ok) (keys : s'.searches.map Search.key = s.searches.map Search.key)
    (table : ∀ af, s'.table af = s.table af ∨ s.table af ≠ [] ∧ ∃ d, SoundTable s.myid af d (s'.table af))
    (searches : ∀ sr ∈ s'.searches, sr.Ok s.myid) : s'.Sound := by
  have myid : s'.myid = s.myid := (congrArg Dht.myid fixed :)
  have length : s'.searches.length = s.searches.length := by simpa using congrArg List.length keys
  have nonempty (af : Family) : s'.table af = [] ↔ s.table af = [] := by
    rcases table af with same | ⟨some, d, h⟩
    · rw [same]
    · exact iff_of_false h.ne_nil some
  refine ⟨fun af some => ?_, fun af => ?_, myid ▸ searches, keys ▸ sound.distinct, ?_, ?_, stored⟩
  · rw [myid]
    rcases table af with same | ⟨-, h⟩
    · rw [same] at some ⊢
      exact sound.table af some
    · exact h
  · rw [nonempty, sound.sockets]
    cases af
    · exact iff_of_eq (congrArg (· = false) (congrArg Dht.socket fixed :).symm)
    · exact iff_of_eq (congrArg (· = false) (congrArg Dht.socket6 fixed :).symm)
  · rw [length, ← sound.numsearches, numsearches]
  · rw [length]
    exact sound.numsearches_le

theorem Sound.of_core (sound : s.Sound) (core : s'.core = s.core)
    (heads : s'.searches.map Search.head = s.searches.map Search.head)
    (table : ∀ af, s'.table af = s.table af ∨ s.table af ≠ [] ∧ ∃ d, SoundTable s.myid af d (s'.table af))
    (searches : ∀ sr ∈ s'.searches, sr.Ok s.myid) : s'.Sound := by
  have stored : s'.stored = s.stored := (congrArg Dht.stored core :)
  exact sound.of_fixed (fixed_of_core core) (congrArg Dht.numsearches core :) (stored ▸ sound.stored)
    (keys_of_heads heads) table searches

theorem Evolves.setTable (sound : s.Sound) (h : SoundTable s.myid af d bs) (some : s.table af ≠ []) :
    Evolves s (s.setTable af bs) where
  core := core_setTable
  heads := by rw [searches_setTable]
  events := events_setTable
  sent := ⟨[], by rw [sent_setTable, List.append_nil], by simp⟩
  sound := by
    refine sound.of_core core_setTable (by rw [searches_setTable]) (fun af' => ?_)
      (by rw [searches_setTable]; exact sound.searches)
    rw [table_setTable]
    split_ifs with here
    · subst here
      exact Or.inr ⟨some, d, h⟩
    · exact Or.inl rfl

/-! ### Messages -/

theorem sendResult_ne_tooLong {o : Outgoing} (small : o.message.Small) : s.sendResult o ≠ .tooLong := by
  have version : ∀ b, s.myV.map Subtype.val = some b → b.length = 4 := by
    intro b h
    obtain ⟨v, -, rfl⟩ := Option.map_eq_some_iff.1 h
    exact v.property
  unfold sendResult
  rw [small.encode_eq version]
  dsimp only
  split_ifs <;> exact SendResult.noConfusion

theorem Evolves.send (sound : s.Sound) {o : Outgoing} (query : o.message.isQuery = true)
    (small : o.message.Small) : Evolves s (s.send o) where
  core := rfl
  heads := rfl
  events := rfl
  sent := by
    refine ⟨[⟨o, s.sendResult o⟩], rfl, fun x mem => ?_⟩
    obtain rfl := List.mem_singleton.1 mem
    exact ⟨query, sendResult_ne_tooLong small⟩
  sound := sound.of_core rfl rfl (fun _ => Or.inl rfl) sound.searches

theorem Evolves.sendAll (sound : s.Sound) {out : List Outgoing}
    (h : ∀ o ∈ out, o.message.isQuery = true ∧ o.message.Small) : Evolves s (s.sendAll out) := by
  refine Evolves.foldl (P := fun _ o => o.message.isQuery = true ∧ o.message.Small) sound ?_ ?_ h
  · exact fun s o sound h => .send sound h.1 h.2
  · exact fun _ _ _ _ h => h

theorem Evolves.pings (sound : s.Sound) {out : List Outgoing} (h : Pings out) : Evolves s (s.sendAll out) := by
  refine .sendAll sound fun o mem => ?_
  obtain ⟨sa, rfl⟩ := h o mem
  exact ⟨rfl, (by decide : (makeTid "pn" 0).length < 16)⟩

/-! ### Random numbers -/

/-- Nothing but random numbers was drawn. -/
def Drawn (s s' : Dht) : Prop := ∃ random, s' = { s with random := random }

theorem drawn_refl (s : Dht) : Drawn s s := ⟨s.random, rfl⟩

theorem Drawn.trans (h : Drawn s s₁) (h' : Drawn s₁ s') : Drawn s s' := by
  obtain ⟨random, rfl⟩ := h
  obtain ⟨random', rfl⟩ := h'
  exact ⟨random', rfl⟩

theorem drawn_draw (s : Dht) : Drawn s s.draw.2 := ⟨_, rfl⟩

theorem Evolves.drawn (sound : s.Sound) (h : Drawn s s') : Evolves s s' := by
  obtain ⟨random, rfl⟩ := h
  exact ⟨rfl, rfl, rfl, ⟨[], by simp⟩, sound.of_core rfl rfl (fun af => Or.inl (by cases af <;> rfl)) sound.searches⟩

theorem Evolves.draw (sound : s.Sound) : Evolves s s.draw.2 := .drawn sound (drawn_draw s)

/-! ### Searches -/

theorem heads_modifySearch (keeps : ∀ sr, s.searches[k]? = some sr → (f sr).head = sr.head) :
    (s.modifySearch k f).searches.map Search.head = s.searches.map Search.head := by
  refine List.ext_getElem? fun j => ?_
  simp only [modifySearch, List.getElem?_map, List.getElem?_modify]
  cases hj : s.searches[j]? with
  | none => rfl
  | some sr =>
    by_cases here : k = j
    · subst here
      simp [keeps sr hj]
    · simp [here]

theorem mem_modifySearch {sr : Search} (mem : sr ∈ (s.modifySearch k f).searches) :
    sr ∈ s.searches ∨ ∃ sr', s.searches[k]? = some sr' ∧ sr = f sr' := by
  obtain ⟨j, hj⟩ := List.mem_iff_getElem?.1 mem
  simp only [modifySearch, List.getElem?_modify] at hj
  cases hs : s.searches[j]? with
  | none => simp [hs] at hj
  | some sr' =>
    by_cases here : k = j
    · subst here
      simp only [hs, Option.map_eq_map, Option.map_some, if_pos, Option.some_inj] at hj
      exact Or.inr ⟨sr', hs, hj.symm⟩
    · simp only [hs, Option.map_eq_map, Option.map_some, if_neg here, Option.some_inj] at hj
      exact Or.inl (hj ▸ List.mem_of_getElem? hs)

theorem Evolves.modifySearch (sound : s.Sound)
    (keeps : ∀ sr, s.searches[k]? = some sr → sr.Ok s.myid → (f sr).head = sr.head ∧ (f sr).Ok s.myid) :
    Evolves s (s.modifySearch k f) := by
  have each (sr : Search) (h : s.searches[k]? = some sr) : (f sr).head = sr.head ∧ (f sr).Ok s.myid :=
    keeps sr h (sound.searches sr (List.mem_of_getElem? h))
  have heads := heads_modifySearch fun sr h => (each sr h).1
  refine ⟨rfl, heads, rfl, ⟨[], by simp [Dht.modifySearch]⟩, ?_⟩
  refine sound.of_core rfl heads (fun _ => Or.inl rfl) fun sr mem => ?_
  rcases mem_modifySearch mem with mem | ⟨sr', h, rfl⟩
  · exact sound.searches sr mem
  · exact (each sr' h).2

theorem Evolves.modifyNode (sound : s.Sound) {j : ℕ} {g : SearchNode → SearchNode}
    (keeps : ∀ sr n, s.searches[k]? = some sr → sr.nodes[j]? = some n → n.Ok s.myid sr.af →
      (g n).id = n.id ∧ (g n).Ok s.myid sr.af) :
    Evolves s (s.modifySearch k (Search.modifyNode j g)) :=
  .modifySearch sound fun sr h ok => ⟨rfl, (ok.modify fun n hn good => keeps sr n h hn good).1⟩

theorem Evolves.insert (sound : s.Sound) {id : DhtId} (sa : SockAddr) (replied : Bool) (token : Option Bytes)
    (other : id ≠ s.myid) :
    Evolves s (s.modifySearch k fun sr => (insertSearchNode s.now id sa replied token sr).1) :=
  .modifySearch sound fun _ _ ok => ⟨(ok.insert other).1, (ok.insert other).2.1⟩

/-! ### Pings -/

theorem Evolves.pingedAt (sound : s.Sound) (af : Family) (i j : ℕ) (b : Option ℕ) :
    Evolves s (s.pingedAt af i j b) := by
  unfold Dht.pingedAt
  dsimp only
  by_cases empty : s.table af = []
  · have nothing : pinged s.now i j b (s.table af) = (s.table af, []) := by
      simp [pinged, nodesAt, empty]
    have same : s.setTable af (s.table af) = s := by cases af <;> rfl
    rw [nothing, same]
    exact .refl sound
  · obtain ⟨d, table⟩ := sound.table af empty
    have set := Evolves.setTable sound (table.pingedAny s.now i j b) empty
    exact set.trans (.pings set.sound (pings_pinged _ _ _ _ _))

theorem Evolves.pingKnown (sound : s.Sound) (id : DhtId) (af : Family) : Evolves s (s.pingKnown id af) := by
  unfold Dht.pingKnown
  split
  · exact .refl sound
  · exact .pingedAt sound _ _ _ _

theorem makeTid_length (start : String) (seqno : UInt16) (h : (CMemory.ascii start).length = 2) :
    (makeTid start seqno).length = 4 := by
  simp [makeTid, h]

theorem Evolves.searchSendGetPeers (sound : s.Sound) (k : ℕ) (n : Option ℕ) :
    Evolves s (s.searchSendGetPeers k n).1 := by
  unfold Dht.searchSendGetPeers
  split
  · exact .refl sound
  rename_i sr hsr
  split
  · exact .refl sound
  rename_i j _
  split
  · exact .refl sound
  rename_i n hn
  split_ifs with askable
  · have alive : n.pinged < 3 := by
      simp only [SearchNode.askable, Bool.and_eq_true, decide_eq_true_eq] at askable
      exact askable.1.1
    have sent : Evolves s (s.send ⟨n.ss, .getPeers (makeTid "gp" sr.tid) sr.id (-1)⟩) :=
      .send sound rfl ((makeTid_length "gp" sr.tid rfl).trans_lt (by decide))
    have asked := Evolves.modifyNode (k := k) (j := j) (g := SearchNode.asked s.now) sent.sound
      fun sr' n' h hn' good => by
        obtain rfl := Option.some.inj (hsr.symm.trans h)
        obtain rfl := Option.some.inj (hn.symm.trans hn')
        exact ⟨rfl, good.asked alive _⟩
    exact (sent.trans asked).trans (.pingKnown asked.sound _ _)
  · exact .refl sound

theorem Evolves.addSearchNodeTo (sound : s.Sound) {id : DhtId} (other : id ≠ s.myid) (sa : SockAddr) (k : ℕ) :
    Evolves s (s.addSearchNodeTo id sa k) := by
  unfold Dht.addSearchNodeTo
  split
  · exact .refl sound
  rename_i sr hsr
  split_ifs
  · have inserted : Evolves s (s.modifySearch k fun _ => (insertSearchNode s.now id sa false none sr).1) :=
      .modifySearch sound fun sr' h ok => by
        obtain rfl := Option.some.inj (hsr.symm.trans h)
        exact ⟨(ok.insert other).1, (ok.insert other).2.1⟩
    dsimp only
    split
    · exact inserted
    · exact inserted.trans (.searchSendGetPeers inserted.sound _ _)
  · exact .refl sound

theorem Evolves.addSearchNode (sound : s.Sound) {id : DhtId} (other : id ≠ s.myid) (sa : SockAddr) :
    Evolves s (s.addSearchNode id sa) := by
  refine Evolves.foldl (P := fun s _ => id ≠ s.myid) sound ?_ ?_ fun _ _ => other
  · exact fun s k sound other => .addSearchNodeTo sound other sa k
  · exact fun s s' _ h other => h.myid ▸ other

theorem Evolves.grown (sound : s.Sound) (af : Family) : Evolves s (s.grown af) := by
  have table (af' : Family) : (s.grown af).table af' = s.table af' := by cases af <;> cases af' <;> rfl
  have core : (s.grown af).core = s.core := by cases af <;> rfl
  have searches : (s.grown af).searches = s.searches := by cases af <;> rfl
  refine ⟨core, by rw [searches], by cases af <;> rfl, ⟨[], by cases af <;> simp [Dht.grown]⟩, ?_⟩
  exact sound.of_core core (by rw [searches]) (fun af' => Or.inl (table af')) (searches ▸ sound.searches)

/-- `new_node`, whatever the node is. -/
theorem Evolves.newNode (sound : s.Sound) (id : DhtId) (sa : SockAddr) (confirm : ℕ) :
    Evolves s (s.newNode id sa confirm).1 := by
  unfold Dht.newNode
  split_ifs with empty self bad
  · exact .refl sound
  · exact .refl sound
  · exact .refl sound
  have some : s.table sa.family ≠ [] := by
    rintro none
    exact empty (by simp [findBucket, none])
  have address : isMartian sa = false := by
    rw [Bool.or_eq_true, not_or] at bad
    exact Bool.eq_false_iff.2 bad.1
  obtain ⟨d, table⟩ := sound.table _ some
  obtain ⟨e, learnt⟩ := table.newNodeIn s.now id confirm rfl address
  dsimp only
  have pings := pings_newNodeIn s.myid s.now id sa confirm (s.table sa.family)
  generalize newNodeIn s.myid s.now id sa confirm (s.table sa.family) = r at learnt pings
  have set := Evolves.setTable sound learnt.sound some
  have grown : Evolves s (if r.grew then (s.setTable sa.family r.buckets).grown sa.family
      else s.setTable sa.family r.buckets) := by
    split_ifs
    · exact set.trans (.grown set.sound _)
    · exact set
  have sent := grown.trans (.pings grown.sound pings)
  by_cases search : r.search = true
  · rw [if_pos search]
    exact sent.trans (.addSearchNode sent.sound (by rwa [sent.myid]) sa)
  · rw [if_neg search]
    exact sent

/-! ### Replies -/

theorem flushLoop_ok {me id : DhtId} (fuel i : ℕ) {sr : Search} (ok : sr.Ok me) :
    (flushLoop id fuel i sr).head = sr.head ∧ (flushLoop id fuel i sr).Ok me := by
  induction fuel generalizing i sr with
  | zero => exact ⟨rfl, ok⟩
  | succ fuel ih =>
    rw [flushLoop]
    split
    · exact ⟨rfl, ok⟩
    · split_ifs
      · exact ih (i + 1) (ok.flush i)
      · exact ih (i + 1) ok

theorem Evolves.markBroken (sound : s.Sound) (id : DhtId) (af : Family) : Evolves s (s.markBroken id af) := by
  unfold Dht.markBroken
  split
  · exact .refl sound
  rename_i i j found
  have some : s.table af ≠ [] := by
    intro none
    simp [findNode, findBucket, none] at found
  obtain ⟨d, table⟩ := sound.table _ some
  have marked := table.modifyAny (f := fun n => { n with pinged := 3 })
    (fun n ok => ⟨rfl, ok.ne_me, ok.family, ok.address⟩) i j
  have set := Evolves.setTable sound marked some
  exact set.trans (.pingedAt set.sound _ _ _ _)

theorem Evolves.flushNode (sound : s.Sound) (id : DhtId) : Evolves s (s.flushNode id) := by
  have ok (sr : Search) (mem : sr ∈ s.searches) :
      (flushLoop id sr.nodes.length 0 sr).head = sr.head ∧ (flushLoop id sr.nodes.length 0 sr).Ok s.myid :=
    flushLoop_ok _ _ (sound.searches sr mem)
  have heads : (s.searches.map fun sr => flushLoop id sr.nodes.length 0 sr).map Search.head =
      s.searches.map Search.head := by
    rw [List.map_map]
    exact List.map_congr_left fun sr mem => (ok sr mem).1
  refine ⟨rfl, heads, rfl, ⟨[], by simp [Dht.flushNode]⟩, ?_⟩
  refine sound.of_core rfl heads (fun _ => Or.inl rfl) fun sr mem => ?_
  obtain ⟨sr', mem', rfl⟩ := List.mem_map.1 mem
  exact (ok sr' mem').2

theorem Evolves.addBlacklisted (sound : s.Sound) (sa : SockAddr) : Evolves s (s.addBlacklisted sa) :=
  ⟨rfl, rfl, rfl, ⟨[], by simp [Dht.addBlacklisted]⟩,
    sound.of_core rfl rfl (fun _ => Or.inl rfl) sound.searches⟩

theorem Evolves.blacklistNode (sound : s.Sound) (id : DhtId) (sa : SockAddr) :
    Evolves s (s.blacklistNode id sa) := by
  have marked := Evolves.markBroken sound id sa.family
  have flushed := marked.trans (.flushNode marked.sound id)
  exact flushed.trans (.addBlacklisted flushed.sound sa)

theorem Evolves.foundNode (sound : s.Sound) (k : Option ℕ) (x : DhtId × SockAddr) :
    Evolves s (s.foundNode k x) := by
  unfold Dht.foundNode
  split_ifs with self
  · exact .refl sound
  have new := Evolves.newNode sound x.1 x.2 0
  dsimp only
  split
  · exact new
  · refine new.trans (.modifySearch new.sound fun sr _ ok => ?_)
    split_ifs
    · have other : x.1 ≠ (s.newNode x.1 x.2 0).1.myid := by rwa [new.myid]
      exact ⟨(ok.insert other).1, (ok.insert other).2.1⟩
    · exact ⟨rfl, ok⟩

theorem Evolves.foundNodes (sound : s.Sound) (k : Option ℕ) (m : ParsedMessage) (sender : SockAddr) :
    Evolves s (s.foundNodes k m sender) := by
  unfold Dht.foundNodes
  have new := Evolves.newNode sound m.id sender 2
  have found : Evolves (s.newNode m.id sender 2).1
      ((inetNodes m.nodes ++ inet6Nodes m.nodes6).foldl (Dht.foundNode k) (s.newNode m.id sender 2).1) :=
    .foldl (P := fun _ _ => True) new.sound (fun _ x sound _ => .foundNode sound k x)
      (fun _ _ _ _ _ => trivial) fun _ _ => trivial
  dsimp only
  split
  · exact new.trans found
  · exact (new.trans found).trans (.searchSendGetPeers found.sound _ _)

theorem Evolves.announceReply (sound : s.Sound) (m : ParsedMessage) (sender : SockAddr) :
    Evolves s (s.announceReply m sender) := by
  unfold Dht.announceReply
  split
  · exact .newNode sound _ _ _
  rename_i k _
  have new := Evolves.newNode sound m.id sender 2
  have asked {f : Search → Search} (changed : Evolves (s.newNode m.id sender 2).1
      ((s.newNode m.id sender 2).1.modifySearch k f)) :
      Evolves s (((s.newNode m.id sender 2).1.modifySearch k f).searchSendGetPeers k none).1 :=
    (new.trans changed).trans (.searchSendGetPeers changed.sound k none)
  refine asked (.modifySearch new.sound fun sr _ ok => ?_)
  split
  · exact ⟨rfl, ok⟩
  · exact ⟨rfl, (ok.modify (f := SearchNode.acknowledged _) fun n _ good => ⟨rfl, good.acknowledged _⟩).1⟩

/-! ### Maintenance -/

theorem drawn_randomNode (bs : Buckets) (q : ℕ) (s : Dht) : Drawn s (s.randomNode bs q).2 := by
  unfold Dht.randomNode
  split
  · exact drawn_refl s
  · split_ifs
    · exact drawn_refl s
    · exact drawn_draw s

theorem drawn_bucketRandom (bs : Buckets) (i : ℕ) (s : Dht) : Drawn s (s.bucketRandom bs i).2 := by
  unfold Dht.bucketRandom
  split
  · exact drawn_refl s
  · dsimp only
    split_ifs
    · exact drawn_refl s
    · exact ⟨_, rfl⟩

theorem drawn_emptyOrRarely (bs : Buckets) (q : ℕ) (s : Dht) : Drawn s (s.emptyOrRarely bs q).2 := by
  unfold Dht.emptyOrRarely
  split_ifs
  · exact drawn_refl s
  · exact drawn_draw s

theorem drawn_maintenanceBucket (bs : Buckets) (i : ℕ) (s : Dht) : Drawn s (s.maintenanceBucket bs i).2 := by
  have second (q : ℕ) {s' : Dht} (h : Drawn s s') : Drawn s (s'.emptyOrRarely bs q).2 :=
    h.trans (drawn_emptyOrRarely bs q s')
  unfold Dht.maintenanceBucket
  by_cases next : i + 1 < bs.length
  · rw [if_pos next]
    dsimp only
    split_ifs <;> (try split) <;> exact second _ (drawn_emptyOrRarely bs i s)
  · rw [if_neg next]
    dsimp only
    split_ifs <;> (try split) <;> exact second _ (drawn_refl s)

/-- A node of a bucket or of a neighbour is chosen. -/
theorem Drawn.node (h : Drawn s s₁) (bs bs' : Buckets) (i q : ℕ) :
    Drawn s ((s₁.maintenanceBucket bs i).2.randomNode bs' q).2 :=
  (h.trans (drawn_maintenanceBucket bs i s₁)).trans (drawn_randomNode bs' q _)

theorem drawn_maintenanceWant (af : Family) (id : DhtId) (s : Dht) : Drawn s (s.maintenanceWant af id).2 := by
  unfold Dht.maintenanceWant
  by_cases both : (s.socket && s.socket6) = true
  · rw [if_pos both]
    dsimp only
    generalize ((findBucket id _).bind _).any _ = room
    cases room
    · exact drawn_draw s
    · exact drawn_refl s
  · rw [if_neg both]
    exact drawn_refl s

theorem Evolves.sendFindNode (sound : s.Sound) (af : Family) (q j : ℕ) (target : DhtId) (want : ℤ) :
    Evolves s (s.sendFindNode af q j target want) := by
  unfold Dht.sendFindNode
  split
  · exact .refl sound
  rename_i n _
  have sent : Evolves s (s.send ⟨n.ss, .findNode (makeTid "fn" 0) target want⟩) :=
    .send sound rfl (by decide : (makeTid "fn" 0).length < 16)
  exact sent.trans (.pingedAt sent.sound _ _ _ _)

theorem Evolves.neighbourhoodMaintenance (sound : s.Sound) (af : Family) :
    Evolves s (s.neighbourhoodMaintenance af).1 := by
  unfold Dht.neighbourhoodMaintenance
  split
  · exact .refl sound
  dsimp only
  have node (bs bs' : Buckets) (i q : ℕ) := Evolves.drawn sound ((drawn_draw s).node bs bs' i q)
  split
  · exact node _ _ _ _
  · exact (node _ _ _ _).trans (.sendFindNode (node _ _ _ _).sound _ _ _ _ _)

theorem Evolves.bucketMaintenanceLoop (af : Family) (m i : ℕ) (sound : s.Sound) :
    Evolves s (s.bucketMaintenanceLoop af m i).1 := by
  induction m generalizing i s with
  | zero => exact .refl sound
  | succ m ih =>
    rw [Dht.bucketMaintenanceLoop]
    split
    · exact .refl sound
    split_ifs
    · have node (bs bs' : Buckets) (q : ℕ) :=
        Evolves.drawn sound ((drawn_bucketRandom (s.table af) i s).node bs bs' i q)
      have want (bs bs' : Buckets) (q : ℕ) (id : DhtId) :=
        (node bs bs' q).trans (.drawn (node bs bs' q).sound (drawn_maintenanceWant af id _))
      dsimp only
      split
      · exact (node _ _ _).trans (ih _ (node _ _ _).sound)
      · exact (want _ _ _ _).trans (.sendFindNode (want _ _ _ _).sound _ _ _ _ _)
    · exact ih _ sound

theorem Evolves.confirmNodes (sound : s.Sound) : Evolves s s.confirmNodes.1 := by
  unfold Dht.confirmNodes
  have first := Evolves.bucketMaintenanceLoop .inet (s.table .inet).length 0 sound
  have second := first.trans (.bucketMaintenanceLoop .inet6 ((s.bucketMaintenance .inet).1.table .inet6).length 0
    first.sound)
  dsimp only
  split_ifs
  · exact second
  · have third := second.trans (.neighbourhoodMaintenance second.sound .inet)
    exact third.trans (.neighbourhoodMaintenance third.sound .inet6)
  · exact second.trans (.neighbourhoodMaintenance second.sound .inet)
  · exact second.trans (.neighbourhoodMaintenance second.sound .inet6)
  · exact second

end Evolves

end Dht

end Orcashi
