import Orcashi.Dht.Starting

/-!
# Runs of the DHT

Whatever the calls after `dht_init` are, in whatever order and at whatever times, the invariant holds after
each.  No allocation fails in these runs.
-/

namespace Orcashi

/-- A call of the program. -/
inductive Call where
  | periodic (clock : Time) (d : Option DhtDatagram)
  | search (id : DhtId) (port : ℤ) (af : Family)
  | insertNode (id : DhtId) (sa : SockAddr)
  | pingNode (sa : SockAddr)

namespace Dht

/-- The state after a call. -/
def perform (c : Call) (s : Dht) : Dht :=
  match c with
  | .periodic clock d => (s.dhtPeriodic clock d).1
  | .search id port af => (s.dhtSearch id port af).1
  | .insertNode id sa => (s.dhtInsertNode id sa).1
  | .pingNode sa => s.dhtPingNode sa

/-- The searches that a call starts. -/
def starts (c : Call) (s : Dht) : List (Family × DhtId) :=
  match c with
  | .search id port af => startedBy id af (s.dhtSearch id port af).2
  | _ => []

/-- The state after some calls. -/
def run (calls : List Call) (s : Dht) : Dht := calls.foldl (fun s c => s.perform c) s

/-- The searches that are started in a run. -/
def startsOf : Dht → List Call → List (Family × DhtId)
  | _, [] => []
  | s, c :: calls => s.starts c ++ startsOf (s.perform c) calls

/-- What a run from `dht_init` comes to. -/
inductive Reachable : Dht → Prop
  | init {s : Dht} {clock : Time} {sock sock6 : Bool} {id : DhtId} {v : Option { b : Bytes // b.length = 4 }}
      (started : (s.dhtInit clock sock sock6 id v).2 = 1) : Reachable (s.dhtInit clock sock sock6 id v).1
  | perform {s : Dht} (h : Reachable s) (c : Call) : Reachable (s.perform c)

/-- The static variables when the program starts. -/
def atStart (listed : SockAddr → Bool) (random : ℕ → ℕ) : Dht where
  socket := false
  socket6 := false
  searchTime := 0
  confirmNodesTime := 0
  rotateSecretsTime := 0
  myid := .zeroes
  myV := none
  secret := List.replicate 8 0
  oldsecret := List.replicate 8 0
  buckets := []
  buckets6 := []
  stored := .empty
  searches := []
  numsearches := 0
  searchId := 0
  blacklist := .replicate 10 none
  nextBlacklisted := firstBlacklisted
  now := 0
  mybucketGrowTime := 0
  mybucket6GrowTime := 0
  expireStuffTime := 0
  tokenBucketTime := 0
  tokenBucketTokens := 0
  listed := listed
  random := random
  sent := []
  events := []

section Runs

variable {s : Dht} {c : Call}

/-! ## The beginning -/

theorem sound_initialState (clock : Time) (sock sock6 : Bool) (id : DhtId)
    (v : Option { b : Bytes // b.length = 4 }) : (s.initialState clock sock sock6 id v).Sound where
  table af some := by
    refine ⟨0, ?_⟩
    cases af with
    | inet => cases sock with
      | false => exact absurd rfl some
      | true => exact sound_initial id .inet
    | inet6 => cases sock6 with
      | false => exact absurd rfl some
      | true => exact sound_initial id .inet6
  sockets af := by
    cases af with
    | inet => cases sock <;> simp [table, socketOf, initialState]
    | inet6 => cases sock6 <;> simp [table, socketOf, initialState]
  searches sr mem := by cases mem
  distinct := List.nodup_nil
  numsearches := rfl
  numsearches_le := Nat.zero_le _
  stored := peerStorage_empty_ok

theorem sound_dhtInit {clock : Time} {sock sock6 : Bool} {id : DhtId} {v : Option { b : Bytes // b.length = 4 }}
    (started : (s.dhtInit clock sock sock6 id v).2 = 1) : (s.dhtInit clock sock sock6 id v).1.Sound := by
  unfold Dht.dhtInit at started ⊢
  by_cases running : (s.socket || s.socket6 || s.buckets ≠ [] || s.buckets6 ≠ []) = true
  · rw [if_pos running] at started
    exact absurd started (by simp)
  · rw [if_neg running]
    have inet := Serves.expireBuckets (s.sound_initialState clock sock sock6 id v) .inet
    exact (Serves.expireBuckets inet.sound .inet6).sound

/-- What `dht_uninit` has stopped can be started again. -/
theorem Reachable.restart (running : s.socketOf af = true) (clock : Time) (sock sock6 : Bool) (id : DhtId)
    (v : Option { b : Bytes // b.length = 4 }) : Reachable (s.dhtUninit.1.dhtInit clock sock sock6 id v).1 := by
  refine .init ?_
  cases af
  · have running : s.socket = true := running
    simp [Dht.dhtUninit, Dht.dhtInit, running]
  · have running : s.socket6 = true := running
    simp [Dht.dhtUninit, Dht.dhtInit, running]

/-! A run to look at: the DHT starts with a socket for IPv4, and nodes answer. -/

/-- The address of a node. -/
def nodeAddr (k : ℕ) : SockAddr := .inet ⟨[198, 51, 100, k.toUInt8], rfl⟩ 6881

/-- The id of a node. -/
def nodeId (k : ℕ) : DhtId := takeExactly 20 [k.toUInt8]

/-- A node answers a ping. -/
def pong (k : ℕ) : Call :=
  .periodic 1000 (some
    { bytes := CMemory.ascii "d1:rd2:id20:" ++ (nodeId k).val ++ CMemory.ascii "e1:t4:pn" ++ [0, 0] ++
        CMemory.ascii "1:y1:re"
      terminator := 0
      sender := nodeAddr k })

/-- The DHT as it starts. -/
def sampleStart : Dht := ((atStart (fun _ => false) fun k => 7 * k + 3).dhtInit 1000 true false .zeroes none).1

/-- A number of nodes answer.  The first bucket has room for 128, so that the next one splits it. -/
def answeredBy (n : ℕ) : Dht := sampleStart.run ((List.range n).map fun k => pong (k + 1))

/-- The address of a node that is only known. -/
def sampleAddr : SockAddr := .inet ⟨[192, 0, 2, 1], rfl⟩ 6881

/-- The id of a node that is only known. -/
def sampleId : DhtId := takeExactly 20 (List.replicate 20 1)

/-- Nine nodes answer, and one more is known. -/
def sample : Dht := (answeredBy 9).perform (.insertNode sampleId sampleAddr)

/-! ## A call -/

/-- A reply of a call: to a request in its datagram. -/
def Replied (c : Call) (s : Dht) (x : Sending) : Prop :=
  ∃ clock d kind m, c = .periodic clock (some d) ∧ Heard d kind m s ∧ RepliesTo kind m d.sender s x

/-- A peer that a call stores: it showed a token. -/
def Announced (c : Call) (s : Dht) (p : DhtId × StoredPeer) : Prop :=
  ∃ clock d m, c = .periodic clock (some d) ∧ Heard d .announcePeer m s ∧
    Shown .announcePeer m d.sender { s with now := clock } p

theorem Does.before {s₁ s' : Dht} {rs : List Sending} {ps : List (DhtId × StoredPeer)} (h : Does rs ps s s₁)
    (h' : Does [] [] s₁ s') : Does rs ps s s' := by
  simpa using h.trans h'

/-- The time of a call. -/
theorem Does.clock (sound : s.Sound) (clock : Time) : Does [] [] s { s with now := clock } :=
  .of_same ⟨fun af => sound.table af, fun af => sound.sockets af, sound.searches, sound.distinct,
    sound.numsearches, sound.numsearches_le, sound.stored⟩ rfl rfl rfl rfl rfl

/-- A call of `dht_periodic`: its datagram is refused, or it is read, and all is done for which it is time. -/
theorem periodic_cases (sound : s.Sound) (clock : Time) (d : Option DhtDatagram) :
    (s.dhtPeriodic clock d).1 = { s with now := clock } ∨
    ∃ rs ps s₁, Receives (Replied (.periodic clock d) s) (Announced (.periodic clock d) s) rs ps
      { s with now := clock } s₁ ∧ (s.dhtPeriodic clock d).1 = s₁.maintain := by
  have timed := (Does.clock sound clock).sound
  cases d with
  | none => exact Or.inr ⟨[], [], _, .quiet (.refl timed), rfl⟩
  | some d =>
    have heard {kind : MessageKind} {m : ParsedMessage} (h : Heard d kind m { s with now := clock }) :
        Heard d kind m s := ⟨h.address, h.listed, h.parsed⟩
    unfold Dht.dhtPeriodic
    dsimp only
    split_ifs with refused empty
    · exact Or.inl rfl
    · exact Or.inr ⟨[], [], _, .quiet (.refl timed), rfl⟩
    · obtain ⟨rs, ps, h⟩ := receives_receive d timed fun address listed => by
        by_contra end_of
        exact refused ⟨empty, by simp [address, listed], end_of⟩
      refine Or.inr ⟨rs, ps, _, ⟨h.does, h.one, fun x mem => ?_, fun p mem => ?_, h.now, h.secrets, h.tokens⟩, rfl⟩
      · obtain ⟨kind, m, listens, reply⟩ := h.replies x mem
        exact ⟨clock, d, kind, m, rfl, heard listens, reply.request, reply.other, reply.dest, reply.tid⟩
      · obtain ⟨kind, m, listens, rfl, token, rfl⟩ := h.shown p mem
        exact ⟨clock, d, m, rfl, heard listens, rfl, token, rfl⟩

theorem perform_spec (c : Call) (sound : s.Sound) :
    ∃ rs ps, (rs.length ≤ 1 ∧ ∀ x ∈ rs, Replied c s x) ∧ (∀ p ∈ ps, Announced c s p) ∧
      Performs rs ps (s.starts c) s (s.perform c) := by
  have quiet {s' : Dht} {started : List (Family × DhtId)} (h : Performs [] [] started s s') :
      ∃ rs ps, (rs.length ≤ 1 ∧ ∀ x ∈ rs, Replied c s x) ∧ (∀ p ∈ ps, Announced c s p) ∧
        Performs rs ps started s s' := ⟨[], [], by simp, by simp, h⟩
  cases c with
  | periodic clock d =>
    have timed := Does.clock sound clock
    rcases periodic_cases sound clock d with same | ⟨rs, ps, s₁, h, same⟩
    · refine quiet (Does.performs ?_)
      rw [perform, same]
      exact timed
    · refine ⟨rs, ps, ⟨h.one, h.replies⟩, h.shown, Does.performs ?_⟩
      rw [perform, same]
      exact (timed.next h.does).before (.maintain h.does.sound)
  | search id port af => exact quiet (performs_dhtSearch sound id port af).1
  | insertNode id sa => exact quiet (Evolves.newNode sound id sa 0).serves.does.performs
  | pingNode sa =>
    have short : (makeTid "pn" 0).length < 16 := by decide
    exact quiet (Evolves.send (o := pingTo sa) sound rfl short).serves.does.performs

/-- Other calls than `dht_periodic` leave the time, the secrets and the token bucket as they are. -/
theorem fixed_perform (c : Call) (sound : s.Sound) (other : ∀ clock d, c ≠ .periodic clock d) :
    (s.perform c).fixed = s.fixed := by
  cases c with
  | periodic clock d => exact absurd rfl (other clock d)
  | search id port af => exact (performs_dhtSearch sound id port af).2
  | insertNode id sa => exact (Evolves.newNode sound id sa 0).serves.fixed
  | pingNode sa => rfl

theorem sound_perform (c : Call) (sound : s.Sound) : (s.perform c).Sound := by
  obtain ⟨rs, ps, -, -, performs⟩ := perform_spec c sound
  exact performs.sound

theorem sound_run (calls : List Call) (sound : s.Sound) : (s.run calls).Sound := by
  induction calls generalizing s with
  | nil => exact sound
  | cons c calls ih => exact ih (sound_perform c sound)

theorem Reachable.sound (h : Reachable s) : s.Sound := by
  induction h with
  | init started => exact sound_dhtInit started
  | perform h c ih => exact sound_perform c ih

theorem Reachable.run (h : Reachable s) (calls : List Call) : Reachable (s.run calls) := by
  induction calls generalizing s with
  | nil => exact h
  | cons c calls ih => exact ih (h.perform c)

/-- No call changes the own id, or opens or closes a socket. -/
theorem given_run (calls : List Call) (sound : s.Sound) : (s.run calls).given = s.given := by
  induction calls generalizing s with
  | nil => rfl
  | cons c calls ih =>
    obtain ⟨rs, ps, -, -, performs⟩ := perform_spec c sound
    exact (ih performs.sound).trans performs.given

theorem Reachable.socketOf_run (h : Reachable s) (calls : List Call) (af : Family) :
    (s.run calls).socketOf af = s.socketOf af := by
  have given := given_run calls h.sound
  cases af
  · exact congrArg (fun g => g.2.1) given
  · exact congrArg (fun g => g.2.2) given

theorem sampleStart_reachable : Reachable sampleStart := .init rfl

theorem answeredBy_reachable (n : ℕ) : Reachable (answeredBy n) := sampleStart_reachable.run _

theorem answeredBy_running (n : ℕ) : (answeredBy n).socketOf .inet = true :=
  (sampleStart_reachable.socketOf_run _ .inet).trans rfl

theorem sample_reachable : Reachable sample := (answeredBy_reachable 9).perform _

theorem sample_running : sample.socketOf .inet = true :=
  ((answeredBy_reachable 9).socketOf_run [.insertNode sampleId sampleAddr] .inet).trans (answeredBy_running 9)

/-- There is one bucket, and the nodes that answered are good. -/
theorem sample_table : (sample.table .inet).length = 1 ∧ inBucket sample.myid (sample.table .inet) 0 = true ∧
    (tableNodes (sample.table .inet)).map (fun n => (n.id, nodeGood sample.now n)) =
      (sampleId, false) :: [9, 8, 7, 6, 5, 4, 3, 2, 1].map fun k => (nodeId k, true) := by
  decide +kernel

theorem balance_run (calls : List Call) (sound : s.Sound) (key : Family × DhtId) :
    (s.run calls).balance key = s.balance key + (s.startsOf calls).count key := by
  induction calls generalizing s with
  | nil => rfl
  | cons c calls ih =>
    obtain ⟨rs, ps, -, -, performs⟩ := perform_spec c sound
    rw [startsOf, List.count_append, ← Nat.add_assoc, ← performs.balance]
    exact ih performs.sound

/-! ## Tables -/

variable {af : Family} {now : Time} {sa : SockAddr} {id : DhtId} {confirm : ℕ}

/-- A table whose buckets divide all ids among them. -/
structure WellFormed (me : DhtId) (af : Family) (bs : Buckets) : Prop where
  length : 1 ≤ bs.length ∧ bs.length ≤ 161
  bucket : ∀ id, ∃! i, inBucket id bs i = true
  inside : ∀ i, ∀ n ∈ nodesAt bs i, inBucket n.id bs i = true
  room : ∀ b ∈ bs, b.count = b.nodes.length ∧ b.count ≤ b.maxCount ∧ 8 ≤ b.maxCount ∧ b.maxCount ≤ 128
  once : ((tableNodes bs).map DhtPeer.id).Nodup
  nodes : ∀ n ∈ tableNodes bs, n.id ≠ me ∧ n.ss.family = af ∧ isMartian n.ss = false
  size : (tableNodes bs).length ≤ 1496

theorem capacity_le (k : ℕ) : capacity k ≤ 128 := max_le (Nat.div_le_self _ _) (by decide)

theorem wellFormed {me : DhtId} {d : ℕ} {bs : Buckets} (sound : SoundTable me af d bs) : WellFormed me af bs where
  length := by
    have := sound.length
    have := sound.depth_le
    omega
  bucket id := by
    obtain ⟨i, b, -, -, inside, -⟩ := sound.findBucket id
    exact ⟨i, inside, fun j there => sound.eq_of_inBucket there inside⟩
  inside i n mem := by
    cases hb : bs[i]? with
    | none => simp [nodesAt, hb] at mem
    | some b =>
      rw [nodesAt, hb] at mem
      exact ((sound.mem_nodesAt_iff hb).1 mem).2
  room b mem := by
    have ok := sound.buckets b mem
    have le := capacity_le (nearness me d b.first)
    have eight := eight_le_capacity (nearness me d b.first)
    refine ⟨ok.count, ok.count_le, ?_, ?_⟩ <;> rw [ok.maxCount] <;> omega
  once := sound.nodup
  nodes n mem := ⟨(sound.peer_ok mem).ne_me, (sound.peer_ok mem).family, (sound.peer_ok mem).address⟩
  size := sound.length_tableNodes_le

theorem Sound.soundTable (sound : s.Sound) (running : s.socketOf af = true) :
    ∃ d, SoundTable s.myid af d (s.table af) := by
  refine sound.table af fun empty => ?_
  rw [sound.sockets] at empty
  simp [running] at empty

/-- Whatever is called, the tables stay well-formed. -/
theorem Reachable.table_wellFormed (h : Reachable s) (running : s.socketOf af = true) :
    WellFormed s.myid af (s.table af) := by
  obtain ⟨d, table⟩ := h.sound.soundTable running
  exact Dht.wellFormed table

theorem table_wellFormed_sample :
    WellFormed (answeredBy 129).myid .inet ((answeredBy 129).table .inet) :=
  (answeredBy_reachable 129).table_wellFormed (answeredBy_running 129)

/-- The bits that an id shares with the own one say in which bucket it is, and `find_node` finds what is in the
table. -/
theorem Reachable.find_iff (h : Reachable s) (running : s.socketOf af = true) :
    (∀ x y, findBucket x (s.table af) = findBucket y (s.table af) ↔
      min (commonBits x s.myid) ((s.table af).length - 1) = min (commonBits y s.myid) ((s.table af).length - 1)) ∧
    ∀ x n, (∃ i j, findNode x (s.table af) = some (i, j) ∧ (nodesAt (s.table af) i)[j]? = some n) ↔
      n ∈ tableNodes (s.table af) ∧ n.id = x := by
  obtain ⟨d, table⟩ := h.sound.soundTable running
  rw [table.length, Nat.add_sub_cancel]
  exact ⟨table.findBucket_eq_iff, fun x n => table.findNode_eq_some_iff⟩

theorem find_iff_sample :
    let s := answeredBy 129
    let bs := s.table .inet
    (∀ x y, findBucket x bs = findBucket y bs ↔
      min (commonBits x s.myid) (bs.length - 1) = min (commonBits y s.myid) (bs.length - 1)) ∧
    ∀ x n, (∃ i j, findNode x bs = some (i, j) ∧ (nodesAt bs i)[j]? = some n) ↔ n ∈ tableNodes bs ∧ n.id = x :=
  (answeredBy_reachable 129).find_iff (answeredBy_running 129)

/-- The bucket of a node is another one than the own, and full. -/
def NoRoom (me : DhtId) (n : DhtPeer) (bs : Buckets) : Prop :=
  ∃ i b, bs[i]? = some b ∧ inBucket n.id bs i = true ∧ ¬ inBucket me bs i = true ∧ (b.nodes.length : ℤ) = b.maxCount

theorem noRoom_of_crowded {me : DhtId} {d : ℕ} {bs : Buckets} {n : DhtPeer} (sound : SoundTable me af d bs)
    (h : Crowded me d n bs) : NoRoom me n bs := by
  obtain ⟨b, mem, near, far, full⟩ := h
  obtain ⟨i, hb⟩ := List.mem_iff_getElem?.1 mem
  have ok := sound.bucket hb
  have := ok.count
  have := ok.count_le
  exact ⟨i, b, hb, (sound.inBucket_iff hb).2 near, fun mine => far ((sound.mine_iff hb).1 mine), by omega⟩

theorem newNodeIn_keeps (sound : s.Sound) (running : s.socketOf sa.family = true) (address : isMartian sa = false)
    (id : DhtId) (confirm : ℕ) :
    let bs := s.table sa.family
    let r := newNodeIn s.myid s.now id sa confirm bs
    (r.found = true ↔ id ∈ tableIds r.buckets) ∧
      (∀ x ∈ tableIds r.buckets, x = id ∨ x ∈ tableIds bs) ∧
      ∀ n ∈ tableNodes bs, nodeGood s.now n = true → n.id ≠ id →
        n ∈ tableNodes r.buckets ∨ (bs.length < r.buckets.length ∧ NoRoom s.myid n r.buckets) := by
  intro bs r
  obtain ⟨d, table⟩ := sound.soundTable running
  obtain ⟨e, learnt⟩ := table.newNodeIn s.now id confirm rfl address
  refine ⟨learnt.found, fun x mem => ?_, fun n mem good other => ?_⟩
  · obtain ⟨n, hn, rfl⟩ := List.mem_map.1 mem
    rcases learnt.origin n hn with same | old | ⟨n₀, old, -, rfl⟩
    · exact Or.inl same
    · exact Or.inr (List.mem_map_of_mem old)
    · exact Or.inr (List.mem_map.2 ⟨n₀, old, rfl⟩)
  · rcases learnt.kept n mem other with kept | ⟨bad, -⟩ | gone | ⟨deeper, crowded⟩
    · exact Or.inl kept
    · rw [good] at bad
      cases bad
    · simp only [nodeGood, expendable, Bool.and_eq_true, decide_eq_true_eq] at good gone
      omega
    · refine Or.inr ⟨?_, noRoom_of_crowded learnt.sound crowded⟩
      rw [table.length, learnt.sound.length]
      exact Nat.succ_lt_succ deeper

/-- What `new_node` returns is in the table, and it is the only node that comes.  A good node only goes when the
own bucket is split and there is no room in the one that the node belongs into then. -/
theorem Reachable.newNode_keeps (h : Reachable s) (running : s.socketOf sa.family = true) (address : isMartian sa = false)
    (id : DhtId) (confirm : ℕ) :
    let bs := s.table sa.family
    let r := newNodeIn s.myid s.now id sa confirm bs
    (r.found = true ↔ id ∈ tableIds r.buckets) ∧
      (∀ x ∈ tableIds r.buckets, x = id ∨ x ∈ tableIds bs) ∧
      ∀ n ∈ tableNodes bs, nodeGood s.now n = true → n.id ≠ id →
        n ∈ tableNodes r.buckets ∨ (bs.length < r.buckets.length ∧ NoRoom s.myid n r.buckets) :=
  newNodeIn_keeps h.sound running address id confirm

theorem newNode_keeps_sample :
    let s := answeredBy 128
    let bs := s.table .inet
    let r := newNodeIn s.myid s.now (nodeId 129) (nodeAddr 129) 2 bs
    (r.found = true ↔ nodeId 129 ∈ tableIds r.buckets) ∧
      (∀ x ∈ tableIds r.buckets, x = nodeId 129 ∨ x ∈ tableIds bs) ∧
      ∀ n ∈ tableNodes bs, nodeGood s.now n = true → n.id ≠ nodeId 129 →
        n ∈ tableNodes r.buckets ∨ (bs.length < r.buckets.length ∧ NoRoom s.myid n r.buckets) := by
  have running : (answeredBy 128).socketOf (nodeAddr 129).family = true := answeredBy_running 128
  exact (answeredBy_reachable 128).newNode_keeps running (by decide) (nodeId 129) 2

/-- A split of the own bucket takes memory for the new bucket and nothing else.  It keeps every node, unless there
is no room in the bucket that it belongs into then, or no memory for a further split. -/
theorem Reachable.split_keeps (h : Reachable s) (running : s.socketOf af = true) {i : ℕ}
    (mine : inBucket s.myid (s.table af) i = true) (short : (s.table af).length ≤ 160) (calloc : ℕ → Bool) :
    (splitBucket calloc s.myid i (s.table af)).isSome = calloc 0 ∧
      ∀ bs out, splitBucket calloc s.myid i (s.table af) = some (bs, out) →
        WellFormed s.myid af bs ∧ (s.table af).length < bs.length ∧
          (∀ n ∈ tableNodes bs, n ∈ tableNodes (s.table af)) ∧
          ((∀ k, calloc k = true) →
            ∀ n ∈ tableNodes (s.table af), n ∈ tableNodes bs ∨ NoRoom s.myid n bs) := by
  obtain ⟨d, table⟩ := h.sound.soundTable running
  have length := table.length
  obtain ⟨b, hb⟩ := SoundTable.exists_getElem? mine
  cases first : calloc 0 with
  | false =>
    have fails : splitBucket calloc s.myid i (s.table af) = none := by
      rw [splitBucket, first, splitBucketHelper_false]
      rfl
    rw [fails]
    refine ⟨rfl, fun bs out split => ?_⟩
    cases split
  | true =>
    obtain ⟨bs, out, e, done, deeper, moved⟩ := table.splitBucket hb mine (by omega) first
    rw [done]
    refine ⟨rfl, fun bs' out' split => ?_⟩
    cases split
    refine ⟨Dht.wellFormed moved.sound, ?_, moved.subset, fun has n mem => ?_⟩
    · rw [length, moved.sound.length]
      exact Nat.succ_lt_succ deeper
    · exact (moved.kept (fun k => has (k + 1)) n mem).imp_right (noRoom_of_crowded moved.sound)

theorem split_keeps_sample :
    (splitBucket (fun _ => true) sample.myid 0 (sample.table .inet)).isSome = true ∧
      ∀ bs out, splitBucket (fun _ => true) sample.myid 0 (sample.table .inet) = some (bs, out) →
        WellFormed sample.myid .inet bs ∧ (sample.table .inet).length < bs.length ∧
          (∀ n ∈ tableNodes bs, n ∈ tableNodes (sample.table .inet)) ∧
          ((∀ _ : ℕ, true = true) →
            ∀ n ∈ tableNodes (sample.table .inet), n ∈ tableNodes bs ∨ NoRoom sample.myid n bs) :=
  sample_reachable.split_keeps sample_running sample_table.2.1 (sample_table.1.trans_le (by decide)) fun _ => true

/-! ## Searches -/

/-- A search has at most 14 nodes, in the order of their distance, none of them twice. -/
theorem Reachable.searches_bounded (h : Reachable s) :
    s.searches.length ≤ 1024 ∧ s.numsearches = s.searches.length ∧ (s.searches.map Search.key).Nodup ∧
      ∀ sr ∈ s.searches, sr.nodes.length ≤ 14 ∧ sr.ids.Nodup ∧
        (sr.ids.Pairwise fun x y => x.dist sr.id < y.dist sr.id) ∧
        ∀ n ∈ sr.nodes, n.id ≠ s.myid ∧ n.ss.family = sr.af ∧ n.token.length < 40 ∧ 0 ≤ n.pinged ∧ n.pinged ≤ 3 := by
  have sound := h.sound
  refine ⟨sound.numsearches_le, sound.numsearches, sound.distinct, fun sr mem => ?_⟩
  have ok := sound.searches sr mem
  refine ⟨ok.length_le, ok.nodup, ok.sorted_ids, fun n mem => ?_⟩
  have good := ok.nodes n mem
  exact ⟨good.ne_me, good.family, good.token, good.pinged⟩

theorem searches_bounded_sample :
    let s := sample.perform (.search sampleId 0 .inet)
    s.searches.length ≤ 1024 ∧ s.numsearches = s.searches.length ∧ (s.searches.map Search.key).Nodup ∧
      ∀ sr ∈ s.searches, sr.nodes.length ≤ 14 ∧ sr.ids.Nodup ∧
        (sr.ids.Pairwise fun x y => x.dist sr.id < y.dist sr.id) ∧
        ∀ n ∈ sr.nodes, n.id ≠ s.myid ∧ n.ss.family = sr.af ∧ n.token.length < 40 ∧ 0 ≤ n.pinged ∧ n.pinged ≤ 3 :=
  (sample_reachable.perform (.search sampleId 0 .inet)).searches_bounded

theorem Sound.countP_open (sound : s.Sound) (key : Family × DhtId) : s.searches.countP (openFor key) ≤ 1 := by
  have keys : (s.searches.map Search.key).count key ≤ 1 := List.nodup_iff_count_le_one.1 sound.distinct key
  rw [List.count_eq_countP, List.countP_map] at keys
  refine le_trans (List.countP_mono_left fun sr _ opened => ?_) keys
  rw [openFor, Bool.and_eq_true, decide_eq_true_eq] at opened
  simpa using opened.1

/-- Every search that is started is told to be done once: for those that were not yet, there is one that is
open. -/
theorem Reachable.ends_once (h : Reachable s) (calls : List Call) (key : Family × DhtId) :
    (s.run calls).events.count (doneEventOf key) + (s.run calls).searches.countP (openFor key) =
        s.events.count (doneEventOf key) + s.searches.countP (openFor key) + (s.startsOf calls).count key ∧
      (s.run calls).searches.countP (openFor key) ≤ 1 :=
  ⟨balance_run calls h.sound key, (sound_run calls h.sound).countP_open key⟩

theorem ends_once_sample :
    let s := sample.run [.search sampleId 0 .inet]
    s.events.count (doneEventOf (.inet, sampleId)) + s.searches.countP (openFor (.inet, sampleId)) =
        sample.events.count (doneEventOf (.inet, sampleId)) + sample.searches.countP (openFor (.inet, sampleId)) +
          (sample.startsOf [.search sampleId 0 .inet]).count (.inet, sampleId) ∧
      s.searches.countP (openFor (.inet, sampleId)) ≤ 1 :=
  sample_reachable.ends_once [.search sampleId 0 .inet] (.inet, sampleId)

/-! ## Messages -/

/-- A call sends at most one reply, to a request of its datagram, and everything that is sent fits. -/
theorem Reachable.one_reply (h : Reachable s) (c : Call) :
    ∃ out, (s.perform c).sent = s.sent ++ out ∧ (∀ x ∈ out, x.result ≠ .tooLong) ∧
      (out.filter fun x => !x.call.message.isQuery).length ≤ 1 ∧
      ∀ x ∈ out, x.call.message.isQuery = false → Replied c s x := by
  obtain ⟨rs, ps, ⟨one, replied⟩, -, performs⟩ := perform_spec c h.sound
  obtain ⟨out, sent, replies, fits⟩ := performs.sent
  refine ⟨out, sent, fits, replies ▸ one, fun x mem reply => replied x ?_⟩
  rw [← replies]
  exact List.mem_filter.2 ⟨mem, by simp [reply]⟩

/-- An `announce_peer` with the token that its sender was given. -/
def sampleAnnouncement : DhtDatagram where
  bytes := CMemory.ascii "d1:ad2:id20:" ++ sampleId.val ++ CMemory.ascii "9:info_hash20:" ++ sampleId.val ++
    CMemory.ascii "4:porti6881e5:token8:" ++ makeToken sample.secret sampleAddr ++
    CMemory.ascii "e1:q13:announce_peer1:t4:aaaa1:y1:qe"
  terminator := 0
  sender := sampleAddr

theorem one_reply_sample :
    let c := Call.periodic 1001 (some sampleAnnouncement)
    ∃ out, (sample.perform c).sent = sample.sent ++ out ∧ (∀ x ∈ out, x.result ≠ .tooLong) ∧
      (out.filter fun x => !x.call.message.isQuery).length ≤ 1 ∧
      ∀ x ∈ out, x.call.message.isQuery = false → Replied c sample x :=
  sample_reachable.one_reply (.periodic 1001 (some sampleAnnouncement))

/-! ## What is stored -/

theorem stored_run (calls : List Call) (sound : s.Sound) {id : DhtId} {p : StoredPeer}
    (has : (s.run calls).stored.Has id p) :
    s.stored.Has id p ∨ ∃ before c after, calls = before ++ c :: after ∧ Announced c (s.run before) (id, p) := by
  induction calls generalizing s with
  | nil => exact Or.inl has
  | cons c calls ih =>
    obtain ⟨rs, ps, -, announced, performs⟩ := perform_spec c sound
    rcases ih performs.sound has with has | ⟨before, c', after, rfl, h⟩
    · rcases performs.stored id p has with has | mem
      · exact Or.inl has
      · exact Or.inr ⟨[], c, calls, rfl, announced _ mem⟩
    · exact Or.inr ⟨c :: before, c', after, rfl, h⟩

/-- Everything that is stored was announced in a call, by its address and with a token for it. -/
theorem Reachable.stored_announced (h : Reachable s) (calls : List Call) {id : DhtId} {p : StoredPeer}
    (has : (s.run calls).stored.Has id p) :
    s.stored.Has id p ∨ ∃ before c after, calls = before ++ c :: after ∧ Announced c (s.run before) (id, p) :=
  stored_run calls h.sound has

/-- The peer that is stored for it. -/
def samplePeer : StoredPeer := ⟨1001, [192, 0, 2, 1], 6881⟩

theorem sample_stored : (sample.run [.periodic 1001 (some sampleAnnouncement)]).stored.Has sampleId samplePeer := by
  unfold PeerStorage.Has
  decide +kernel

theorem stored_announced_sample :
    sample.stored.Has sampleId samplePeer ∨
      ∃ before c after, [Call.periodic 1001 (some sampleAnnouncement)] = before ++ c :: after ∧
        Announced c (sample.run before) (sampleId, samplePeer) :=
  sample_reachable.stored_announced [.periodic 1001 (some sampleAnnouncement)] sample_stored

end Runs

end Dht

end Orcashi
