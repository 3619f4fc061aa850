import Orcashi.Dht.Search
import Orcashi.Dht.Storage

/-!
# The state of the DHT and its searches

`now` is the time at which the call of `dht_periodic` began.  A pointer to a search is its position in the
list of searches.  Beside the state there is what the code draws at random, what it sent and what the
callback was called with.
-/

namespace Orcashi

/-! ## The state -/

/-- What becomes of a message: it does not fit into the array, its destination is blacklisted or of a family
without a socket, or its bytes are sent. -/
inductive SendResult where
  | tooLong
  | blacklisted
  | noSocket
  | sent (bytes : Bytes)
  deriving DecidableEq

/-- A message that was passed to `dht_send`, and what became of it. -/
structure Sending where
  call : Outgoing
  result : SendResult
  deriving DecidableEq

/-- `listed` is what `dht_blacklisted` answers, `random` what will be drawn, and `sent` and `events` are what
was done so far. -/
structure Dht where
  socket : Bool
  socket6 : Bool
  searchTime : Time
  confirmNodesTime : Time
  rotateSecretsTime : Time
  myid : DhtId
  myV : Option { b : Bytes // b.length = 4 }
  secret : Bytes
  oldsecret : Bytes
  buckets : Buckets
  buckets6 : Buckets
  stored : PeerStorage
  searches : List Search
  numsearches : ℤ
  searchId : UInt16
  blacklist : Vector (Option SockAddr) 10
  nextBlacklisted : Fin 10
  now : Time
  mybucketGrowTime : Time
  mybucket6GrowTime : Time
  expireStuffTime : Time
  tokenBucketTime : Time
  tokenBucketTokens : ℤ
  listed : SockAddr → Bool
  random : ℕ → ℕ
  sent : List Sending
  events : List DhtEvent

namespace Dht

/-- The table of a family. -/
def table (s : Dht) : Family → Buckets
  | .inet => s.buckets
  | .inet6 => s.buckets6

/-- The table of a family is replaced. -/
def setTable (af : Family) (bs : Buckets) (s : Dht) : Dht :=
  match af with
  | .inet => { s with buckets := bs }
  | .inet6 => { s with buckets6 := bs }

/-- There is a socket for a family. -/
def socketOf (s : Dht) : Family → Bool
  | .inet => s.socket
  | .inet6 => s.socket6

/-- `random()` -/
def draw (s : Dht) : ℕ × Dht := (s.random 0, { s with random := fun n => s.random (n + 1) })

/-- `next_blacklisted` at the beginning -/
def firstBlacklisted : Fin 10 := 0

/-- `node_blacklisted` -/
def nodeBlacklisted (sa : SockAddr) (s : Dht) : Bool := s.listed sa || s.blacklist.contains (some sa)

/-- The end of a `send_*` function, and `dht_send`. -/
def sendResult (o : Outgoing) (s : Dht) : SendResult :=
  match o.message.encode s.myid (s.myV.map Subtype.val) with
  | none => .tooLong
  | some bytes =>
    if s.nodeBlacklisted o.dest then .blacklisted
    else if s.socketOf o.dest.family then .sent bytes
    else .noSocket

/-- `dht_send` -/
def send (o : Outgoing) (s : Dht) : Dht := { s with sent := s.sent ++ [⟨o, s.sendResult o⟩] }

/-- Messages are sent, in order. -/
def sendAll (out : List Outgoing) (s : Dht) : Dht := out.foldl (fun s o => s.send o) s

/-- The callback is called. -/
def event (e : DhtEvent) (s : Dht) : Dht := { s with events := s.events ++ [e] }

/-- A change of the search at `k`. -/
def modifySearch (k : ℕ) (f : Search → Search) (s : Dht) : Dht :=
  { s with searches := s.searches.modify k f }

/-- `pinged` -/
def pingedAt (af : Family) (i j : ℕ) (b : Option ℕ) (s : Dht) : Dht :=
  let r := pinged s.now i j b (s.table af)
  (s.setTable af r.1).sendAll r.2

/-- `pinged` for the node that `find_node` finds, if there is one. -/
def pingKnown (id : DhtId) (af : Family) (s : Dht) : Dht :=
  match findNode id (s.table af) with
  | none => s
  | some (i, j) => s.pingedAt af i j none

end Dht

/-! ## Searches -/

/-- A node that `search_send_get_peers` sends to. -/
def SearchNode.askable (now : Time) (n : SearchNode) : Bool :=
  n.pinged < 3 && !n.replied && n.requestTime < now - 10

/-- The loop of `search_send_get_peers`: the last one. -/
def lastAskable (now : Time) (nodes : List SearchNode) : Option ℕ :=
  (List.range nodes.length).reverse.find? fun j => nodes[j]?.any (SearchNode.askable now)

/-- A request to a node was sent. -/
def SearchNode.asked (now : Time) (n : SearchNode) : SearchNode :=
  { n with pinged := n.pinged + 1, requestTime := now }

/-- A change of the node at `j` of a search. -/
def Search.modifyNode (j : ℕ) (f : SearchNode → SearchNode) (sr : Search) : Search :=
  { sr with nodes := sr.nodes.modify j f }

/-- A peer in the order of the network. -/
def compactPeer (ip : Bytes) (port : UInt16) : Bytes :=
  ip ++ [(port.toNat / 256).toUInt8, (port.toNat % 256).toUInt8]

/-- What is sent with `DHT_EVENT_SEARCH_DONE` or `DHT_EVENT_SEARCH_DONE6`. -/
def Search.doneEvent (sr : Search) : DhtEvent :=
  ⟨if sr.af = .inet then .searchDone else .searchDone6, sr.id.val, []⟩

/-- A search that had no step for 62 minutes. -/
def Search.expired (now : Time) (sr : Search) : Bool := sr.stepTime < now - 62 * 60

/-- The loop of `blacklist_node` over the nodes of a search, from position `i` on. -/
def flushLoop (id : DhtId) : ℕ → ℕ → Search → Search
  | 0, _, sr => sr
  | fuel + 1, i, sr =>
    match sr.nodes[i]? with
    | none => sr
    | some n => flushLoop id fuel (i + 1) (if n.id = id then flushSearchNode i sr else sr)

/-- The first loop of `search_step`, with `j` nodes that replied before. -/
def allReplied : List SearchNode → ℕ → Bool
  | [], _ => true
  | n :: nodes, j =>
    if 8 ≤ j then true
    else if 3 ≤ n.pinged then allReplied nodes j
    else if !n.replied then false
    else allReplied nodes (j + 1)

/-- The nodes a search starts again with: the loop flushes the other ones. -/
def refreshNodes (now : Time) (nodes : List SearchNode) : List SearchNode :=
  (nodes.filter fun n => !(3 ≤ n.pinged || n.replyTime < now - 7200)).map fun n =>
    { n with pinged := 0, token := [], replied := false, acked := false }

/-- `oldest` of `new_search`, with its position. -/
def oldestDone (searches : List Search) : Option (ℕ × Search) :=
  searches.zipIdx.foldl (fun oldest p =>
    if p.1.done && oldest.all fun o => p.1.stepTime < o.2.stepTime then some (p.2, p.1) else oldest) none

namespace Dht

/-- `find_search` -/
def findSearch (tid : UInt16) (af : Family) (s : Dht) : Option ℕ :=
  s.searches.findIdx? fun sr => sr.tid = tid && sr.af = af

/-- `search_send_get_peers`, for a node or for none. -/
def searchSendGetPeers (k : ℕ) (n : Option ℕ) (s : Dht) : Dht × Bool :=
  match s.searches[k]? with
  | none => (s, false)
  | some sr =>
    match n.orElse fun _ => lastAskable s.now sr.nodes with
    | none => (s, false)
    | some j =>
      match sr.nodes[j]? with
      | none => (s, false)
      | some n =>
        if n.askable s.now then
          let s := s.send ⟨n.ss, .getPeers (makeTid "gp" sr.tid) sr.id (-1)⟩
          let s := s.modifySearch k (Search.modifyNode j (SearchNode.asked s.now))
          (s.pingKnown n.id n.ss.family, true)
        else (s, false)

/-- An iteration of `add_search_node`. -/
def addSearchNodeTo (id : DhtId) (sa : SockAddr) (s : Dht) (k : ℕ) : Dht :=
  match s.searches[k]? with
  | none => s
  | some sr =>
    if sr.af = sa.family ∧ sr.nodes.length < 14 then
      let r := insertSearchNode s.now id sa false none sr
      let s := s.modifySearch k fun _ => r.1
      match r.2 with
      | none => s
      | some j => (s.searchSendGetPeers k (some j)).1
    else s

/-- `add_search_node` -/
def addSearchNode (id : DhtId) (sa : SockAddr) (s : Dht) : Dht :=
  (List.range s.searches.length).foldl (addSearchNodeTo id sa) s

/-- `mybucket_grow_time` or `mybucket6_grow_time` is now. -/
def grown (af : Family) (s : Dht) : Dht :=
  match af with
  | .inet => { s with mybucketGrowTime := s.now }
  | .inet6 => { s with mybucket6GrowTime := s.now }

/-- `new_node`; with true if a node is returned. -/
def newNode (id : DhtId) (sa : SockAddr) (confirm : ℕ) (s : Dht) : Dht × Bool :=
  if findBucket id (s.table sa.family) = none then (s, false)
  else if id = s.myid then (s, false)
  else if isMartian sa || s.nodeBlacklisted sa then (s, false)
  else
    let r := newNodeIn s.myid s.now id sa confirm (s.table sa.family)
    let s := s.setTable sa.family r.buckets
    let s := if r.grew then s.grown sa.family else s
    let s := s.sendAll r.out
    (if r.search then s.addSearchNode id sa else s, r.found)

/-- What `blacklist_node` does to a node of a table. -/
def markBroken (id : DhtId) (af : Family) (s : Dht) : Dht :=
  match findNode id (s.table af) with
  | none => s
  | some (i, j) =>
    (s.setTable af (modifyNode i j (fun n => { n with pinged := 3 }) (s.table af))).pingedAt af i j none

/-- The loop of `blacklist_node` over the searches. -/
def flushNode (id : DhtId) (s : Dht) : Dht :=
  { s with searches := s.searches.map fun sr => flushLoop id sr.nodes.length 0 sr }

/-- The end of `blacklist_node`. -/
def addBlacklisted (sa : SockAddr) (s : Dht) : Dht :=
  { s with
    blacklist := s.blacklist.set s.nextBlacklisted (some sa)
    nextBlacklisted := s.nextBlacklisted + 1 }

/-- `blacklist_node` -/
def blacklistNode (id : DhtId) (sa : SockAddr) (s : Dht) : Dht :=
  ((s.markBroken id sa.family).flushNode id).addBlacklisted sa

/-- `expire_searches` -/
def expireSearches (s : Dht) : Dht :=
  { s with
    searches := s.searches.filter fun sr => !sr.expired s.now
    numsearches := s.numsearches - (s.searches.countP (Search.expired s.now) : ℕ)
    events := s.events ++ ((s.searches.filter fun sr => sr.expired s.now && !sr.done).map Search.doneEvent) }

/-- The end of a search in `search_step`. -/
def searchDone (k : ℕ) (s : Dht) : Dht :=
  match s.searches[k]? with
  | none => s
  | some sr => (s.modifySearch k fun sr => { sr with done := true, stepTime := s.now }).event sr.doneEvent

/-- The loop of `search_step` that announces, over the nodes from position `i` on; `j` of those before are
alive.  The result says whether all acknowledged. -/
def announceLoop (k : ℕ) : List SearchNode → ℕ → ℕ → Bool → Dht → Dht × Bool
  | [], _, _, allAcked, s => (s, allAcked)
  | n :: nodes, i, j, allAcked, s =>
    if 8 ≤ j then (s, allAcked)
    else if 3 ≤ n.pinged then announceLoop k nodes (i + 1) j allAcked s
    else if n.token = [] ∨ n.acked then
      announceLoop k nodes (i + 1) (j + 1) allAcked
        (s.modifySearch k (Search.modifyNode i fun n => { n with acked := true }))
    else
      match s.searches[k]? with
      | none => (s, allAcked)
      | some sr =>
        let s := s.send ⟨n.ss, .announcePeer (makeTid "ap" sr.tid) sr.id sr.port n.token⟩
        let s := s.modifySearch k (Search.modifyNode i (SearchNode.asked s.now))
        announceLoop k nodes (i + 1) (j + 1) false (s.pingKnown n.id n.ss.family)

/-- The loop of `search_step` that asks, over `m` nodes from position `i` on. -/
def askLoop (k : ℕ) : ℕ → ℕ → ℕ → Dht → Dht
  | 0, _, _, s => s
  | m + 1, i, j, s =>
    let r := s.searchSendGetPeers k (some i)
    let j := if r.2 then j + 1 else j
    if 4 ≤ j then r.1 else askLoop k m (i + 1) j r.1

/-- `search_step` -/
def searchStep (k : ℕ) (s : Dht) : Dht :=
  match s.searches[k]? with
  | none => s
  | some sr =>
    let stepped (s : Dht) : Dht := s.modifySearch k fun sr => { sr with stepTime := s.now }
    if allReplied sr.nodes 0 then
      if sr.port = 0 then s.searchDone k
      else
        let r := announceLoop k sr.nodes 0 0 true s
        if r.2 then r.1.searchDone k else stepped r.1
    else if s.now ≤ sr.stepTime + 10 then s
    else stepped (askLoop k sr.nodes.length 0 0 s)

/-- `new_search`, where its `calloc` succeeds; a search that is allocated is filled by the caller. -/
def newSearch (s : Dht) : Dht × Option ℕ :=
  let oldest := oldestDone s.searches
  if oldest.any fun o => o.2.expired s.now then (s, oldest.map Prod.fst)
  else if s.numsearches < 1024 then
    ({ s with
        searches := ⟨0, .inet, 0, .zeroes, 0, false, []⟩ :: s.searches
        numsearches := s.numsearches + 1 }, some 0)
  else (s, oldest.map Prod.fst)

/-- `insert_search_bucket` for the bucket at position `i`. -/
def insertSearchBucket (af : Family) (i k : ℕ) (s : Dht) : Dht :=
  (nodesAt (s.table af) i).foldl (fun s n =>
    s.modifySearch k fun sr => (insertSearchNode s.now n.id n.ss false none sr).1) s

/-- The buckets that `dht_search` takes the first nodes from. -/
def insertSearchBuckets (af : Family) (i k : ℕ) (s : Dht) : Dht :=
  let few (s : Dht) : Bool := s.searches[k]?.any fun sr => sr.nodes.length < 14
  let s := s.insertSearchBucket af i k
  let s :=
    if few s then
      let s := if i + 1 < (s.table af).length then s.insertSearchBucket af (i + 1) k else s
      match previousBucket i with
      | none => s
      | some p => s.insertSearchBucket af p k
    else s
  if few s then
    match findBucket s.myid (s.table af) with
    | none => s
    | some own => s.insertSearchBucket af own k
  else s

/-- The events of `dht_search` for what is stored here. -/
def localValues (id : DhtId) (s : Dht) : List DhtEvent :=
  match findStorage id s.stored with
  | none => []
  | some st =>
    st.peers.flatMap fun p =>
      if p.ip.length = 4 then [⟨.values, id.val, compactPeer p.ip p.port⟩]
      else if p.ip.length = 16 then [⟨.values6, id.val, compactPeer p.ip p.port⟩]
      else []

/-- The search of `dht_search`, and whether it is a duplicate; a new one is empty. -/
def openSearch (id : DhtId) (af : Family) (s : Dht) : Dht × Option (ℕ × Bool) :=
  match s.searches.findIdx? fun sr => sr.af = af && sr.id = id with
  | some k =>
    let duplicate := s.searches[k]?.any fun sr => !sr.done
    (s.modifySearch k fun sr => { sr with done := false, nodes := refreshNodes s.now sr.nodes },
      some (k, duplicate))
  | none =>
    match s.newSearch with
    | (s, none) => (s, none)
    | (s, some k) =>
      let sr : Search := ⟨s.searchId, af, 0, id, 0, false, []⟩
      ({ s with searches := s.searches.set k sr, searchId := s.searchId + 1 }, some (k, false))

/-- `dht_search` with a callback. -/
def dhtSearch (id : DhtId) (port : ℤ) (af : Family) (s : Dht) : Dht × ℤ :=
  match findBucket id (s.table af) with
  | none => (s, -1)
  | some i =>
    let s := { s with events := s.events ++ s.localValues id }
    match s.openSearch id af with
    | (s, none) => (s, -1)
    | (s, some (k, duplicate)) =>
      let s := s.modifySearch k fun sr => { sr with port := (port % 65536).toNat.toUInt16 }
      let s := (s.insertSearchBuckets af i k).searchStep k
      ({ s with searchTime := s.now }, if duplicate then 0 else 1)

end Dht

end Orcashi
