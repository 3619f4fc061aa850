import Orcashi.Dht.State

/-!
# What the DHT does

`dht_periodic` is called with a datagram, or with none when nothing has come for a second.  A reply belongs
to what was asked by its transaction id.  A request is answered, unless there were too many of late.  Then
everything is done for which the time has come.
-/

namespace Orcashi

open CMemory

/-! ## Nodes in messages -/

/-- The first `n` bytes, where there are so many. -/
def takeExactly (n : ℕ) (b : Bytes) : { b : Bytes // b.length = n } :=
  ⟨(b ++ List.replicate n 0).take n, by simp⟩

/-- A port in the order of the network. -/
def portAt (b : Bytes) : UInt16 := ((b.getD 0 0).toNat * 256 + (b.getD 1 0).toNat).toUInt16

/-- The nodes of 26 bytes each. -/
def inetNodes (nodes : Bytes) : List (DhtId × SockAddr) :=
  (List.range (nodes.length / 26)).map fun i =>
    let ni := nodes.drop (i * 26)
    (takeExactly 20 ni, .inet (takeExactly 4 (ni.drop 20)) (portAt (ni.drop 24)))

/-- The nodes of 38 bytes each. -/
def inet6Nodes (nodes6 : Bytes) : List (DhtId × SockAddr) :=
  (List.range (nodes6.length / 38)).map fun i =>
    let ni := nodes6.drop (i * 38)
    (takeExactly 20 ni, .inet6 (takeExactly 16 (ni.drop 20)) (portAt (ni.drop 36)))

/-- `insert_closest_node`; the nodes are those in the buffer. -/
def insertClosestNode (target : DhtId) (n : DhtPeer) (nodes : List (DhtId × SockAddr)) :
    List (DhtId × SockAddr) :=
  let i := closestPlace target n.id (nodes.map Prod.fst)
  if (nodes[i]?.map Prod.fst) = some n.id then nodes
  else if i = 8 then nodes
  else (nodes.insertIdx i (n.id, n.ss)).take 8

/-- `buffer_closest_nodes` for the bucket at position `i`. -/
def bufferClosestNodes (now : Time) (target : DhtId) (bs : Buckets) (i : ℕ)
    (nodes : List (DhtId × SockAddr)) : List (DhtId × SockAddr) :=
  (nodesAt bs i).foldl (fun nodes n => if nodeGood now n then insertClosestNode target n nodes else nodes) nodes

/-- The nodes of one family in `send_closest_nodes`. -/
def closestNodes (now : Time) (target : DhtId) (bs : Buckets) : List (DhtId × SockAddr) :=
  match findBucket target bs with
  | none => []
  | some i =>
    let nodes := bufferClosestNodes now target bs i []
    let nodes := if i + 1 < bs.length then bufferClosestNodes now target bs (i + 1) nodes else nodes
    match previousBucket i with
    | none => nodes
    | some p => bufferClosestNodes now target bs p nodes

/-- How a node is written into a buffer. -/
def compactNode (x : DhtId × SockAddr) : Bytes := x.1.val ++ compactPeer x.2.ip x.2.port

/-- The loop of `send_nodes_peers` over the peers of one family, which begins at position `j0`. -/
def peerValues (af : Family) (j0 : ℕ) (peers : List StoredPeer) : List Bytes :=
  let len := if af = .inet then 4 else 16
  (((peers.drop j0 ++ peers.take j0).filter fun p => p.ip.length = len).take 50).map fun p =>
    compactPeer p.ip p.port

/-- `tid_match` -/
def tidMatch (tid : Bytes) (start : String) : Bool := tid.take 2 = ascii start

/-- The number in a transaction id of four bytes. -/
def tidSeqno (tid : Bytes) : UInt16 := ((tid.getD 2 0).toNat + 256 * (tid.getD 3 0).toNat).toUInt16

/-- What a node of a search gets for a reply to `announce_peer`. -/
def SearchNode.acknowledged (now : Time) (n : SearchNode) : SearchNode :=
  { n with requestTime := 0, replyTime := now, acked := true, pinged := 0 }

namespace Dht

/-! ## Requests -/

/-- `token_bucket`; an `int` takes what is left of a number of more bits. -/
def tokenBucket (s : Dht) : Dht × Bool :=
  let s :=
    if s.tokenBucketTokens = 0 then
      { s with
        tokenBucketTokens := (min 400 (100 * (s.now - s.tokenBucketTime))).bmod (2 ^ 32)
        tokenBucketTime := s.now }
    else s
  if s.tokenBucketTokens = 0 then (s, false)
  else ({ s with tokenBucketTokens := s.tokenBucketTokens - 1 }, true)

/-- `send_closest_nodes` -/
def sendClosestNodes (sa : SockAddr) (tid : Bytes) (id : DhtId) (want : ℕ) (st : Option Storage) (token : Bytes)
    (s : Dht) : Dht :=
  let want := if want = 0 then if sa.family = .inet then 1 else 2 else want
  let nodes := if want.testBit 0 then closestNodes s.now id s.buckets else []
  let nodes6 := if want.testBit 1 then closestNodes s.now id s.buckets6 else []
  let message := DhtMessage.nodesPeers tid (nodes.flatMap compactNode) (nodes6.flatMap compactNode) token
  match st with
  | none => s.send ⟨sa, message none⟩
  | some st =>
    if st.peers = [] then s.send ⟨sa, message none⟩
    else
      let (r, s) := s.draw
      s.send ⟨sa, message (some (peerValues sa.family (r % st.peers.length) st.peers))⟩

/-- `send_error` -/
def sendError (sa : SockAddr) (tid : Bytes) (message : String) (s : Dht) : Dht :=
  s.send ⟨sa, .error tid 203 (ascii message)⟩

/-- `dht_periodic` on a `get_peers`. -/
def getPeers (m : ParsedMessage) (sender : SockAddr) (s : Dht) : Dht :=
  if m.infoHash = .zeroes then s.sendError sender m.tid "Get_peers with no info_hash"
  else
    s.sendClosestNodes sender m.tid m.infoHash m.want
      ((findStorage m.infoHash s.stored).filter fun st => st.peers ≠ []) (makeToken s.secret sender)

/-- `dht_periodic` on an `announce_peer`. -/
def announcePeer (m : ParsedMessage) (sender : SockAddr) (s : Dht) : Dht :=
  if m.infoHash = .zeroes then s.sendError sender m.tid "Announce_peer with no info_hash"
  else if !tokenMatch s.secret s.oldsecret m.token sender then
    s.sendError sender m.tid "Announce_peer with wrong token"
  else
    let port := if m.impliedPort ≠ 0 then sender.port else m.port
    if port = 0 then s.sendError sender m.tid "Announce_peer with forbidden port number"
    else
      { s with stored := (storageStore s.now m.infoHash sender port s.stored).1 }.send
        ⟨sender, .peerAnnounced m.tid⟩

/-! ## Replies -/

/-- An iteration of the loops over the nodes of a reply, for a search or none. -/
def foundNode (k : Option ℕ) (s : Dht) (x : DhtId × SockAddr) : Dht :=
  if x.1 = s.myid then s
  else
    let s := (s.newNode x.1 x.2 0).1
    match k with
    | none => s
    | some k =>
      s.modifySearch k fun sr =>
        if sr.af = x.2.family then (insertSearchNode s.now x.1 x.2 false none sr).1 else sr

/-- The nodes of a reply that is not broken. -/
def foundNodes (k : Option ℕ) (m : ParsedMessage) (sender : SockAddr) (s : Dht) : Dht :=
  let s := (s.newNode m.id sender 2).1
  let s := (inetNodes m.nodes ++ inet6Nodes m.nodes6).foldl (foundNode k) s
  match k with
  | none => s
  | some k => (s.searchSendGetPeers k none).1

/-- The end of a reply for a search: its sender and its values. -/
def searchReplied (k : ℕ) (m : ParsedMessage) (sender : SockAddr) (s : Dht) : Dht :=
  match s.searches[k]? with
  | none => s
  | some sr =>
    let s := s.modifySearch k fun sr => (insertSearchNode s.now m.id sender true (some m.token) sr).1
    let s := if m.values ≠ [] then s.event ⟨.values, sr.id.val, m.values⟩ else s
    if m.values6 ≠ [] then s.event ⟨.values6, sr.id.val, m.values6⟩ else s

/-- `dht_periodic` on a reply to `find_node` or `get_peers`. -/
def nodesReply (m : ParsedMessage) (sender : SockAddr) (s : Dht) : Dht :=
  let gp := tidMatch m.tid "gp"
  let k := if gp then s.findSearch (tidSeqno m.tid) sender.family else none
  let s :=
    if m.nodes.length % 26 ≠ 0 ∨ m.nodes6.length % 38 ≠ 0 then s.blacklistNode m.id sender
    else if gp && k.isNone then (s.newNode m.id sender 1).1
    else s.foundNodes k m sender
  match k with
  | none => s
  | some k => s.searchReplied k m sender

/-- `dht_periodic` on a reply to `announce_peer`. -/
def announceReply (m : ParsedMessage) (sender : SockAddr) (s : Dht) : Dht :=
  match s.findSearch (tidSeqno m.tid) sender.family with
  | none => (s.newNode m.id sender 1).1
  | some k =>
    let s := (s.newNode m.id sender 2).1
    let s := s.modifySearch k fun sr =>
      match sr.nodes.findIdx? fun n => n.id = m.id with
      | none => sr
      | some j => sr.modifyNode j (SearchNode.acknowledged s.now)
    (s.searchSendGetPeers k none).1

/-- `dht_periodic` on a reply. -/
def reply (m : ParsedMessage) (sender : SockAddr) (s : Dht) : Dht :=
  if m.tid.length ≠ 4 then s.blacklistNode m.id sender
  else if tidMatch m.tid "pn" then (s.newNode m.id sender 2).1
  else if tidMatch m.tid "fn" || tidMatch m.tid "gp" then s.nodesReply m sender
  else if tidMatch m.tid "ap" then s.announceReply m sender
  else s

/-- A request that is not dropped. -/
def request (kind : MessageKind) (m : ParsedMessage) (sender : SockAddr) (s : Dht) : Dht :=
  let s := (s.newNode m.id sender 1).1
  match kind with
  | .ping => s.send ⟨sender, .pong m.tid⟩
  | .findNode => s.sendClosestNodes sender m.tid m.target m.want none []
  | .getPeers => s.getPeers m sender
  | .announcePeer => s.announcePeer m sender
  | .reply | .error => s

/-! ## Maintenance -/

/-- `rotate_secrets` -/
def rotateSecrets (s : Dht) : Dht :=
  let (r, s) := s.draw
  { s with
    rotateSecretsTime := s.now + 900 + (r % 1800 : ℕ)
    oldsecret := s.secret
    secret := (List.range 8).map fun i => (s.random i).toUInt8
    random := fun n => s.random (n + 8) }

/-- `expire_buckets` -/
def expireBuckets (af : Family) (s : Dht) : Dht :=
  let r := Orcashi.expireBuckets (s.table af)
  let s := (s.setTable af r.1).sendAll r.2
  let (r, s) := s.draw
  { s with expireStuffTime := s.now + 120 + (r % 240 : ℕ) }

/-- `random_node` in the bucket at position `q`, as a position in its list. -/
def randomNode (bs : Buckets) (q : ℕ) (s : Dht) : Option ℕ × Dht :=
  match bs[q]? with
  | none => (none, s)
  | some b =>
    if b.count = 0 then (none, s)
    else
      let (r, s) := s.draw
      let nn := r % b.count.toNat
      (if nn < b.nodes.length then some nn else none, s)

/-- `bucket_random` on the first id of a bucket: the first `bit` bits of it and random ones behind. -/
def randomId (first : DhtId) (bit : ℕ) (random : ℕ → ℕ) : DhtId :=
  let k := bit / 8
  let middle := (first.val.getD k 0 &&& (0xFF00 >>> (bit % 8)).toUInt8) |||
    ((random 0).toUInt8 &&& (0xFF >>> (bit % 8)).toUInt8)
  takeExactly 20 (first.val.take k ++ middle :: (List.range (19 - k)).map fun i => (random (i + 1)).toUInt8)

/-- `bucket_random` -/
def bucketRandom (bs : Buckets) (i : ℕ) (s : Dht) : DhtId × Dht :=
  match bs[i]? with
  | none => (.zeroes, s)
  | some b =>
    let bit1 := lowbit b.first
    let bit2 := (bs[i + 1]?.map fun next => lowbit next.first).getD (-1)
    let bit := (max bit1 bit2 + 1).toNat
    if 160 ≤ bit then (b.first, s)
    else (randomId b.first bit s.random, { s with random := fun n => s.random (n + (20 - bit / 8)) })

/-- `q->count == 0 || (random() & 7) == 0` -/
def emptyOrRarely (bs : Buckets) (q : ℕ) (s : Dht) : Bool × Dht :=
  if (bs[q]?.map Bucket.count).getD 0 = 0 then (true, s)
  else
    let (r, s) := s.draw
    (r % 8 = 0, s)

/-- The bucket that maintenance of the bucket at position `i` asks: itself or a neighbour. -/
def maintenanceBucket (bs : Buckets) (i : ℕ) (s : Dht) : ℕ × Dht :=
  let (q, s) :=
    if i + 1 < bs.length then
      let (other, s) := emptyOrRarely bs i s
      (if other then i + 1 else i, s)
    else (i, s)
  let (other, s) := emptyOrRarely bs q s
  if other then
    match previousBucket i with
    | none => (q, s)
    | some r => (if 0 < (bs[r]?.map Bucket.count).getD 0 then r else q, s)
  else (q, s)

/-- `send_find_node` to a node of a bucket, and `pinged`. -/
def sendFindNode (af : Family) (q j : ℕ) (target : DhtId) (want : ℤ) (s : Dht) : Dht :=
  match (nodesAt (s.table af) q)[j]? with
  | none => s
  | some n => (s.send ⟨n.ss, .findNode (makeTid "fn" 0) target want⟩).pingedAt af q j (some q)

/-- `neighbourhood_maintenance` -/
def neighbourhoodMaintenance (af : Family) (s : Dht) : Dht × Bool :=
  match findBucket s.myid (s.table af) with
  | none => (s, false)
  | some b =>
    let (r, s) := s.draw
    let id : DhtId := takeExactly 20 (s.myid.val.take 19 ++ [r.toUInt8])
    let (q, s) := s.maintenanceBucket (s.table af) b
    let want := if s.socket && s.socket6 then 3 else -1
    let (n, s) := s.randomNode (s.table af) q
    match n with
    | none => (s, true)
    | some j => (s.sendFindNode af q j id want, true)

/-- `want` of `bucket_maintenance`, by the bucket of the id in the table of the other family. -/
def maintenanceWant (af : Family) (id : DhtId) (s : Dht) : ℤ × Dht :=
  if s.socket && s.socket6 then
    let others := s.table (if af = .inet then .inet6 else .inet)
    let room := ((findBucket id others).bind fun i => others[i]?).any fun b => b.count < b.maxCount
    if room then (3, s)
    else
      let (r, s) := s.draw
      (if r % 37 = 0 then 3 else -1, s)
  else (-1, s)

/-- `bucket_maintenance` for `m` buckets from position `i` on. -/
def bucketMaintenanceLoop (af : Family) : ℕ → ℕ → Dht → Dht × Bool
  | 0, _, s => (s, false)
  | m + 1, i, s =>
    match (s.table af)[i]? with
    | none => (s, false)
    | some b =>
      if b.time < s.now - max (600 / (b.maxCount / 8)) 30 then
        let (id, s) := s.bucketRandom (s.table af) i
        let (q, s) := s.maintenanceBucket (s.table af) i
        let (n, s) := s.randomNode (s.table af) q
        match n with
        | none => bucketMaintenanceLoop af m (i + 1) s
        | some j =>
          let (want, s) := s.maintenanceWant af id
          (s.sendFindNode af q j id want, true)
      else bucketMaintenanceLoop af m (i + 1) s

/-- `bucket_maintenance` -/
def bucketMaintenance (af : Family) (s : Dht) : Dht × Bool :=
  bucketMaintenanceLoop af (s.table af).length 0 s

/-- The loop of `dht_periodic` over the searches. -/
def stepSearches (s : Dht) : Dht :=
  (List.range s.searches.length).foldl (fun s k =>
    if s.searches[k]?.any fun sr => !sr.done && sr.stepTime + 10 / 2 + 1 ≤ s.now then s.searchStep k else s) s

/-- An iteration of the loop that sets `search_time`. -/
def scheduleSearch (s : Dht) (sr : Search) : Dht :=
  if sr.done then s
  else
    let (r, s) := s.draw
    let tm := sr.stepTime + 10 + (r % 10 : ℕ)
    if s.searchTime = 0 ∨ tm < s.searchTime then { s with searchTime := tm } else s

/-- The secrets are rotated if it is time. -/
def rotateIfDue (s : Dht) : Dht := if s.rotateSecretsTime ≤ s.now then s.rotateSecrets else s

/-- What is old is given up if it is time. -/
def expireIfDue (s : Dht) : Dht :=
  if s.expireStuffTime ≤ s.now then
    let s := (s.expireBuckets .inet).expireBuckets .inet6
    { s with stored := expireStorage s.now s.stored }.expireSearches
  else s

/-- The searches make a step if it is time. -/
def searchIfDue (s : Dht) : Dht :=
  if 0 < s.searchTime ∧ s.searchTime ≤ s.now then
    let s := s.stepSearches
    s.searches.foldl scheduleSearch { s with searchTime := 0 }
  else s

/-- Which nodes `dht_periodic` asks, and whether it asks one. -/
def confirmNodes (s : Dht) : Dht × Bool :=
  let (s, soon) := s.bucketMaintenance .inet
  let (s, soon6) := s.bucketMaintenance .inet6
  if soon || soon6 then (s, true)
  else
    let (s, soon) := if s.now - 150 ≤ s.mybucketGrowTime then s.neighbourhoodMaintenance .inet else (s, false)
    let (s, soon6) := if s.now - 150 ≤ s.mybucket6GrowTime then s.neighbourhoodMaintenance .inet6 else (s, false)
    (s, soon || soon6)

/-- Nodes are asked if it is time. -/
def confirmIfDue (s : Dht) : Dht :=
  if s.confirmNodesTime ≤ s.now then
    let (s, soon) := s.confirmNodes
    let (r, s) := s.draw
    { s with
      confirmNodesTime := if soon then s.now + 5 + (r % 10 : ℕ) else s.now + 60 + (r % 120 : ℕ) }
  else s

/-- `dht_periodic` from `dontread` on, without `tosleep`. -/
def maintain (s : Dht) : Dht := s.rotateIfDue.expireIfDue.searchIfDue.confirmIfDue

/-- `*tosleep` -/
def tosleep (s : Dht) : Time :=
  let tosleep := if s.now < s.confirmNodesTime then s.confirmNodesTime - s.now else 0
  if 0 < s.searchTime then
    if s.searchTime ≤ s.now then 0
    else if s.searchTime - s.now < tosleep then s.searchTime - s.now
    else tosleep
  else tosleep

end Dht

/-! ## Calls -/

/-- A datagram, and the byte behind it. -/
structure DhtDatagram where
  bytes : Bytes
  terminator : UInt8
  sender : SockAddr

namespace Dht

/-- A message that can be read, from a sender that is listened to. -/
def understood (kind : MessageKind) (m : ParsedMessage) (sender : SockAddr) (s : Dht) : Dht :=
  if kind = .error ∨ m.id = .zeroes then s
  else if m.id = s.myid then s
  else if kind = .reply then s.reply m sender
  else
    match s.tokenBucket with
    | (s, false) => s
    | (s, true) => s.request kind m sender

/-- `dht_periodic` up to `dontread`, for a datagram that is terminated. -/
def receive (d : DhtDatagram) (s : Dht) : Dht :=
  if isMartian d.sender || s.nodeBlacklisted d.sender then s
  else
    match parseMessage (d.bytes ++ [d.terminator]) d.bytes.length with
    | .ok (some kind, m) => s.understood kind m d.sender
    | _ => s

/-- `dht_periodic` at some time; none is returned with -1. -/
def dhtPeriodic (clock : Time) (d : Option DhtDatagram) (s : Dht) : Dht × Option Time :=
  let s := { s with now := clock }
  match d with
  | none => (s.maintain, some s.maintain.tosleep)
  | some d =>
    if d.bytes ≠ [] ∧ !(isMartian d.sender || s.nodeBlacklisted d.sender) ∧ d.terminator ≠ 0 then (s, none)
    else
      let s := if d.bytes = [] then s else s.receive d
      (s.maintain, some s.maintain.tosleep)

/-- The state that `dht_init` sets, where its two `calloc`s succeed; `v` is the version. -/
def initialState (clock : Time) (sock sock6 : Bool) (id : DhtId) (v : Option { b : Bytes // b.length = 4 })
    (s : Dht) : Dht :=
  let (r, s) := s.draw
  let (r', s) := s.draw
  { Dht.rotateSecrets
      { s with
        now := clock
        secret := List.replicate 8 0 } with
    socket := sock
    socket6 := sock6
    searches := []
    numsearches := 0
    stored := .empty
    buckets := if sock then [.initial] else []
    buckets6 := if sock6 then [.initial] else []
    myid := id
    myV := v
    mybucketGrowTime := clock
    mybucket6GrowTime := clock
    confirmNodesTime := clock + (r % 3 : ℕ)
    searchId := r'.toUInt16
    searchTime := 0
    nextBlacklisted := firstBlacklisted
    tokenBucketTime := clock
    tokenBucketTokens := 400 }

/-- `dht_init` after the program has started, or after `dht_uninit`. -/
def dhtInit (clock : Time) (sock sock6 : Bool) (id : DhtId) (v : Option { b : Bytes // b.length = 4 })
    (s : Dht) : Dht × ℤ :=
  if s.socket || s.socket6 || s.buckets ≠ [] || s.buckets6 ≠ [] then (s, -1)
  else (((s.initialState clock sock sock6 id v).expireBuckets .inet).expireBuckets .inet6, 1)

/-- `dht_uninit` -/
def dhtUninit (s : Dht) : Dht × ℤ :=
  if !s.socket && !s.socket6 then (s, -1)
  else
    ({ s with
        socket := false
        socket6 := false
        buckets := []
        buckets6 := []
        stored := { s.stored with storage := [] }
        searches := [] }, 1)

/-- `dht_insert_node` -/
def dhtInsertNode (id : DhtId) (sa : SockAddr) (s : Dht) : Dht × ℤ :=
  let r := s.newNode id sa 0
  (r.1, if r.2 then 1 else 0)

/-- `dht_ping_node` -/
def dhtPingNode (sa : SockAddr) (s : Dht) : Dht := s.send (pingTo sa)

end Dht

end Orcashi
