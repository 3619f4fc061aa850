import Orcashi.Dht.Message
import Orcashi.PeerId

/-!
# The routing table

The nodes of one address family are kept in a list of buckets, ordered by the first id of each.  A bucket
that is full is split if it is the one of the node's own id.  A pointer to a bucket is its position.  What a
function sends is returned with the table.
-/

namespace Orcashi

/-! ## Addresses -/

/-- `AF_INET` and `AF_INET6`. -/
inductive Family where
  | inet
  | inet6
  deriving DecidableEq

/-- A `struct sockaddr_storage` of one of the two families; ports are in host order. -/
inductive SockAddr where
  | inet (ip : { b : Bytes // b.length = 4 }) (port : UInt16)
  | inet6 (ip : { b : Bytes // b.length = 16 }) (port : UInt16)
  deriving DecidableEq

namespace SockAddr

/-- The family of an address. -/
def family : SockAddr → Family
  | inet .. => .inet
  | inet6 .. => .inet6

/-- The bytes of an address, without its port. -/
def ip : SockAddr → Bytes
  | inet ip _ => ip.val
  | inet6 ip _ => ip.val

/-- The port of an address. -/
def port : SockAddr → UInt16
  | inet _ port => port
  | inet6 _ port => port

end SockAddr

/-- `v4prefix` -/
def v4prefix : Bytes := List.replicate 10 0 ++ [0xFF, 0xFF]

/-- `is_martian` -/
def isMartian : SockAddr → Bool
  | .inet ip port =>
    port == 0 || ip.val.getD 0 0 == 0 || ip.val.getD 0 0 == 127 || (ip.val.getD 0 0 &&& 0xE0) == 0xE0
  | .inet6 ip port =>
    port == 0 || ip.val.getD 0 0 == 0xFF || (ip.val.getD 0 0 == 0xFE && (ip.val.getD 1 0 &&& 0xC0) == 0x80) ||
      (ip.val.take 15 == List.replicate 15 0 && (ip.val.getD 15 0 == 0 || ip.val.getD 15 0 == 1)) ||
      ip.val.take 12 == v4prefix

/-- A call of one of the `send_*` functions. -/
structure Outgoing where
  dest : SockAddr
  message : DhtMessage
  deriving DecidableEq

/-! ## The code -/

/-- `struct node` -/
structure DhtPeer where
  id : DhtId
  ss : SockAddr
  time : Time
  replyTime : Time
  pingedTime : Time
  pinged : ℤ
  deriving DecidableEq

/-- `struct bucket`; its family is that of the table it is in. -/
structure Bucket where
  first : DhtId
  count : ℤ
  maxCount : ℤ
  time : Time
  nodes : List DhtPeer
  cached : Option SockAddr
  deriving DecidableEq

/-- The list of the buckets of a family. -/
abbrev Buckets := List Bucket

/-- The bucket of `dht_init`. -/
def Bucket.initial : Bucket where
  first := .zeroes
  count := 0
  maxCount := 128
  time := 0
  nodes := []
  cached := none

/-- `node_good` -/
def nodeGood (now : Time) (n : DhtPeer) : Bool :=
  n.pinged ≤ 2 && now - 7200 ≤ n.replyTime && now - 900 ≤ n.time

/-- `in_bucket` -/
def inBucket (id : DhtId) (bs : Buckets) (i : ℕ) : Bool :=
  match bs[i]? with
  | none => false
  | some b => idCmp b.first id != .gt && bs[i + 1]?.all fun next => idCmp id next.first == .lt

/-- The loop of `find_bucket`. -/
def findBucketLoop (id : DhtId) : Buckets → ℕ
  | _ :: next :: bs => if idCmp id next.first = .lt then 0 else findBucketLoop id (next :: bs) + 1
  | _ => 0

/-- `find_bucket` -/
def findBucket (id : DhtId) (bs : Buckets) : Option ℕ :=
  if bs = [] then none else some (findBucketLoop id bs)

/-- `previous_bucket` -/
def previousBucket (i : ℕ) : Option ℕ := if i = 0 then none else some (i - 1)

/-- The nodes of a bucket, or none behind the last one. -/
def nodesAt (bs : Buckets) (i : ℕ) : List DhtPeer := (bs[i]?.map Bucket.nodes).getD []

/-- `find_node`: the bucket and the position in its list. -/
def findNode (id : DhtId) (bs : Buckets) : Option (ℕ × ℕ) := do
  let i ← findBucket id bs
  let j ← (nodesAt bs i).findIdx? fun n => n.id = id
  return (i, j)

/-- The transaction ids of requests: two letters and a number. -/
def makeTid (start : String) (seqno : UInt16) : Bytes :=
  CMemory.ascii start ++ [(seqno.toNat % 256).toUInt8, (seqno.toNat / 256).toUInt8]

/-- `send_ping` with the transaction id of every ping. -/
def pingTo (sa : SockAddr) : Outgoing := ⟨sa, .ping (makeTid "pn" 0)⟩

/-- `send_cached_ping` -/
def sendCachedPing (b : Bucket) : Bucket × List Outgoing :=
  match b.cached with
  | none => (b, [])
  | some sa => ({ b with cached := none }, [pingTo sa])

/-- `send_cached_ping` for the bucket at `i`. -/
def sendCachedPingAt (i : ℕ) (bs : Buckets) : Buckets × List Outgoing :=
  (bs.modify i fun b => (sendCachedPing b).1, (bs[i]?.map fun b => (sendCachedPing b).2).getD [])

/-- A change of the node at `j` in the bucket at `i`. -/
def modifyNode (i j : ℕ) (f : DhtPeer → DhtPeer) (bs : Buckets) : Buckets :=
  bs.modify i fun b => { b with nodes := b.nodes.modify j f }

/-- `pinged` for the node at `j` in the bucket at `i`; `b` is the second argument. -/
def pinged (now : Time) (i j : ℕ) (b : Option ℕ) (bs : Buckets) : Buckets × List Outgoing :=
  match (nodesAt bs i)[j]? with
  | none => (bs, [])
  | some n =>
    let bs := modifyNode i j (fun n => { n with pinged := n.pinged + 1, pingedTime := now }) bs
    if 3 ≤ n.pinged + 1 then
      match b.orElse fun _ => findBucket n.id bs with
      | none => (bs, [])
      | some k => sendCachedPingAt k bs
    else (bs, [])

/-- `bucket_middle` -/
def bucketMiddle (bs : Buckets) (i : ℕ) : Option DhtId :=
  match bs[i]? with
  | none => none
  | some b =>
    let bit1 := lowbit b.first
    let bit2 := (bs[i + 1]?.map fun next => lowbit next.first).getD (-1)
    let bit := (max bit1 bit2 + 1).toNat
    if 160 ≤ bit then none
    else some (setBit b.first bit)

/-! ### Insertion and splits -/

/-- What becomes of a node in `insert_node`: there is no bucket for it, the one at `i` is full, or it is in. -/
inductive Insertion where
  | failed
  | full (i : ℕ)
  | inserted (bs : Buckets)

/-- A node at the front of a bucket. -/
def Bucket.push (n : DhtPeer) (b : Bucket) : Bucket :=
  { b with nodes := n :: b.nodes, count := b.count + 1 }

/-- `insert_node` -/
def insertNode (n : DhtPeer) (bs : Buckets) : Insertion :=
  match findBucket n.id bs with
  | none => .failed
  | some i =>
    match bs[i]? with
    | none => .failed
    | some b => if b.maxCount ≤ b.count then .full i else .inserted (bs.modify i (Bucket.push n))

/-- What a split leaves of a bucket. -/
def lowHalf (b : Bucket) : Bucket := { (sendCachedPing b).1 with nodes := [], count := 0 }

/-- The new bucket behind it. -/
def highHalf (b : Bucket) (newId : DhtId) : Bucket where
  first := newId
  count := 0
  maxCount := 0
  time := b.time
  nodes := []
  cached := none

/-- The maximum of the bucket at `i` is set. -/
def setMax (i : ℕ) (max : ℤ) (bs : Buckets) : Buckets := bs.modify i fun b => { b with maxCount := max }

/-- `split_bucket_helper`, where it returns 1: the nodes that were in the bucket are returned.  `calloc` says
whether there is memory for the new bucket. -/
def splitBucketHelper (calloc : Bool) (myid : DhtId) (i : ℕ) (bs : Buckets) :
    Option (Buckets × List DhtPeer × List Outgoing) :=
  if !inBucket myid bs i then none
  else
    match bs[i]?, bucketMiddle bs i with
    | some b, some newId =>
      if !calloc then none
      else
        let bs := bs.take i ++ lowHalf b :: highHalf b newId :: bs.drop (i + 1)
        let bs :=
          if inBucket myid bs i then setMax i (max (b.maxCount / 2) 8) (setMax (i + 1) b.maxCount bs)
          else setMax (i + 1) (max (b.maxCount / 2) 8) bs
        some (bs, b.nodes, (sendCachedPing b).2)
    | _, _ => none

/-- The loop of `split_bucket` over the nodes to insert, the first of which is `n`.  The result says which
are left after so many iterations.  `calloc` is asked at the number of iterations that may still follow. -/
def splitLoop (calloc : ℕ → Bool) (myid : DhtId) :
    ℕ → List DhtPeer → Buckets → Buckets × List Outgoing × List DhtPeer
  | _, [], bs => (bs, [], [])
  | 0, nodes, bs => (bs, [], nodes)
  | fuel + 1, n :: nodes, bs =>
    match insertNode n bs with
    | .failed => splitLoop calloc myid fuel nodes bs
    | .inserted bs => splitLoop calloc myid fuel nodes bs
    | .full i =>
      if !inBucket myid bs i then splitLoop calloc myid fuel nodes bs
      else
        match splitBucketHelper (calloc fuel) myid i bs with
        | none => splitLoop calloc myid fuel nodes bs
        | some (bs, insert, out) =>
          let r := splitLoop calloc myid fuel (n :: (nodes ++ insert)) bs
          (r.1, out ++ r.2.1, r.2.2)

/-- Iterations that are enough for a loop that starts with `n` nodes. -/
def splitFuel (n : ℕ) : ℕ := 161 * (n + 1)

/-- `split_bucket`, where it returns 1.  `calloc` is asked at 0 for the first bucket, and then by the
loop. -/
def splitBucket (calloc : ℕ → Bool) (myid : DhtId) (i : ℕ) (bs : Buckets) :
    Option (Buckets × List Outgoing) :=
  (splitBucketHelper (calloc 0) myid i bs).map fun (bs, nodes, out) =>
    let r := splitLoop (fun k => calloc (k + 1)) myid (splitFuel nodes.length) nodes bs
    (r.1, out ++ r.2.1)

/-! ### New nodes

Here and in what calls it every `calloc` succeeds. -/

/-- What `new_node` does beside the table: `found` says whether a node is returned, `grew` whether the time
at which the own bucket grew is set, `search` whether `add_search_node` is called. -/
structure NewNode where
  buckets : Buckets
  out : List Outgoing
  found : Bool
  grew : Bool
  search : Bool

/-- A node that is known is heard of again: in a message if `confirm` is 1, in an answer if it is 2. -/
def heardAgain (now : Time) (sa : SockAddr) (confirm : ℕ) (n : DhtPeer) : DhtPeer :=
  if confirm ≠ 0 ∨ n.time < now - 15 * 60 then
    { n with
      ss := sa
      time := if confirm ≠ 0 then now else n.time
      replyTime := if 2 ≤ confirm then now else n.replyTime
      pinged := if 2 ≤ confirm then 0 else n.pinged
      pingedTime := if 2 ≤ confirm then 0 else n.pingedTime }
  else n

/-- The record of a node that was not known. -/
def newPeer (now : Time) (id : DhtId) (sa : SockAddr) (confirm : ℕ) : DhtPeer where
  id := id
  ss := sa
  time := if confirm ≠ 0 then now else 0
  replyTime := if 2 ≤ confirm then now else 0
  pingedTime := 0
  pinged := 0

/-- The node a new one may take the place of. -/
def expendable (now : Time) (n : DhtPeer) : Bool := 3 ≤ n.pinged && n.pingedTime < now - 15

/-- The first dubious node that was not pinged lately is. -/
def pingDubious (now : Time) (i : ℕ) (bs : Buckets) : Buckets × List Outgoing :=
  let dubious (n : DhtPeer) : Bool := !nodeGood now n && n.pingedTime < now - 15
  match (nodesAt bs i).findIdx? dubious with
  | none => (bs, [])
  | some j =>
    (modifyNode i j (fun n => { n with pinged := n.pinged + 1, pingedTime := now }) bs,
      ((nodesAt bs i)[j]?.map fun n => pingTo n.ss).toList)

/-- The cached address of the bucket at `i` is set. -/
def setCached (i : ℕ) (sa : SockAddr) (bs : Buckets) : Buckets :=
  bs.modify i fun b => { b with cached := some sa }

/-- `b->time = now.tv_sec`, for an answer. -/
def touch (now : Time) (confirm i : ℕ) (bs : Buckets) : Buckets :=
  if confirm = 2 then bs.modify i fun b => { b with time := now } else bs

/-- `new_node` for a new node and a bucket that is full, where the bucket is not split. -/
def newNodeFull (now : Time) (sa : SockAddr) (confirm i : ℕ) (b : Bucket) (mybucket : Bool) (bs : Buckets) :
    NewNode :=
  let pings := pingDubious now i bs
  if confirm ≠ 0 ∨ b.cached = none then ⟨setCached i sa pings.1, pings.2, false, mybucket, confirm == 2⟩
  else ⟨pings.1, pings.2, false, mybucket, confirm == 2⟩

/-- `new_node` from `again` on, for an address that is neither martian nor blacklisted; with true where a
bucket was split and it starts again. -/
def newNodeRound (myid : DhtId) (now : Time) (id : DhtId) (sa : SockAddr) (confirm : ℕ) (bs : Buckets) :
    NewNode × Bool :=
  match findBucket id bs with
  | none => (⟨bs, [], false, false, false⟩, false)
  | some i =>
    if id = myid then (⟨bs, [], false, false, false⟩, false)
    else
      let mybucket := inBucket myid bs i
      let search := confirm == 2
      let bs := touch now confirm i bs
      match bs[i]? with
      | none => (⟨bs, [], false, false, false⟩, false)
      | some b =>
        match b.nodes.findIdx? fun n => n.id = id with
        | some j => (⟨modifyNode i j (heardAgain now sa confirm) bs, [], true, false, search⟩, false)
        | none =>
          match b.nodes.findIdx? (expendable now) with
          | some j =>
            (⟨modifyNode i j (fun _ => newPeer now id sa confirm) bs, [], true, mybucket, search⟩, false)
          | none =>
            if b.maxCount ≤ b.count then
              if mybucket && b.nodes.all (nodeGood now) then
                match splitBucket (fun _ => true) myid i bs with
                | none => (⟨bs, [], false, true, false⟩, false)
                | some (bs, out) => (⟨bs, out, false, true, false⟩, true)
              else (newNodeFull now sa confirm i b mybucket bs, false)
            else
              (⟨bs.modify i (Bucket.push (newPeer now id sa confirm)), [], true, mybucket, search⟩, false)

/-- The rounds of `new_node`, one after each split. -/
def newNodeLoop (myid : DhtId) (now : Time) (id : DhtId) (sa : SockAddr) (confirm : ℕ) :
    ℕ → Buckets → NewNode
  | 0, bs => ⟨bs, [], false, false, false⟩
  | fuel + 1, bs =>
    let (r, again) := newNodeRound myid now id sa confirm bs
    if again then
      let r' := newNodeLoop myid now id sa confirm fuel r.buckets
      ⟨r'.buckets, r.out ++ r'.out, r'.found, true, r'.search⟩
    else r

/-- `new_node` on the table, for an address that is neither martian nor blacklisted: the own bucket is split
at most once for every bit of an id. -/
def newNodeIn (myid : DhtId) (now : Time) (id : DhtId) (sa : SockAddr) (confirm : ℕ) (bs : Buckets) :
    NewNode :=
  newNodeLoop myid now id sa confirm 161 bs

/-- What `expire_buckets` does to a bucket. -/
def expireBucket (b : Bucket) : Bucket × List Outgoing :=
  let nodes := b.nodes.filter fun n => n.pinged < 4
  if nodes.length < b.nodes.length then
    sendCachedPing { b with nodes := nodes, count := b.count - (b.nodes.length - nodes.length : ℕ) }
  else (b, [])

/-- `expire_buckets` -/
def expireBuckets (bs : Buckets) : Buckets × List Outgoing :=
  (bs.map fun b => (expireBucket b).1, bs.flatMap fun b => (expireBucket b).2)

end Orcashi
