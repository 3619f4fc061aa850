import Orcashi.Env
import Orcashi.Relay.Manager

/-!
# The DHT node

A node announces an id, and looks one up.  Both start a search in the DHT, and for every search the node has
started, results come as events to one callback.  This takes the first peer of a result and stores it in the
one slot the node has, if nothing is stored there since a lookup cleared it.
-/

namespace Orcashi

open CMemory

/-! ## Searches and their results -/

/-- One byte more, in the loop of `dht_hash`. -/
def fnvHash (h : UInt64) (c : UInt8) : UInt64 :=
  let h := (h ^^^ c.toUInt64) * 0x01000193
  h ^^^ h >>> 32

/-- `dht_hash(dht_id, 20, id, strlen(id), NULL, 0, NULL, 0)`.  The machine takes the distance of a shift
modulo 64. -/
def dhtHash (id : CString) : Bytes :=
  let h := id.foldl fnvHash 0x811c9dc5c8f5e5dd
  (List.range 20).map fun i => (h >>> (i * 8).toUInt64).toUInt8

/-- A call of `dht_search` with a callback. -/
structure DhtSearch where
  infoHash : Bytes
  port : ℤ
  deriving DecidableEq

/-- `DHT_EVENT_NONE` and the other events. -/
inductive DhtEventKind where
  | none
  | values
  | values6
  | searchDone
  | searchDone6
  deriving DecidableEq

/-- What the callback is called with. -/
structure DhtEvent where
  kind : DhtEventKind
  infoHash : Bytes
  data : Bytes
  deriving DecidableEq

/-- The first peer of IPv4 data: its address and its port. -/
def firstPeer : Bytes → Option (IpText × ℤ)
  | a :: b :: c :: d :: high :: low :: _ =>
    some (⟨inetNtop (a, b, c, d), length_inetNtop_lt _⟩, (256 * high.toNat + low.toNat : ℕ))
  | _ => none

/-! ## The node -/

/-- What is announced and looked up; the socket and the thread are left out. -/
structure DhtNode where
  myOrcashiId : IdText
  myPort : ℤ
  announced : Bool
  secureMode : Bool
  publicKey : CString
  signature : CString
  lookupId : IdText
  lookupIp : IpText
  lookupPort : ℤ
  lookupDone : Bool
  lookupSecure : Bool
  lookupStart : Time
  lookupTimeout : ℤ

/-- `dht_node_create` -/
def DhtNode.create : DhtNode where
  myOrcashiId := .empty
  myPort := 0
  announced := false
  secureMode := false
  publicKey := []
  signature := []
  lookupId := .empty
  lookupIp := .empty
  lookupPort := 0
  lookupDone := false
  lookupSecure := false
  lookupStart := 0
  lookupTimeout := 20

/-- `dht_node_callback`: the hash is not looked at, and the data is read as that of IPv4 peers. -/
def dhtNodeCallback (e : DhtEvent) (node : DhtNode) : DhtNode :=
  if e.kind = .values ∨ e.kind = .values6 then
    match firstPeer e.data with
    | none => node
    | some (ip, port) =>
      if !node.lookupDone then { node with lookupIp := ip, lookupPort := port, lookupDone := true }
      else node
  else node

/-- `ret` is what `dht_search` returns. -/
def dhtNodeAnnounce (ret : ℤ) (id : IdText) (port : ℤ) (node : DhtNode) : ℤ × DhtNode × Option DhtSearch :=
  (ret, { node with myOrcashiId := id, myPort := port, announced := true, secureMode := false },
    some ⟨dhtHash id.val, port⟩)

/-- `snprintf(data_to_verify, 512, "%s:%d:%s", id, port, public_key)` -/
def announceText (id : CString) (port : ℤ) (publicKey : CString) : CString :=
  cut 512 (id ++ 58 :: (decimal port ++ 58 :: publicKey))

/-- The key and the signature are from arrays of the sizes of those they are copied to. -/
def dhtNodeAnnounceSecure (crypto : Crypto) (ret : ℤ) (id : IdText) (port : ℤ)
    (publicKey signature : CString) (node : DhtNode) : ℤ × DhtNode × Option DhtSearch :=
  if !crypto.rsaVerifyString (announceText id.val port publicKey) signature publicKey then
    (-1, node, none)
  else
    (ret, { node with
        myOrcashiId := id
        myPort := port
        announced := true
        secureMode := true
        publicKey := publicKey
        signature := signature },
      some ⟨dhtHash id.val, port⟩)

/-- `dht_node_lookup` up to its search. -/
def dhtNodeLookupStart (now : Time) (id : IdText) (timeoutSec : ℤ) (node : DhtNode) :
    DhtNode × DhtSearch :=
  ({ node with
      lookupId := id
      lookupDone := false
      lookupSecure := false
      lookupStart := now
      lookupTimeout := timeoutSec },
    ⟨dhtHash id.val, 0⟩)

/-- One turn of the loop of `dht_node_lookup`: the address and the port, where it returns 1. -/
def dhtNodeLookupPoll (node : DhtNode) : Option (IpText × ℤ) :=
  if node.lookupDone then some (node.lookupIp, node.lookupPort) else none

end Orcashi
