import Mathlib.Logic.Function.Basic
import Orcashi.Lib.Stun
import Orcashi.Relay.Manager

/-!
# The TURN manager

Sessions with peers behind a TURN server: an array of 16 slots, of which the first `count` are sessions,
and requests to the servers as STUN messages.  One UDP socket serves all sessions.  A message is built
in an array on the stack that holds anything before, and a response is read in such an array.  A
function whose result is an `Option` has none where it would access memory outside an array.
-/

namespace Orcashi

open CMemory Stun

/-! ## Sessions -/

/-- `TURN_MAX_SESSIONS`. -/
def turnMaxSessions : ℕ := 16

/-- A pointer into the array of sessions. -/
abbrev TurnSlot := Fin turnMaxSessions

/-- A string in a `char[64]`. -/
def TurnText := { s : CString // s.length < 64 ∧ 0 ∉ s }

/-- `TURNState` -/
inductive TurnState where
  | idle
  | connecting
  | allocating
  | established
  | closed
  | error
  deriving DecidableEq

/-- `TURNServerConfig` -/
structure TurnServerConfig where
  serverHost : CString
  serverIp : IpText
  port : ℤ
  username : TurnText
  useAuth : Bool
  lifetime : UInt32

/-- `TURNSession` -/
structure TurnSession where
  peerId : IdText
  relayIp : IpText
  relayPort : ℤ
  state : TurnState
  socketFd : ℤ
  lastActivity : Time
  createdAt : Time
  allocationExpires : Time
  server : TurnServerConfig
  ip : IpText
  port : ℤ

/-- `TURNManager` -/
structure TurnManager where
  sessions : TurnSlot → TurnSession
  count : ℕ
  bounded : count ≤ turnMaxSessions
  servers : List TurnServerConfig
  udpSocket : ℤ

/-- A server after `memset`. -/
def TurnServerConfig.zero : TurnServerConfig where
  serverHost := []
  serverIp := .empty
  port := 0
  username := ⟨[], by decide⟩
  useAuth := false
  lifetime := 0

/-- A session after `memset`. -/
def TurnSession.zero : TurnSession where
  peerId := .empty
  relayIp := .empty
  relayPort := 0
  state := .idle
  socketFd := 0
  lastActivity := 0
  createdAt := 0
  allocationExpires := 0
  server := .zero
  ip := .empty
  port := 0

/-- A manager after `turn_manager_init`, with the servers that were added. -/
def TurnManager.init (servers : List TurnServerConfig) (udpSocket : ℤ) : TurnManager where
  sessions _ := .zero
  count := 0
  bounded := Nat.zero_le _
  servers := servers
  udpSocket := udpSocket

/-- Write through a pointer into the array. -/
def TurnManager.write (mgr : TurnManager) (slot : TurnSlot) (s : TurnSession) : TurnManager :=
  { mgr with sessions := Function.update mgr.sessions slot s }

/-- What TURN asks of its surroundings beside what the node asks. -/
structure TurnEnv extends Env where
  /-- the 12 bytes `orca_random_bytes` leaves in `transaction_id` -/
  transactionId : { b : Bytes // b.length = 12 }
  /-- an array on the stack before it is written -/
  stack : (size : ℕ) → { b : Bytes // b.length = size }
  /-- `ip_addr` in `turn_send` before it is written -/
  ipAddr : UInt32

/-! ## The table -/

/-- `turn_find_session` -/
def turnFindSession (peerId : CString) (mgr : TurnManager) : Option TurnSlot :=
  (List.finRange turnMaxSessions).find? fun i =>
    i.val < mgr.count && (mgr.sessions i).peerId.val == peerId

/-- The entry `turn_add_session` fills in. -/
def TurnSession.fresh (env : TurnEnv) (peerId : IdText) : TurnSession :=
  { TurnSession.zero with
    peerId := peerId
    state := .idle
    socketFd := -1
    createdAt := env.now
    lastActivity := env.now }

/-- The new session and the manager with it; some none where the array is full. -/
def turnAddSession (env : TurnEnv) (peerId : CString) (mgr : TurnManager) :
    Option (Option (TurnSlot × TurnManager)) :=
  if room : mgr.count < turnMaxSessions then
    (IdText.copy peerId).map fun id =>
      some (⟨mgr.count, room⟩,
        { mgr.write ⟨mgr.count, room⟩ (.fresh env id) with count := mgr.count + 1, bounded := room })
  else some none

/-! ## Messages -/

/-- `TURN_MSG_ALLOCATE_REQUEST` -/
def turnMsgAllocateRequest : UInt16 := 0x0003

/-- `TURN_MSG_ALLOCATE_RESPONSE` -/
def turnMsgAllocateResponse : UInt16 := 0x0103

/-- `TURN_MSG_ALLOCATE_ERROR` -/
def turnMsgAllocateError : UInt16 := 0x0113

/-- `TURN_MSG_REFRESH_REQUEST` -/
def turnMsgRefreshRequest : UInt16 := 0x0004

/-- `TURN_MSG_SEND_INDICATION` -/
def turnMsgSendIndication : UInt16 := 0x0016

/-- `TURN_ATTR_USERNAME` -/
def turnAttrUsername : UInt16 := 0x0006

/-- `TURN_ATTR_ERROR_CODE` -/
def turnAttrErrorCode : UInt16 := 0x0009

/-- `TURN_ATTR_LIFETIME` -/
def turnAttrLifetime : UInt16 := 0x000D

/-- `TURN_ATTR_XOR_PEER_ADDRESS` -/
def turnAttrXorPeerAddress : UInt16 := 0x0012

/-- `TURN_ATTR_DATA` -/
def turnAttrData : UInt16 := 0x0013

/-- `TURN_ATTR_XOR_RELAYED_ADDRESS` -/
def turnAttrXorRelayedAddress : UInt16 := 0x0016

/-- `TURN_ATTR_REQUESTED_TRANSPORT` -/
def turnAttrRequestedTransport : UInt16 := 0x0019

/-- `TURN_STUN_HEADER_SIZE`, and `offsetof(TURNMessage, attributes)`. -/
def turnStunHeaderSize : ℕ := 20

/-- `sizeof(TURNAttribute)`. -/
def turnAttributeSize : ℕ := 4

/-- The fields of a header, with the length still zero. -/
def turnStartMessage (env : TurnEnv) (type : UInt16) (buffer : Bytes) : Option Bytes :=
  memcpy buffer 0 (Stun.header type 0 magicCookie env.transactionId.val)

/-- The length is set, and the message is what lies at the front of the array. -/
def turnFinishMessage (msgLen : ℕ) (buffer : Bytes) : Option Bytes := do
  let buffer ← memcpy buffer 2 (be16 msgLen.toUInt16)
  if turnStunHeaderSize + msgLen ≤ buffer.length then some (buffer.take (turnStunHeaderSize + msgLen))
  else none

/-- REQUESTED-TRANSPORT: UDP. -/
def turnRequestedTransport : Attr := ⟨turnAttrRequestedTransport, [17, 0, 0, 0]⟩

/-- LIFETIME: that of the server. -/
def TurnSession.lifetimeAttr (s : TurnSession) : Attr := ⟨turnAttrLifetime, be32 s.server.lifetime⟩

/-- USERNAME: that of the server. -/
def TurnSession.usernameAttr (s : TurnSession) : Attr := ⟨turnAttrUsername, s.server.username.val⟩

/-- Whether the request names a user. -/
def TurnSession.namesUser (s : TurnSession) : Bool :=
  s.server.useAuth && s.server.username.val != []

/-- `pos` is behind the header for the first attribute.  For the others it is counted from the start of
the message. -/
def turnBuildAllocateRequest (env : TurnEnv) (s : TurnSession) : Option Bytes := do
  let buffer ← turnStartMessage env turnMsgAllocateRequest (env.stack 512).val
  let buffer ← memcpy buffer turnStunHeaderSize turnRequestedTransport.bytes
  let posOffset := turnAttributeSize + 4
  let buffer ← memcpy buffer posOffset s.lifetimeAttr.bytes
  let posOffset := posOffset + (turnAttributeSize + 4)
  if s.namesUser then
    let buffer ← memcpy buffer posOffset s.usernameAttr.bytes
    turnFinishMessage (posOffset + (turnAttributeSize + s.server.username.val.length)) buffer
  else turnFinishMessage posOffset buffer

/-- The request of `turn_refresh_allocation`. -/
def turnRefreshRequest (env : TurnEnv) (s : TurnSession) : Option Bytes := do
  let buffer ← turnStartMessage env turnMsgRefreshRequest (env.stack 128).val
  let buffer ← memcpy buffer turnStunHeaderSize s.lifetimeAttr.bytes
  turnFinishMessage (turnAttributeSize + 4) buffer

/-- `htons` on a little-endian machine. -/
def htons (x : UInt16) : UInt16 := x <<< 8 ||| x >>> 8

/-- `ip_addr` in `turn_send`: the bytes of the address as they lie in memory. -/
def turnPeerIp (env : TurnEnv) (s : TurnSession) : UInt32 :=
  match inetPton s.ip.val with
  | some (a, b, c, d) => readLe32 [a, b, c, d] 0
  | none => env.ipAddr

/-- XOR-PEER-ADDRESS as `turn_send` computes it. -/
def turnXorPeerAddress (env : TurnEnv) (s : TurnSession) : Attr where
  type := turnAttrXorPeerAddress
  value :=
    let xorPort := htons (UInt16.ofInt s.port) ^^^ (magicCookie >>> 16).toUInt16
    let xorIp := turnPeerIp env s ^^^ magicCookie
    [0, 1] ++ le16 xorPort ++ le32 xorIp

/-- The indication of `turn_send`.  `pos` is counted from the start of the message for DATA. -/
def turnSendIndication (env : TurnEnv) (s : TurnSession) (data : Bytes) : Option Bytes := do
  let buffer ← turnStartMessage env turnMsgSendIndication (env.stack 2048).val
  let buffer ← memcpy buffer turnStunHeaderSize (turnXorPeerAddress env s).bytes
  let posOffset := turnAttributeSize + 8
  let buffer ← memcpy buffer posOffset (Attr.bytes ⟨turnAttrData, data⟩)
  turnFinishMessage (posOffset + (turnAttributeSize + data.length)) buffer

/-! ## Responses -/

/-- Where a loop over the attributes of a message meets one. -/
structure TurnAttr where
  offset : ℕ
  type : UInt16
  length : UInt16
  deriving DecidableEq

/-- The attributes a loop meets from `offset` on, up to the first at which it returns.  `attrLen` is a
`size_t` and wraps. -/
def turnAttrs (returns : UInt16 → Bool) (mem : Bytes) (offset attrLen : ℕ) : Option (List TurnAttr) :=
  if attrLen < 4 then some []
  else if mem.length < offset + turnAttributeSize then none
  else
    let attr : TurnAttr := ⟨offset, readBe16 mem offset, readBe16 mem (offset + 2)⟩
    if returns attr.type then some [attr]
    else
      let attrSize := turnAttributeSize + attr.length.toNat
      (turnAttrs returns mem (offset + attrSize) ((attrLen + 2 ^ 64 - attrSize) % 2 ^ 64)).map (attr :: ·)
termination_by mem.length - offset
decreasing_by
  simp only [turnAttributeSize] at *
  omega

/-- The bytes of an address in memory. -/
def addrBytes (x : UInt32) : UInt8 × UInt8 × UInt8 × UInt8 :=
  ((x.toNat % 256).toUInt8, (x.toNat / 256 % 256).toUInt8, (x.toNat / 65536 % 256).toUInt8,
    (x.toNat / 16777216).toUInt8)

/-- The text of an address in memory. -/
def addrText (x : UInt32) : IpText := ⟨inetNtop (addrBytes x), length_inetNtop_lt _⟩

/-- The relay address that `turn_parse_allocate_response` reads from a value. -/
def turnReadAddress (mem : Bytes) (value : ℕ) : IpText × ℤ :=
  (addrText (readLe32 mem (value + 4) ^^^ magicCookie), (readBe16 mem (value + 2)).toNat)

/-- The relay address of an attribute, if it has one. -/
def turnAttrAddress (mem : Bytes) (attr : TurnAttr) : Option (Option (IpText × ℤ)) :=
  let value := attr.offset + turnAttributeSize
  if attr.type = turnAttrXorRelayedAddress ∧ 8 ≤ attr.length.toNat then
    if mem.length < value + 2 then none
    else if mem.getD (value + 1) 0 = 1 then
      if mem.length < value + 8 then none else some (some (turnReadAddress mem value))
    else some none
  else some none

/-- The lifetime of an attribute, if it has one. -/
def turnAttrSeconds (mem : Bytes) (attr : TurnAttr) : Option (Option UInt32) :=
  let value := attr.offset + turnAttributeSize
  if attr.type = turnAttrLifetime ∧ 4 ≤ attr.length.toNat then
    if mem.length < value + 4 then none else some (some (readBe32 mem value))
  else some none

/-- What the loop of `turn_parse_allocate_response` does with an attribute. -/
def turnTakeAttr (env : TurnEnv) (mem : Bytes) (s : TurnSession) (attr : TurnAttr) :
    Option TurnSession := do
  let address ← turnAttrAddress mem attr
  let seconds ← turnAttrSeconds mem attr
  let s := match address with
    | some (ip, port) => { s with relayIp := ip, relayPort := port }
    | none => s
  return match seconds with
    | some lifetime => { s with allocationExpires := env.now + lifetime.toNat }
    | none => s

/-- Whether the code and the reason of an error lie within the array. -/
def turnErrorReadable (mem : Bytes) (attr : TurnAttr) : Bool :=
  let value := attr.offset + turnAttributeSize
  if attr.type = turnAttrErrorCode ∧ 4 ≤ attr.length.toNat then
    value + 4 ≤ mem.length && (attr.length.toNat ≤ 4 || scan 0 mem (value + 4) < mem.length)
  else true

/-- The `n` bytes at the front of `mem` are the datagram. -/
def turnParseAllocateResponse (env : TurnEnv) (mem : Bytes) (n : ℕ) (s : TurnSession) :
    Option (ℤ × TurnSession) :=
  let msgType := readBe16 mem 0
  let msgLen := (readBe16 mem 2).toNat
  if n < turnStunHeaderSize ∨ readBe32 mem 4 ≠ magicCookie then some (-1, s)
  else if msgType = turnMsgAllocateResponse then do
    let attrs ← turnAttrs (fun _ => false) mem turnStunHeaderSize msgLen
    let s ← attrs.foldlM (turnTakeAttr env mem) s
    if s.relayIp.val ≠ [] ∧ 0 < s.relayPort then
      return (0, { s with state := .established, lastActivity := env.now })
    else return (-1, s)
  else if msgType = turnMsgAllocateError then do
    let attrs ← turnAttrs (fun _ => false) mem turnStunHeaderSize msgLen
    if attrs.all (turnErrorReadable mem) then return (-1, s) else none
  else some (-1, s)

/-! ## Calls -/

/-- What `turn_connect` has come to when it leaves the lock for the first time: it returns, or goes on to
`turn_allocate` with a pointer to the session. -/
inductive TurnDial where
  | returned (ret : ℤ) (mgr : TurnManager)
  | allocating (slot : TurnSlot) (mgr : TurnManager)

/-- `turn_connect` with the session it found or added. -/
def turnStartDial (serverHost : CString) (slot : TurnSlot) (mgr : TurnManager) : TurnDial :=
  let s := mgr.sessions slot
  if s.state = .established then .returned 0 mgr
  else
    match mgr.servers.find? fun server => server.serverHost == serverHost with
    | none => .returned (-1) mgr
    | some server => .allocating slot (mgr.write slot { s with server := server, state := .connecting })

/-- `turn_connect` up to where it waits for an answer. -/
def turnConnect (env : TurnEnv) (peerId serverHost : CString) (mgr : TurnManager) : Option TurnDial :=
  match turnFindSession peerId mgr with
  | some slot => some (turnStartDial serverHost slot mgr)
  | none =>
    (turnAddSession env peerId mgr).map fun
      | none => .returned (-1) mgr
      | some (slot, mgr) => turnStartDial serverHost slot mgr

/-- The rest of `turn_connect`, with what `turn_allocate` returned. -/
def turnConnectEnd (env : TurnEnv) (slot : TurnSlot) (ret : ℤ) (mgr : TurnManager) : TurnManager :=
  if ret < 0 then mgr.write slot { mgr.sessions slot with state := .error }
  else mgr.write slot { mgr.sessions slot with state := .established, lastActivity := env.now }

/-- `turn_allocate` up to the end of its lock: some none where it returns -1, else the pointer to the
session and the request that left. -/
def turnAllocateSend (env : TurnEnv) (peerId : CString) (mgr : TurnManager) :
    Option (Option (TurnSlot × Bytes)) :=
  match turnFindSession peerId mgr with
  | none => some none
  | some slot => do
    let server := (mgr.sessions slot).server
    let request ← turnBuildAllocateRequest env (mgr.sessions slot)
    if env.sendto mgr.udpSocket request (.make server.serverIp.val server.port) then
      return some (slot, request)
    else return none

/-- `response` in `turn_allocate` after `recvfrom`. -/
def turnResponseBuffer (env : TurnEnv) (datagram : Bytes) : Bytes :=
  datagram.take 512 ++ (env.stack 512).val.drop datagram.length

/-- The rest of `turn_allocate`: `received` is what `recvfrom` read, if something came in time. -/
def turnAllocateReceive (env : TurnEnv) (slot : TurnSlot) (received : Option Bytes)
    (mgr : TurnManager) : Option (ℤ × TurnManager) :=
  match received with
  | none => some (-1, mgr)
  | some datagram =>
    if datagram = [] then some (-1, mgr)
    else
      (turnParseAllocateResponse env (turnResponseBuffer env datagram) (min 512 datagram.length)
        (mgr.sessions slot)).map fun r => (r.1, mgr.write slot r.2)

/-- What a function that sends returns, what it leaves and what it gave to `sendto`. -/
structure TurnSent where
  ret : ℤ
  mgr : TurnManager
  datagram : Option Bytes

/-- `turn_refresh_allocation` -/
def turnRefreshAllocation (env : TurnEnv) (peerId : CString) (mgr : TurnManager) : Option TurnSent :=
  match turnFindSession peerId mgr with
  | none => some ⟨-1, mgr, none⟩
  | some slot =>
    let s := mgr.sessions slot
    if s.state ≠ .established then some ⟨-1, mgr, none⟩
    else
      (turnRefreshRequest env s).map fun request =>
        ⟨if env.sendto mgr.udpSocket request (.make s.server.serverIp.val s.server.port) then 0 else -1,
          mgr, some request⟩

/-- `turn_send` -/
def turnSend (env : TurnEnv) (peerId : CString) (data : Bytes) (mgr : TurnManager) :
    Option TurnSent :=
  if data = [] then some ⟨-1, mgr, none⟩
  else
    match turnFindSession peerId mgr with
    | none => some ⟨-1, mgr, none⟩
    | some slot =>
      let s := mgr.sessions slot
      if s.state ≠ .established then some ⟨-1, mgr, none⟩
      else if s.relayIp.val = [] ∨ s.relayPort = 0 then some ⟨-1, mgr, none⟩
      else
        (turnSendIndication env s data).map fun datagram =>
          if env.sendto mgr.udpSocket datagram (.make s.relayIp.val s.relayPort) then
            ⟨0, mgr.write slot { s with lastActivity := env.now }, some datagram⟩
          else ⟨-1, mgr, some datagram⟩

/-- Where the session in a slot was before the sessions behind `slot` moved up. -/
def TurnManager.origin (mgr : TurnManager) (slot i : TurnSlot) : TurnSlot :=
  if h : slot ≤ i ∧ i.val + 1 < mgr.count then ⟨i.val + 1, Nat.lt_of_lt_of_le h.2 mgr.bounded⟩ else i

/-- The sessions behind the first one of the id move up; the last slot keeps what was in it. -/
def turnDisconnect (peerId : CString) (mgr : TurnManager) : TurnManager :=
  match turnFindSession peerId mgr with
  | none => mgr
  | some slot =>
    let closed := mgr.write slot { mgr.sessions slot with state := .closed }
    { closed with
      sessions := closed.sessions ∘ mgr.origin slot
      count := mgr.count - 1
      bounded := (Nat.sub_le _ _).trans mgr.bounded }

end Orcashi
