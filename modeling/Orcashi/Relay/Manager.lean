import Mathlib.Data.List.Infix
import Orcashi.Lib.Cursor
import Orcashi.Lib.Sscanf
import Orcashi.Lib.Strtok
import Orcashi.P2P.Message

/-!
# The relay manager

Sessions with peers behind a relay: a table of at most 32, a handshake in text, packets with a binary
header.  One UDP socket serves the listener thread, `relay_connect` and `relay_recv`; each of them
takes the datagrams it gets.  A buffer is given with the memory behind it.  A function whose result is
an `Option` has none where it would write outside an array, follow NULL or search past that memory.
-/

namespace Orcashi

open CMemory Stdio

/-! ## Sessions -/

/-- `RELAY_MAX_PEERS`. -/
def relayMaxPeers : ℕ := 32

/-- `RELAY_BUFFER_SIZE`. -/
def relayBufferSize : ℕ := 4096

/-- What fits a `char[64]`. -/
def IdText := { s : CString // s.length < idSize }

namespace IdText

instance : DecidableEq IdText := inferInstanceAs (DecidableEq { s : CString // s.length < idSize })

/-- The empty id. -/
def empty : IdText := ⟨[], by decide⟩

/-- `strcpy` into a `char[64]`. -/
def copy (s : CString) : Option IdText := if h : s.length < idSize then some ⟨s, h⟩ else none

theorem copy_val (x : IdText) : copy x.val = some x := dif_pos x.property

theorem copy_eq_some_iff {s : CString} {x : IdText} : copy s = some x ↔ s = x.val := by
  constructor
  · intro h
    unfold copy at h
    split_ifs at h
    exact congrArg Subtype.val (Option.some.inj h)
  · rintro rfl
    exact copy_val x

end IdText

/-- `strcpy` into a `char[INET_ADDRSTRLEN]`. -/
def IpText.copy (s : CString) : Option IpText :=
  if h : s.length < inetAddrStrLen then some ⟨s, h⟩ else none

/-- 32 bytes. -/
def Secret := { b : Bytes // b.length = 32 }

namespace Secret

/-- An array of 32 bytes after `memset`. -/
def zero : Secret := ⟨List.replicate 32 0, rfl⟩

/-- `shared_secret[0]`. -/
def first (s : Secret) : UInt8 := s.val.head (List.ne_nil_of_length_pos (by rw [s.property]; decide))

end Secret

/-- `RelayState` -/
inductive RelayState where
  | idle
  | connecting
  | established
  | closed
  deriving DecidableEq

/-- `RelaySession` -/
structure RelaySession where
  peerId : IdText
  relayId : IdText
  ip : IpText
  port : ℤ
  state : RelayState
  socketFd : ℤ
  sessionId : UInt32
  lastActivity : Time
  createdAt : Time
  isInitiator : Bool
  sharedSecret : Secret
  isSecure : Bool

/-- `RelayManager`; `sessions` are the first `count` ones. -/
structure RelayManager where
  sessions : List RelaySession
  myId : IdText
  relaySocket : ℤ

/-- The manager after `relay_manager_init`. -/
def RelayManager.init (myId : IdText) (relaySocket : ℤ) : RelayManager := ⟨[], myId, relaySocket⟩

/-- Write through a pointer into the table. -/
def RelayManager.write (mgr : RelayManager) (c : Cursor RelaySession) (s : RelaySession) :
    RelayManager :=
  { mgr with sessions := (c.set s).toList }

/-- `g_relay_mgr`, which no function assigns. -/
def gRelayMgr : Option RelayManager := none

/-- What the relay asks of its surroundings beside what the node asks. -/
structure RelayEnv extends Env where
  /-- the 32 bytes `orca_random_bytes` leaves in `shared_secret` -/
  secret : Secret
  /-- the bytes of a packet from `malloc` that are not written: two after `type`, two at the end -/
  heap : UInt8 × UInt8 × UInt8 × UInt8

/-! ## The table -/

/-- `relay_find_session` -/
def relayFindSession (peerId : CString) (mgr : RelayManager) : Option (Cursor RelaySession) :=
  Cursor.find (fun s => s.peerId.val == peerId) mgr.sessions

/-- `time(NULL) ^ getpid() ^ rand()`. -/
def relayDrawSessionId (env : RelayEnv) : UInt32 :=
  UInt32.ofInt env.now ^^^ UInt32.ofInt env.pid ^^^ env.rand.toUInt32

/-- The entry `relay_add_session` fills in. -/
def RelaySession.fresh (env : RelayEnv) (peerId : IdText) : RelaySession where
  peerId := peerId
  relayId := .empty
  ip := .empty
  port := 0
  state := .idle
  socketFd := -1
  sessionId := relayDrawSessionId env
  lastActivity := env.now
  createdAt := env.now
  isInitiator := false
  sharedSecret := .zero
  isSecure := false

/-- `relay_add_session` -/
def relayAddSession (env : RelayEnv) (peerId : IdText) (mgr : RelayManager) :
    Option (Cursor RelaySession) :=
  if relayMaxPeers ≤ mgr.sessions.length then none
  else some ⟨mgr.sessions, .fresh env peerId, []⟩

/-- The session of the id, or a new one: how `relay_connect` and `relay_accept` begin. -/
def relayFindOrAdd (env : RelayEnv) (peerId : CString) (mgr : RelayManager) :
    Option (Option (Cursor RelaySession)) :=
  match relayFindSession peerId mgr with
  | some c => some (some c)
  | none =>
    if relayMaxPeers ≤ mgr.sessions.length then some none
    else (IdText.copy peerId).map fun id => relayAddSession env id mgr

/-- The salt `relay_generate_session_keys` draws is not used. -/
def relayGenerateSessionKeys (env : RelayEnv) (s : RelaySession) : RelaySession :=
  { s with sharedSecret := env.secret, isSecure := true }

/-- `if (relay_id) strcpy(session->relay_id, relay_id)`. -/
def copyRelayId (relayId : Option CString) (s : RelaySession) : Option RelaySession :=
  match relayId with
  | none => some s
  | some text => (IdText.copy text).map fun id => { s with relayId := id }

/-! ## Connecting and accepting -/

/-- `snprintf(handshake, 512, "RELAY_HANDSHAKE:%s:%u:%s", peer_id, session_id, my_id)`. -/
def relayHandshakeText (peerId : CString) (sessionId : UInt32) (myId : CString) : CString :=
  cut 512 (ascii "RELAY_HANDSHAKE" ++ 58 :: (peerId ++ 58 :: (decimal sessionId.toNat ++ 58 :: myId)))

/-- What `relay_connect` has come to when it leaves the lock for the first time: it returns, or goes on
with a pointer to the entry at `slot` to send a handshake and wait. -/
inductive RelayDial where
  | returned (ret : ℤ) (mgr : RelayManager)
  | waiting (slot : ℕ) (datagram : Bytes) (target : SockAddrIn) (mgr : RelayManager)

/-- The id `relay_connect` gives as its own. -/
def relayOwnId (env : RelayEnv) (mgr : RelayManager) : CString :=
  match env.identity with
  | some identity => identity.id
  | none => mgr.myId.val

/-- `relay_connect` with a session that is not established. -/
def relayStartDial (env : RelayEnv) (peerId : CString) (relayId : Option CString) (relayIp : CString)
    (relayPort : ℤ) (mgr : RelayManager) (c : Cursor RelaySession) : Option RelayDial := do
  let s ← copyRelayId relayId { c.val with state := .connecting }
  let ip ← IpText.copy relayIp
  return .waiting c.before.length (relayHandshakeText peerId s.sessionId (relayOwnId env mgr))
    (.make relayIp relayPort)
    (mgr.write c { s with ip := ip, port := relayPort, isInitiator := true })

/-- `relay_connect` up to where it waits for an answer. -/
def relayConnect (env : RelayEnv) (peerId : CString) (relayId : Option CString) (relayIp : CString)
    (relayPort : ℤ) (mgr : RelayManager) : Option RelayDial :=
  if relayPort ≤ 0 then some (.returned (-1) mgr)
  else
    match relayFindOrAdd env peerId mgr with
    | none => none
    | some none => some (.returned (-1) mgr)
    | some (some c) =>
      if c.val.state = .established then some (.returned 0 mgr)
      else relayStartDial env peerId relayId relayIp relayPort mgr c

/-- The rest of `relay_connect`: `received` is what `recvfrom` read, if the handshake left and an
answer came in time. -/
def relayConnectEnd (env : RelayEnv) (slot : ℕ) (received : Option Bytes) (mgr : RelayManager) :
    ℤ × RelayManager :=
  if received.any fun b => decide (ascii "RELAY_HANDSHAKE_OK" <:+: strAt (b.take 511) 0) then
    (0, { mgr with
      sessions := mgr.sessions.modify slot fun s =>
        relayGenerateSessionKeys env { s with state := .established, lastActivity := env.now } })
  else (-1, { mgr with sessions := mgr.sessions.modify slot fun s => { s with state := .idle } })

/-- `relay_accept` -/
def relayAccept (env : RelayEnv) (peerId : CString) (relayId : Option CString) (mgr : RelayManager) :
    Option (ℤ × RelayManager) :=
  match relayFindOrAdd env peerId mgr with
  | none => none
  | some none => some (-1, mgr)
  | some (some c) =>
    (copyRelayId relayId c.val).map fun s =>
      (0, mgr.write c (relayGenerateSessionKeys env
        { s with state := .established, isInitiator := false, lastActivity := env.now }))

/-- The entries behind the first session of the id move up. -/
def relayDisconnect (peerId : CString) (mgr : RelayManager) : ℤ × RelayManager :=
  match relayFindSession peerId mgr with
  | some c => (0, { mgr with sessions := c.erase })
  | none => (0, mgr)

/-! ## Packets -/

/-- `RELAY_MAGIC` -/
def relayMagic : UInt32 := 0x52454C59

/-- `RELAY_PROTOCOL_VERSION` -/
def relayProtocolVersion : UInt8 := 1

/-- `RELAY_PKT_HANDSHAKE` -/
def relayPktHandshake : UInt8 := 1

/-- `RELAY_PKT_HANDSHAKE_RESPONSE` -/
def relayPktHandshakeResponse : UInt8 := 2

/-- `RELAY_PKT_DATA` -/
def relayPktData : UInt8 := 3

/-- `RELAY_PKT_CLOSE` -/
def relayPktClose : UInt8 := 5

/-- `sizeof(RelayPacket)`: two bytes of padding follow `type`, and two the struct. -/
def relayPacketSize : ℕ := 24

/-- `offsetof(RelayPacket, payload)`, before the padding at the end. -/
def relayPayloadOffset : ℕ := 22

/-- `RelayPacket` -/
structure RelayPacket where
  magic : UInt32
  version : UInt8
  type : UInt8
  sessionId : UInt32
  sequence : UInt32
  flags : UInt32
  payloadLen : UInt16
  /-- the memory from `packet->payload` on -/
  payload : Bytes

namespace RelayPacket

/-- `(RelayPacket*)buffer`. -/
def ofBuffer (b : Bytes) : RelayPacket where
  magic := readLe32 b 0
  version := b.getD 4 0
  type := b.getD 5 0
  sessionId := readLe32 b 8
  sequence := readLe32 b 12
  flags := readLe32 b 16
  payloadLen := readLe16 b 20
  payload := b.drop relayPayloadOffset

/-- The `sizeof(RelayPacket) + payload_len` bytes `relay_send_packet` sends. -/
def toBytes (heap : UInt8 × UInt8 × UInt8 × UInt8) (p : RelayPacket) : Bytes :=
  le32 p.magic ++ [p.version, p.type, heap.1, heap.2.1] ++ le32 p.sessionId ++ le32 p.sequence ++
    le32 p.flags ++ le16 p.payloadLen ++ p.payload ++ [heap.2.2.1, heap.2.2.2]

/-- The packet `relay_send_packet` fills in. -/
def make (env : RelayEnv) (s : RelaySession) (type : UInt8) (payload : Bytes) : RelayPacket where
  magic := relayMagic
  version := relayProtocolVersion
  type := type
  sessionId := s.sessionId
  sequence := UInt32.ofInt env.now
  flags := 0
  payloadLen := payload.length.toUInt16
  payload := payload

end RelayPacket

/-! ## Sending and receiving data -/

/-- What a function that sends returns, what it leaves and what went out. -/
structure RelaySent (α : Type) where
  ret : ℤ
  left : α
  sent : List Bytes

/-- The socket `relay_send_packet` takes. -/
def relaySendSocket (s : RelaySession) : Option ℤ :=
  if 0 < s.socketFd then some s.socketFd else gRelayMgr.map RelayManager.relaySocket

/-- `relay_send_packet` -/
def relaySendPacket (env : RelayEnv) (type : UInt8) (payload : Bytes) (s : RelaySession) :
    Option (RelaySent RelaySession) :=
  (relaySendSocket s).map fun sock =>
    let datagram := (RelayPacket.make env s type payload).toBytes env.heap
    if env.sendto sock datagram (.make s.ip.val s.port) then
      ⟨0, { s with lastActivity := env.now }, [datagram]⟩
    else ⟨-1, s, []⟩

/-- Whether data are encrypted. -/
def RelaySession.encrypts (s : RelaySession) : Bool := s.isSecure && s.sharedSecret.first != 0

/-- `relay_send` -/
def relaySend (env : RelayEnv) (peerId : CString) (data : Bytes) (mgr : RelayManager) :
    Option (RelaySent RelayManager) :=
  if data = [] then some ⟨-1, mgr, []⟩
  else
    match relayFindSession peerId mgr with
    | none => some ⟨-1, mgr, []⟩
    | some c =>
      if c.val.state ≠ .established then some ⟨-1, mgr, []⟩
      else
        let send (payload : Bytes) : Option (RelaySent RelayManager) :=
          (relaySendPacket env relayPktData payload c.val).map fun r =>
            ⟨r.ret, mgr.write c r.left, r.sent⟩
        if c.val.encrypts then
          match env.crypto.aesGcmEncrypt data c.val.sharedSecret.val env.nonce with
          | none => some ⟨-1, mgr, []⟩
          | some (tag, ciphertext) => send (env.nonce ++ tag ++ ciphertext)
        else send data

/-- What `recvfrom` with `MSG_DONTWAIT` comes to. -/
inductive RelayArrival where
  | nothing
  | failed
  | datagram (b : Bytes)

/-- `relay_recv` with a buffer of `maxLen` bytes: its value, the bytes it has written and what it
leaves.  `stale` is what lies behind the datagram in its own buffer. -/
def relayRecv (env : RelayEnv) (peerId : CString) (maxLen : ℕ) (arrival : RelayArrival)
    (stale : Bytes) (mgr : RelayManager) : ℤ × Bytes × RelayManager :=
  if maxLen = 0 then (-1, [], mgr)
  else
    match relayFindSession peerId mgr with
    | none => (-1, [], mgr)
    | some c =>
      if c.val.state ≠ .established then (-1, [], mgr)
      else
        match arrival with
        | .nothing => (0, [], mgr)
        | .failed => (-1, [], mgr)
        | .datagram b =>
          let packet := RelayPacket.ofBuffer (b.take relayBufferSize ++ stale)
          if b.length < relayPacketSize then (-1, [], mgr)
          else if packet.magic ≠ relayMagic then (-1, [], mgr)
          else if packet.sessionId ≠ c.val.sessionId then (-1, [], mgr)
          else if packet.type = relayPktData then
            let copyLen := min packet.payloadLen.toNat maxLen
            (copyLen, packet.payload.take copyLen,
              mgr.write c { c.val with lastActivity := env.now })
          else (0, [], mgr)

/-- What `relay_process_packet` makes of the payload of a DATA packet. -/
inductive RelayData where
  | nothing
  | decrypted (plaintext : Bytes)
  | plain (payload : Bytes)

/-- `relay_process_packet`: its value, what it makes of data and the session it leaves. -/
def relayProcessPacket (env : RelayEnv) (packet : RelayPacket) (packetLen : ℕ) (s : RelaySession) :
    ℤ × RelayData × RelaySession :=
  if packetLen < relayPacketSize ∨ packet.magic ≠ relayMagic ∨
      packet.version ≠ relayProtocolVersion then (-1, .nothing, s)
  else
    let s := { s with lastActivity := env.now }
    if packet.type = relayPktHandshakeResponse then (0, .nothing, { s with state := .established })
    else if packet.type = relayPktData then
      let data : RelayData :=
        if s.encrypts then
          if 28 ≤ packet.payloadLen.toNat then
            match env.crypto.aesGcmDecrypt
              ((packet.payload.drop 28).take (packet.payloadLen.toNat - 28)) s.sharedSecret.val
              (packet.payload.take 12) ((packet.payload.drop 12).take 16) with
            | some plaintext => .decrypted plaintext
            | none => .nothing
          else .nothing
        else .plain (packet.payload.take packet.payloadLen.toNat)
      (0, data, s)
    else if packet.type = relayPktClose then (0, .nothing, { s with state := .closed })
    else (0, .nothing, s)

/-! ## The listener -/

/-- A handshake as the listener reads it. -/
structure RelayHandshake where
  targetId : IdText
  sessionId : UInt32
  fromId : IdText

/-- The `strtok` calls on a handshake; some none where the text is none. -/
def relayParseHandshake (mem : Bytes) : Option (Option RelayHandshake) :=
  match strtok 58 mem with
  | .outside => none
  | .none => some none
  | .some tag mem =>
    if tag ≠ ascii "RELAY_HANDSHAKE" then some none
    else
      match strtok 58 mem with
      | .outside => none
      | .none => some none
      | .some peerId mem => do
        let targetId ← IdText.copy peerId
        match strtok 58 mem with
        | .outside => none
        | .none => return none
        | .some sid mem =>
          match strtok 58 mem with
          | .outside => none
          | .none => return none
          | .some from_ _ => do
            let fromId ← IdText.copy from_
            return some ⟨targetId, UInt32.ofInt (atoi sid), fromId⟩

/-- What the listener takes a datagram for. -/
inductive RelayInput where
  | ignored
  | packet (c : Cursor RelaySession)
  /-- a handshake, with the memory its text begins at -/
  | handshake (mem : Bytes)

/-- The `n` bytes at the front of `buffer` are the datagram. -/
def relayDispatch (buffer : Bytes) (n : ℕ) (mgr : RelayManager) : RelayInput :=
  let packet := RelayPacket.ofBuffer buffer
  if n < relayPacketSize then .ignored
  else if packet.magic = relayMagic then
    match Cursor.find (fun s => s.sessionId == packet.sessionId) mgr.sessions with
    | some c => .packet c
    | none => if packet.type = relayPktHandshake then .handshake packet.payload else .ignored
  else if buffer.take 15 = ascii "RELAY_HANDSHAKE" then .handshake buffer
  else .ignored

/-- What a pass of the listener leaves: the manager, the handshake it read, if any, and the answer. -/
structure RelayHeard where
  mgr : RelayManager
  handshake : Option RelayHandshake
  answer : Option Bytes

/-- The session of a handshake. -/
def RelaySession.accepted (env : RelayEnv) (sender : SockAddrIn) (h : RelayHandshake)
    (s : RelaySession) : RelaySession :=
  relayGenerateSessionKeys env
    { s with
      sessionId := h.sessionId
      state := .established
      isInitiator := false
      lastActivity := env.now
      ip := sender.ip
      port := sender.port }

/-- `snprintf(response, 128, "RELAY_HANDSHAKE_OK:%u", session_id)`. -/
def relayResponseText (sessionId : UInt32) : CString :=
  cut 128 (ascii "RELAY_HANDSHAKE_OK" ++ 58 :: decimal sessionId.toNat)

/-- A handshake takes a new entry. -/
def relayTakeHandshake (env : RelayEnv) (sender : SockAddrIn) (h : RelayHandshake)
    (mgr : RelayManager) : RelayHeard :=
  match relayAddSession env h.targetId mgr with
  | none => ⟨mgr, some h, none⟩
  | some c => ⟨mgr.write c (c.val.accepted env sender h), some h, some (relayResponseText h.sessionId)⟩

/-- A pass of `relay_listener_thread`. -/
def relayListen (env : RelayEnv) (sender : SockAddrIn) (buffer : Bytes) (n : ℕ) (mgr : RelayManager) :
    Option RelayHeard :=
  match relayDispatch buffer n mgr with
  | .ignored => some ⟨mgr, none, none⟩
  | .packet c =>
    some ⟨mgr.write c (relayProcessPacket env (.ofBuffer buffer) n c.val).2.2, none, none⟩
  | .handshake mem =>
    (relayParseHandshake mem).map fun
      | none => ⟨mgr, none, none⟩
      | some h => relayTakeHandshake env sender h mgr

end Orcashi
