import Orcashi.P2P.Message

/-!
# Sessions of simultaneous open

Two nodes connect to each other and then agree on a token: `simultaneous_open_connect` sends its own
in a SYNC and repeats it, `simultaneous_open_accept` waits for one, and both handle what comes with
`simultaneous_open_process_packet`.  A session that is established goes on handling packets in
`simultaneous_open_recv`.
-/

namespace Orcashi

/-! ## Packets -/

/-- `SIM_MAGIC` -/
def simMagic : UInt32 := 0x53494D4F

/-- `SIM_PROTOCOL_VERSION` -/
def simProtocolVersion : UInt8 := 1

/-- `SimPacketType` -/
inductive SimPacketType where
  | sync
  | syncAck
  | syncConfirm
  | data
  | keepalive
  | close
  deriving DecidableEq

namespace SimPacketType

/-- The values of the enumeration. -/
def code : SimPacketType → UInt8
  | sync => 1
  | syncAck => 2
  | syncConfirm => 3
  | data => 4
  | keepalive => 5
  | close => 6

/-- The cases of the `switch` over `packet->type`. -/
def ofCode : UInt8 → Option SimPacketType
  | 1 => some sync
  | 2 => some syncAck
  | 3 => some syncConfirm
  | 4 => some data
  | 5 => some keepalive
  | 6 => some close
  | _ => none

theorem ofCode_code (t : SimPacketType) : ofCode t.code = some t := by
  cases t <;> rfl

end SimPacketType

/-- `sizeof(SimPacket)`: the struct is packed. -/
def simPacketSize : ℕ := 16

/-- `SimPacket` -/
structure SimPacket where
  magic : UInt32
  version : UInt8
  type : UInt8
  syncToken : UInt32
  timestamp : UInt32
  payloadLen : UInt16
  /-- the memory from `packet->payload` on -/
  payload : Bytes
  deriving DecidableEq

namespace SimPacket

/-- `(SimPacket*)buffer`. -/
def ofBuffer (b : Bytes) : SimPacket where
  magic := readLe32 b 0
  version := b.getD 4 0
  type := b.getD 5 0
  syncToken := readLe32 b 6
  timestamp := readLe32 b 10
  payloadLen := readLe16 b 14
  payload := b.drop simPacketSize

/-- The bytes of a packet. -/
def toBytes (p : SimPacket) : Bytes :=
  le32 p.magic ++ [p.version, p.type] ++ le32 p.syncToken ++ le32 p.timestamp ++ le16 p.payloadLen ++
    p.payload

/-- A packet in a buffer is read as it was written; the payload goes on into what lies behind. -/
theorem ofBuffer_toBytes_append (p : SimPacket) (stale : Bytes) :
    ofBuffer (p.toBytes ++ stale) = { p with payload := p.payload ++ stale } := by
  have magic : readLe32 (p.toBytes ++ stale) 0 = p.magic := readLe32_eq rfl
  have syncToken : readLe32 (p.toBytes ++ stale) 6 = p.syncToken := readLe32_eq rfl
  have timestamp : readLe32 (p.toBytes ++ stale) 10 = p.timestamp := readLe32_eq rfl
  have payloadLen : readLe16 (p.toBytes ++ stale) 14 = p.payloadLen := readLe16_eq rfl
  unfold ofBuffer
  rw [magic, syncToken, timestamp, payloadLen]
  rfl

theorem ofBuffer_toBytes (p : SimPacket) : ofBuffer p.toBytes = p := by
  have read := p.ofBuffer_toBytes_append []
  rwa [List.append_nil, List.append_nil] at read

theorem length_toBytes (p : SimPacket) : p.toBytes.length = simPacketSize + p.payload.length := by
  simp only [toBytes, le32, le16, List.length_append, List.length_cons, List.length_nil,
    simPacketSize]

end SimPacket

/-! ## Sessions -/

/-- `SimOpenState` -/
inductive SimOpenState where
  | idle
  | connecting
  | syncing
  | established
  | failed
  deriving DecidableEq

/-- `SimOpenSession` -/
structure SimOpenSession where
  targetIp : IpText
  targetPort : ℤ
  localPort : ℤ
  socketFd : ℤ
  state : SimOpenState
  syncToken : UInt32
  startTime : Time
  lastActivity : Time
  retryCount : ℤ
  isInitiator : Bool
  peerIp : IpText
  peerPort : ℤ
  deriving DecidableEq

/-- What the system does for a session in one step. -/
structure SimOpenEnv where
  /-- `time(NULL)` -/
  now : Time
  /-- whether the packet of the step can be allocated and `send` takes it -/
  sends : Bool

/-- What the system does for a session at the start of a call. -/
structure SimOpenSetup where
  /-- `rand()` -/
  rand : ℕ
  /-- `simultaneous_open_create_socket(local_port)` -/
  socket : ℤ
  /-- the word of `orca_random_bytes` -/
  random : UInt32
  /-- `getpid()` -/
  pid : UInt32
  /-- whether `connect` succeeds or is in progress -/
  connects : Bool

/-- What `recv` gives. -/
inductive SimRead where
  /-- an error, with whether it is `EAGAIN` -/
  | failed (again : Bool)
  /-- the bytes read, none at the end of the stream -/
  | bytes (b : Bytes)

/-- What a function returns, the session it leaves and the packets that went out. -/
structure SimOpenDone where
  ret : ℤ
  left : SimOpenSession
  sent : List SimPacket

/-- `simultaneous_open_init`, where its parameters pass the check. -/
def SimOpenSession.init (targetIp : IpText) (targetPort : ℤ) : SimOpenSession where
  targetIp := targetIp
  targetPort := targetPort
  localPort := 0
  socketFd := -1
  state := .idle
  syncToken := 0
  startTime := 0
  lastActivity := 0
  retryCount := 0
  isInitiator := false
  peerIp := IpText.empty
  peerPort := 0

/-- `simultaneous_open_init` -/
def simultaneousOpenInit (targetIp : IpText) (targetPort : ℤ) : Option SimOpenSession :=
  if targetPort ≤ 0 then none else some (.init targetIp targetPort)

/-- `simultaneous_open_cleanup` -/
def simultaneousOpenCleanup (s : SimOpenSession) : SimOpenSession :=
  { s with socketFd := if 0 ≤ s.socketFd then -1 else s.socketFd, state := .idle }

/-- `simultaneous_open_generate_sync_token` -/
def simultaneousOpenGenerateSyncToken (env : SimOpenEnv) (setup : SimOpenSetup) : UInt32 :=
  setup.random ^^^ UInt32.ofInt env.now ^^^ setup.pid

/-! ## Sending and handling packets -/

/-- The packet `simultaneous_open_send_packet` fills in. -/
def SimPacket.make (env : SimOpenEnv) (s : SimOpenSession) (type : SimPacketType) (payload : Bytes) :
    SimPacket where
  magic := simMagic
  version := simProtocolVersion
  type := type.code
  syncToken := s.syncToken
  timestamp := UInt32.ofInt env.now
  payloadLen := payload.length.toUInt16
  payload := payload

/-- `simultaneous_open_send_packet` -/
def simultaneousOpenSendPacket (env : SimOpenEnv) (type : SimPacketType) (payload : Bytes)
    (s : SimOpenSession) : SimOpenDone :=
  if s.socketFd < 0 ∨ !env.sends then ⟨-1, s, []⟩
  else ⟨0, { s with lastActivity := env.now }, [.make env s type payload]⟩

section Send

variable {env : SimOpenEnv} {t : SimPacketType} {payload : Bytes} {s : SimOpenSession}

@[simp] theorem simultaneousOpenSendPacket_state :
    (simultaneousOpenSendPacket env t payload s).left.state = s.state := by
  unfold simultaneousOpenSendPacket
  split_ifs <;> rfl

@[simp] theorem simultaneousOpenSendPacket_syncToken :
    (simultaneousOpenSendPacket env t payload s).left.syncToken = s.syncToken := by
  unfold simultaneousOpenSendPacket
  split_ifs <;> rfl

@[simp] theorem simultaneousOpenSendPacket_socketFd :
    (simultaneousOpenSendPacket env t payload s).left.socketFd = s.socketFd := by
  unfold simultaneousOpenSendPacket
  split_ifs <;> rfl

end Send

/-- The session is established if it was synchronising. -/
def SimOpenSession.establish (s : SimOpenSession) : SimOpenSession :=
  if s.state = .syncing then { s with state := .established } else s

/-- `simultaneous_open_process_packet` -/
def simultaneousOpenProcessPacket (env : SimOpenEnv) (packet : SimPacket) (len : ℕ)
    (s : SimOpenSession) : SimOpenDone :=
  if len < simPacketSize then ⟨-1, s, []⟩
  else if packet.magic ≠ simMagic then ⟨-1, s, []⟩
  else if packet.version ≠ simProtocolVersion then ⟨-1, s, []⟩
  else
    let s := { s with lastActivity := env.now }
    match SimPacketType.ofCode packet.type with
    | some .sync =>
      let answer := simultaneousOpenSendPacket env .syncAck [] { s with syncToken := packet.syncToken }
      ⟨0, answer.left.establish, answer.sent⟩
    | some .syncAck =>
      if s.syncToken = packet.syncToken then
        let answer := simultaneousOpenSendPacket env .syncConfirm [] s
        ⟨0, { answer.left with state := .established }, answer.sent⟩
      else ⟨0, s, []⟩
    | some .syncConfirm => ⟨0, s.establish, []⟩
    | some .close => ⟨0, { s with state := .idle }, []⟩
    | some .data | some .keepalive | none => ⟨0, s, []⟩

/-! ## The two calls -/

/-- `simultaneous_open_wait_for_sync`; there is nothing to read where `select` ran out or failed. -/
def simultaneousOpenWaitForSync (env : SimOpenEnv) (read : Option SimRead) (s : SimOpenSession) :
    SimOpenDone :=
  if s.socketFd < 0 then ⟨-1, s, []⟩
  else
    match read with
    | none => ⟨-1, s, []⟩
    | some (.failed _) => ⟨-1, s, []⟩
    | some (.bytes b) =>
      if simPacketSize ≤ b.length then simultaneousOpenProcessPacket env (.ofBuffer b) b.length s
      else ⟨-1, s, []⟩

/-- `simultaneous_open_connect` and, if not an initiator, `simultaneous_open_accept`, up to the loop. -/
def simultaneousOpenBegin (initiator : Bool) (env : SimOpenEnv) (setup : SimOpenSetup)
    (s : SimOpenSession) : SimOpenDone :=
  let s := { s with localPort := 33450 + (setup.rand : ℤ) % (33460 - 33450), socketFd := setup.socket }
  if s.socketFd < 0 then ⟨-1, s, []⟩
  else
    let s := { s with
      syncToken := simultaneousOpenGenerateSyncToken env setup
      isInitiator := initiator
      state := .connecting
      startTime := env.now }
    if !setup.connects then ⟨-1, simultaneousOpenCleanup s, []⟩
    else
      let s := { s with state := .syncing }
      if initiator then { simultaneousOpenSendPacket env .sync [] s with ret := 0 } else ⟨0, s, []⟩

/-- What a call does after a try that has not established the session, if it was not the last one. -/
def simultaneousOpenRetry (initiator : Bool) (env : SimOpenEnv) (s : SimOpenSession) : SimOpenDone :=
  if initiator then simultaneousOpenSendPacket env .sync [] s else ⟨0, s, []⟩

/-- `SIM_OPEN_MAX_RETRY` -/
def simOpenMaxRetry : ℕ := 5

/-- What happens in one try: what there is to read, and the system while it is handled and while the
call sends again. -/
structure SimOpenTry where
  read : Option SimRead
  handling : SimOpenEnv
  again : SimOpenEnv

/-- The loop of a call, with the number of tries that are left. -/
def simultaneousOpenTries (initiator : Bool) (net : ℕ → SimOpenTry) (s : SimOpenSession) :
    ℕ → ℤ × SimOpenSession
  | 0 => (-1, simultaneousOpenCleanup s)
  | left + 1 =>
    let waited := simultaneousOpenWaitForSync (net left).handling (net left).read s
    if waited.ret = 0 ∧ waited.left.state = .established then (0, waited.left)
    else if left = 0 then simultaneousOpenTries initiator net waited.left left
    else simultaneousOpenTries initiator net
      (simultaneousOpenRetry initiator (net left).again waited.left).left left

/-- Both calls. -/
def simultaneousOpenCall (initiator : Bool) (env : SimOpenEnv) (setup : SimOpenSetup)
    (net : ℕ → SimOpenTry) (s : SimOpenSession) : ℤ × SimOpenSession :=
  let begun := simultaneousOpenBegin initiator env setup s
  if begun.ret < 0 then (-1, begun.left)
  else simultaneousOpenTries initiator net begun.left simOpenMaxRetry

/-- `simultaneous_open_connect` -/
def simultaneousOpenConnect (env : SimOpenEnv) (setup : SimOpenSetup) (net : ℕ → SimOpenTry)
    (s : SimOpenSession) : ℤ × SimOpenSession :=
  simultaneousOpenCall true env setup net s

/-- `simultaneous_open_accept` -/
def simultaneousOpenAccept (env : SimOpenEnv) (setup : SimOpenSetup) (net : ℕ → SimOpenTry)
    (s : SimOpenSession) : ℤ × SimOpenSession :=
  simultaneousOpenCall false env setup net s

/-! ## An established session -/

/-- `simultaneous_open_send` -/
def simultaneousOpenSend (env : SimOpenEnv) (data : Bytes) (s : SimOpenSession) : SimOpenDone :=
  if data = [] then ⟨-1, s, []⟩
  else if s.state ≠ .established then ⟨-1, s, []⟩
  else simultaneousOpenSendPacket env .data data s

/-- What `simultaneous_open_recv` returns, the session it leaves, the packets that went out, the bytes it
has copied into the buffer of the caller, and the packet it has acted on. -/
structure SimOpenReceived where
  ret : ℤ
  left : SimOpenSession
  sent : List SimPacket
  copied : Bytes
  handled : List SimPacket

/-- A call that acts on nothing. -/
def SimOpenReceived.nothing (ret : ℤ) (left : SimOpenSession) : SimOpenReceived :=
  ⟨ret, left, [], [], []⟩

/-- `simultaneous_open_recv`, with what `recv_buffer` holds behind the bytes read; none if the copy
leaves `recv_buffer`. -/
def simultaneousOpenRecv (env : SimOpenEnv) (read : SimRead) (stale : Bytes) (maxLen : ℕ)
    (s : SimOpenSession) : Option SimOpenReceived :=
  if maxLen = 0 then some (.nothing (-1) s)
  else if s.state ≠ .established then some (.nothing (-1) s)
  else
    match read with
    | .failed again => some (.nothing (if again then 0 else -1) s)
    | .bytes b =>
      let packet := SimPacket.ofBuffer (b ++ stale)
      if b = [] then some (.nothing 0 { s with state := .idle })
      else if b.length < simPacketSize then some (.nothing 0 s)
      else if packet.magic ≠ simMagic then some (.nothing 0 s)
      else if SimPacketType.ofCode packet.type = some .data then
        let copyLen := min packet.payloadLen.toNat maxLen
        if packet.payload.length < copyLen then none
        else some ⟨copyLen, { s with lastActivity := env.now }, [], packet.payload.take copyLen, [packet]⟩
      else
        let done := simultaneousOpenProcessPacket env packet b.length s
        some ⟨0, done.left, done.sent, [], if done.ret = 0 then [packet] else []⟩

/-- `simultaneous_open_close` -/
def simultaneousOpenClose (env : SimOpenEnv) (s : SimOpenSession) : SimOpenDone :=
  if 0 ≤ s.socketFd then
    ⟨0, { (simultaneousOpenSendPacket env .close [] s).left with socketFd := -1, state := .idle },
      (simultaneousOpenSendPacket env .close [] s).sent⟩
  else ⟨0, { s with state := .idle }, []⟩

end Orcashi
