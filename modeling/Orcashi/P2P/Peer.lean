import Orcashi.EventLoop
import Orcashi.P2P.Message

/-!
# One P2P peer

The record the P2P manager keeps of a peer, and what it does with one record: sending to it,
generating session keys for it and handling the messages that arrive from it.  A function that gets
a `P2PPeer*` takes the record and returns it, with what the rest of the node shares.

`Effect` is the history the model keeps beside the state of the program: which bytes of the payload
were read and written, what was copied into which array, what was sent, and when a peer was given a
session key or put into state DISCONNECTED.  No function of the program reads it.
-/

namespace Orcashi

open CMemory

/-! ## Data -/

/-- `P2PState` -/
inductive P2PState where
  | disconnected
  | connecting
  | handshake
  | secure
  | established
  deriving DecidableEq

/-- The values of the enumeration. -/
def P2PState.code : P2PState → ℕ
  | disconnected => 0
  | connecting => 1
  | handshake => 2
  | secure => 3
  | established => 4

/-- `P2PPeer`, without the fields no function uses (`retry_count`, `has_ipv6`, `ipv6`,
`nat_type`). -/
structure P2PPeer where
  id : NormId
  ip : IpText
  port : ℤ
  state : P2PState
  udpSocket : ℤ
  addr : SockAddrIn
  sharedSecret : Bytes
  aesKey : Bytes
  sendNonce : UInt64
  recvNonce : UInt64
  lastActivity : Time
  createdAt : Time
  isSecure : Bool
  isInitiator : Bool
  publicKey : CString
  deriving DecidableEq

/-- A new record of `add_peer`. -/
def P2PPeer.fresh (env : Env) (id : NormId) : P2PPeer where
  id := id
  ip := IpText.empty
  port := 0
  state := .disconnected
  udpSocket := -1
  addr := SockAddrIn.zero
  sharedSecret := List.replicate 32 0
  aesKey := List.replicate 32 0
  sendNonce := UInt64.ofInt env.now ^^^ UInt64.ofInt env.pid
  recvNonce := UInt64.ofInt env.now ^^^ UInt64.ofInt env.pid ^^^ 0xDEADBEEF
  lastActivity := env.now
  createdAt := env.now
  isSecure := false
  isInitiator := false
  publicKey := []

/-- What a call does to the payload, or sends. -/
inductive Effect where
  /-- a read of `payload[lo..hi)` -/
  | load (lo hi : ℕ)
  /-- a NUL written over the separator `payload[i]` -/
  | store (i : ℕ)
  /-- `payload[payload_len] = '\0'` -/
  | terminate (i : ℕ)
  /-- a `strcpy` of `len` bytes and a NUL into an array of `size` -/
  | copy (size len : ℕ)
  /-- `generate_session_keys` returned 0 -/
  | keyed (id : NormId) (key : Bytes)
  /-- the state of the peer was set to DISCONNECTED -/
  | disconnected (id : NormId)
  /-- a datagram left through a socket -/
  | sendto (fd : ℤ) (datagram : Bytes) (addr : SockAddrIn)
  /-- `send_message`, `p2p_send_secure` or `p2p_send` returned 0 for this peer and text -/
  | sent (id : CString) (text : Bytes)
  | opened (fd : ℤ)
  | closed (fd : ℤ)
  deriving DecidableEq

/-- What the handlers share. -/
structure Shared extends Store where
  trace : List Effect

namespace Shared

/-- Nothing was done yet. -/
def init : Shared := { Store.init with trace := [] }

/-- The effects of a step are noted. -/
def record (es : List Effect) (sh : Shared) : Shared := { sh with trace := sh.trace ++ es }

/-- A change of the tables and the queue. -/
def onStore (f : Store → Store) (sh : Shared) : Shared := { sh with toStore := f sh.toStore }

@[simp] theorem record_toStore (es : List Effect) (sh : Shared) :
    (sh.record es).toStore = sh.toStore := rfl

@[simp] theorem record_trace (es : List Effect) (sh : Shared) :
    (sh.record es).trace = sh.trace ++ es := rfl

theorem record_record (es fs : List Effect) (sh : Shared) :
    (sh.record es).record fs = sh.record (es ++ fs) := by
  simp [record]

@[simp] theorem onStore_toStore (f : Store → Store) (sh : Shared) :
    (sh.onStore f).toStore = f sh.toStore := rfl

@[simp] theorem onStore_trace (f : Store → Store) (sh : Shared) :
    (sh.onStore f).trace = sh.trace := rfl

end Shared

/-- What a function on one peer leaves behind. -/
structure Handled where
  ret : ℤ
  peer : P2PPeer
  shared : Shared

/-! ## Sending -/

/-- `send_message` -/
def sendMessage (env : Env) (peer : P2PPeer) (type : P2PMessageType) (payload : Bytes)
    (sh : Shared) : Handled :=
  if peer.udpSocket < 0 then ⟨-1, peer, sh⟩
  else if peer.state ≠ .established ∧ type ≠ .handshake ∧ type ≠ .handshakeResponse then
    ⟨-1, peer, sh⟩
  else
    let datagram := (P2PMessage.make env.now type payload).toBytes
    if env.sendto peer.udpSocket datagram peer.addr then
      ⟨0, { peer with lastActivity := env.now },
        sh.record [.sendto peer.udpSocket datagram peer.addr, .sent peer.id.val payload]⟩
    else ⟨-1, peer, sh⟩

/-- The character between the fields of a handshake. -/
def separator : UInt8 := 124

/-- `snprintf(.., "%s|%s|%s|%ld", ..)`: the text a handshake signs. -/
def handshakeData (id name publicKey : CString) (now : Time) : CString :=
  cut 4096 (id ++ separator :: name ++ separator :: publicKey ++ separator :: decimal now)

/-- `send_handshake` -/
def sendHandshake (env : Env) (peer : P2PPeer) (sh : Shared) : Handled :=
  match env.identity with
  | none => ⟨-1, peer, sh⟩
  | some identity =>
    let data := handshakeData identity.id identity.name identity.publicKey env.now
    match env.crypto.rsaSignString data identity.privateKeyEncrypted with
    | none => ⟨-1, peer, sh⟩
    | some signature =>
      let payload :=
        identity.id ++ separator :: identity.publicKey ++ separator :: signature
      sendMessage env peer .handshake payload sh

/-! ## Session keys -/

/-- The computation of `generate_session_keys`: the shared secret and the AES key. -/
def sessionKeys (env : Env) (publicKey : CString) : Option (Bytes × Bytes) := do
  let _ ← env.identity
  let (_, ecdhPriv) ← env.keypair
  let peerPub ← orcaX25519HexToPublicKey publicKey
  let sharedSecret ← env.crypto.x25519ComputeSharedSecret ecdhPriv peerPub
  let aesKey ← orcaAesGcmDeriveKey env.crypto sharedSecret env.salt
  return (sharedSecret, aesKey)

/-- `generate_session_keys` -/
def generateSessionKeys (env : Env) (peer : P2PPeer) (sh : Shared) : Handled :=
  match sessionKeys env peer.publicKey with
  | none => ⟨-1, peer, sh⟩
  | some (sharedSecret, aesKey) =>
    ⟨0, { peer with sharedSecret := sharedSecret, aesKey := aesKey },
      sh.record [.keyed peer.id aesKey]⟩

/-- `establish_secure_channel` -/
def establishSecureChannel (env : Env) (peer : P2PPeer) (sh : Shared) : Handled :=
  let h := generateSessionKeys env peer sh
  if h.ret < 0 then ⟨-1, h.peer, h.shared⟩
  else sendMessage env h.peer .handshakeResponse [1] h.shared

/-! ## Handlers -/

/-- The read of a string of the payload, terminator included. -/
def loadStr (payload : Bytes) (i : ℕ) : Effect := .load i (scan 0 payload i + 1)

/-- The read of `strchr(payload + i, '|')`. -/
def loadField (payload : Bytes) (i : ℕ) : Effect := .load i (scan separator payload i + 1)

/-- `handle_handshake` from the check of the signature on. -/
def acceptHandshake (env : Env) (peer : P2PPeer) (identity : OrcaIdentity)
    (id pubkey signature : CString) (sh : Shared) : Handled :=
  let dataToVerify := handshakeData id identity.name identity.publicKey env.now
  if !env.crypto.rsaVerifyString dataToVerify signature pubkey then ⟨-1, peer, sh⟩
  else
    let h := establishSecureChannel env { peer with publicKey := pubkey, isSecure := true }
      (sh.record [.copy 4096 pubkey.length])
    if h.ret < 0 then ⟨-1, h.peer, h.shared⟩
    else
      let peer := { h.peer with state := .established, lastActivity := env.now }
      ⟨0, peer, h.shared.onStore fun s =>
        s |>.call (stateUpdatePeer env.now peer.id.val .friend)
          |>.call (stateSetOnline env.now peer.id.val true)
          |>.call (stateSetIp peer.id.val peer.ip.val)
          |>.call (stateSetPort peer.id.val peer.port)
          |>.push (eventCreate env.now .acceptConfirm peer.id.val)⟩

/-- `handle_handshake` -/
def handleHandshake (env : Env) (peer : P2PPeer) (msg : P2PMessage) (sh : Shared) : Handled :=
  let sh := sh.record [loadField msg.payload 0]
  match strchr msg.payload 0 separator with
  | none => ⟨-1, peer, sh⟩
  | some bar =>
    let payload := msg.payload.set bar 0
    let pubkey := bar + 1
    let sh := sh.record [.store bar, loadField payload pubkey]
    match strchr payload pubkey separator with
    | none => ⟨-1, peer, sh⟩
    | some bar' =>
      let payload := payload.set bar' 0
      let signature := bar' + 1
      let sh := sh.record [.store bar']
      match env.identity with
      | none => ⟨-1, peer, sh⟩
      | some identity =>
        acceptHandshake env peer identity (strAt payload 0) (strAt payload pubkey)
          (strAt payload signature)
          (sh.record [loadStr payload 0, loadStr payload pubkey, loadStr payload signature])

/-- `payload[payload_len] = '\0'`, which outside the buffer is not seen again. -/
def terminated (msg : P2PMessage) : Bytes := msg.payload.set msg.payloadLen.toNat 0

/-- The payload as the string that the store of the terminator makes of it. -/
def payloadText (msg : P2PMessage) : CString := strAt (terminated msg) 0

/-- The store of the terminator and the reads of the string before it. -/
def textEffects (msg : P2PMessage) : List Effect :=
  [.terminate msg.payloadLen.toNat,
    .load 0 (min (scan 0 (terminated msg) 0 + 1) msg.payloadLen.toNat)]

/-- Push the event of a received text and log it, as both branches of `handle_data` do. -/
def receiveText (env : Env) (peer : P2PPeer) (text : CString) (sh : Shared) : Shared :=
  let event :=
    { eventCreate env.now .messageReceived peer.id.val with
      fromId := peer.id.val
      message := text }
  (sh.record [.copy idSize peer.id.val.length, .copy 4096 text.length]).onStore fun s =>
    s |>.push event |>.call (stateAddMessage peer.id.val text)

/-- `sizeof(nonce) + sizeof(tag)`. -/
def sealSize : ℕ := 28

/-- `orca_aes_gcm_decrypt` on the slices of a payload of `nonce || tag || ciphertext`. -/
def openPayload (env : Env) (peer : P2PPeer) (msg : P2PMessage) : Option Bytes :=
  env.crypto.aesGcmDecrypt
    ((msg.payload.drop sealSize).take (msg.payloadLen.toNat - sealSize)) peer.aesKey
    (msg.payload.take 12) ((msg.payload.drop 12).take 16)

/-- `handle_data` -/
def handleData (env : Env) (peer : P2PPeer) (msg : P2PMessage) (sh : Shared) : Handled :=
  if peer.isSecure ∧ sealSize < msg.payloadLen.toNat then
    let sh := sh.record [.load 0 12, .load 12 28, .load sealSize msg.payloadLen.toNat]
    match openPayload env peer msg with
    | none => ⟨-1, peer, sh⟩
    | some plaintext =>
      ⟨0, { peer with lastActivity := env.now }, receiveText env peer (strAt plaintext 0) sh⟩
  else
    ⟨0, { peer with lastActivity := env.now },
      receiveText env peer (payloadText msg) (sh.record (textEffects msg))⟩

/-- `handle_add_request` -/
def handleAddRequest (env : Env) (peer : P2PPeer) (msg : P2PMessage) (sh : Shared) : Handled :=
  let fromId := payloadText msg
  let event :=
    { eventCreate env.now .addRequest fromId with
      fromId := fromId
      ip := peer.ip.val
      port := peer.port }
  ⟨0, peer,
    (sh.record (textEffects msg ++ [.copy idSize fromId.length])).onStore fun s =>
      s |>.call (stateUpdatePeer env.now fromId .requestReceived)
        |>.call (stateSetIp fromId peer.ip.val)
        |>.call (stateSetPort fromId peer.port)
        |>.push event⟩

/-- `handle_accept_confirm` -/
def handleAcceptConfirm (env : Env) (peer : P2PPeer) (msg : P2PMessage) (sh : Shared) : Handled :=
  let fromId := payloadText msg
  ⟨0, peer,
    (sh.record (textEffects msg)).onStore fun s =>
      s |>.call (stateUpdatePeer env.now fromId .friend)
        |>.call (stateSetOnline env.now fromId true)
        |>.call (stateSetIp fromId peer.ip.val)
        |>.call (stateSetPort fromId peer.port)
        |>.deliver env.now fromId
        |>.push (eventCreate env.now .acceptConfirm fromId)⟩

/-- `handle_reject_confirm` -/
def handleRejectConfirm (env : Env) (peer : P2PPeer) (msg : P2PMessage) (sh : Shared) : Handled :=
  let fromId := payloadText msg
  ⟨0, peer,
    (sh.record (textEffects msg)).onStore fun s =>
      s |>.call (stateRemovePeer fromId)
        |>.push (eventCreate env.now .rejectConfirm fromId)⟩

/-- The `switch` of `process_message`. -/
def dispatch (env : Env) (peer : P2PPeer) (msg : P2PMessage) (sh : Shared) : Handled :=
  match P2PMessageType.ofCode msg.type with
  | some .handshake => handleHandshake env peer msg sh
  | some .handshakeResponse =>
    ⟨0, { peer with state := .established, isSecure := true, lastActivity := env.now }, sh⟩
  | some .data => handleData env peer msg sh
  | some .keepalive => ⟨0, { peer with lastActivity := env.now }, sh⟩
  | some .close =>
    ⟨0, { peer with state := .disconnected }, sh.record [.disconnected peer.id]⟩
  | some .addRequest => handleAddRequest env peer msg sh
  | some .acceptConfirm => handleAcceptConfirm env peer msg sh
  | some .rejectConfirm => handleRejectConfirm env peer msg sh
  | none => ⟨-1, peer, sh⟩

/-- The checks of `process_message` before its `switch`. -/
def headerOk (msg : P2PMessage) (msgLen : ℕ) : Bool :=
  decide (headerSize ≤ msgLen) && msg.magic == p2pMagic && msg.version == p2pProtocolVersion

/-- `process_message` -/
def processMessage (env : Env) (peer : P2PPeer) (msg : P2PMessage) (msgLen : ℕ) (sh : Shared) :
    Handled :=
  if headerOk msg msgLen then dispatch env peer msg sh else ⟨-1, peer, sh⟩

section

variable {msg : P2PMessage}

theorem processMessage_accepted {msgLen : ℕ} (header : headerOk msg msgLen = true) (env : Env)
    (peer : P2PPeer) (sh : Shared) :
    processMessage env peer msg msgLen sh = dispatch env peer msg sh :=
  if_pos header

theorem processMessage_rejected {msgLen : ℕ} (header : ¬ headerOk msg msgLen = true) (env : Env)
    (peer : P2PPeer) (sh : Shared) : processMessage env peer msg msgLen sh = ⟨-1, peer, sh⟩ :=
  if_neg header

theorem dispatch_handshake (type : msg.type = P2PMessageType.handshake.code) (env : Env)
    (peer : P2PPeer) (sh : Shared) : dispatch env peer msg sh = handleHandshake env peer msg sh := by
  unfold dispatch
  rw [type, P2PMessageType.ofCode_code]

theorem processMessage_handshake (type : msg.type = P2PMessageType.handshake.code) (env : Env)
    (peer : P2PPeer) (msgLen : ℕ) (sh : Shared) :
    processMessage env peer msg msgLen sh = ⟨-1, peer, sh⟩ ∨
      processMessage env peer msg msgLen sh = handleHandshake env peer msg sh := by
  by_cases header : headerOk msg msgLen = true
  · rw [processMessage_accepted header, dispatch_handshake type]
    exact Or.inr rfl
  · exact Or.inl (processMessage_rejected header env peer sh)

theorem dispatch_data (type : msg.type = P2PMessageType.data.code) (env : Env) (peer : P2PPeer)
    (sh : Shared) : dispatch env peer msg sh = handleData env peer msg sh := by
  unfold dispatch
  rw [type, P2PMessageType.ofCode_code]

/-- A CLOSE disconnects the record and does nothing else. -/
theorem dispatch_close (type : msg.type = P2PMessageType.close.code) (env : Env) (peer : P2PPeer)
    (sh : Shared) :
    dispatch env peer msg sh =
      ⟨0, { peer with state := .disconnected }, sh.record [.disconnected peer.id]⟩ := by
  unfold dispatch
  rw [type, P2PMessageType.ofCode_code]

end

/-! ## What a call can do -/

/-- `send_message` does nothing or sends one datagram, and then notes the time. -/
theorem sendMessage_cases (env : Env) (peer : P2PPeer) (type : P2PMessageType) (payload : Bytes)
    (sh : Shared) :
    sendMessage env peer type payload sh = ⟨-1, peer, sh⟩ ∨
      ((0 ≤ peer.udpSocket ∧
          (peer.state = .established ∨ type = .handshake ∨ type = .handshakeResponse)) ∧
        sendMessage env peer type payload sh =
          ⟨0, { peer with lastActivity := env.now },
            sh.record [.sendto peer.udpSocket (P2PMessage.make env.now type payload).toBytes peer.addr,
              .sent peer.id.val payload]⟩) := by
  unfold sendMessage
  by_cases hsock : peer.udpSocket < 0
  · rw [if_pos hsock]
    exact Or.inl rfl
  · rw [if_neg hsock]
    by_cases gate : peer.state ≠ .established ∧ type ≠ .handshake ∧ type ≠ .handshakeResponse
    · rw [if_pos gate]
      exact Or.inl rfl
    · rw [if_neg gate]
      dsimp only
      split_ifs
      · exact Or.inr ⟨⟨by omega, by tauto⟩, rfl⟩
      · exact Or.inl rfl

theorem generateSessionKeys_cases (env : Env) (peer : P2PPeer) (sh : Shared) :
    (sessionKeys env peer.publicKey = none ∧ generateSessionKeys env peer sh = ⟨-1, peer, sh⟩) ∨
      ∃ sharedSecret aesKey, sessionKeys env peer.publicKey = some (sharedSecret, aesKey) ∧
        generateSessionKeys env peer sh =
          ⟨0, { peer with sharedSecret := sharedSecret, aesKey := aesKey },
            sh.record [.keyed peer.id aesKey]⟩ := by
  unfold generateSessionKeys
  cases hk : sessionKeys env peer.publicKey with
  | none => exact Or.inl ⟨rfl, rfl⟩
  | some keys => exact Or.inr ⟨keys.1, keys.2, rfl, rfl⟩

/-- Either no keys, or keys and no reply, or keys and a reply. -/
theorem establishSecureChannel_cases (env : Env) (peer : P2PPeer) (sh : Shared) :
    (sessionKeys env peer.publicKey = none ∧ establishSecureChannel env peer sh = ⟨-1, peer, sh⟩) ∨
      ∃ sharedSecret aesKey, sessionKeys env peer.publicKey = some (sharedSecret, aesKey) ∧
        (establishSecureChannel env peer sh =
            ⟨-1, { peer with sharedSecret := sharedSecret, aesKey := aesKey },
              sh.record [.keyed peer.id aesKey]⟩ ∨
          ∃ datagram, establishSecureChannel env peer sh =
            ⟨0, { peer with
                sharedSecret := sharedSecret, aesKey := aesKey, lastActivity := env.now },
              (sh.record [.keyed peer.id aesKey]).record
                [.sendto peer.udpSocket datagram peer.addr, .sent peer.id.val [1]]⟩) := by
  unfold establishSecureChannel
  rcases generateSessionKeys_cases env peer sh with ⟨hk, hg⟩ | ⟨sharedSecret, aesKey, hk, hg⟩
  · rw [hg]
    exact Or.inl ⟨hk, rfl⟩
  · rw [hg]
    refine Or.inr ⟨sharedSecret, aesKey, hk, ?_⟩
    simp only [if_neg (by decide : ¬ (0 : ℤ) < 0)]
    rcases sendMessage_cases env { peer with sharedSecret := sharedSecret, aesKey := aesKey }
      .handshakeResponse [1] (sh.record [.keyed peer.id aesKey]) with hs | ⟨-, hs⟩
    · exact Or.inl hs
    · exact Or.inr ⟨_, hs⟩

/-- The terminator bounds the text. -/
theorem length_payloadText_le (msg : P2PMessage) :
    (payloadText msg).length ≤ msg.payloadLen.toNat := by
  unfold payloadText
  by_cases hlen : msg.payloadLen.toNat < msg.payload.length
  · have nul : (terminated msg)[msg.payloadLen.toNat]? = some 0 := by
      unfold terminated
      rw [List.getElem?_set_self hlen]
    exact length_strAt_le (Nat.zero_le _) nul
  · have bound : (strAt (terminated msg) 0).length ≤ (terminated msg).length - 0 :=
      length_strAt_le_length
    have same : (terminated msg).length = msg.payload.length := by
      unfold terminated
      rw [List.length_set]
    omega

/-- The fields `handle_handshake` finds in a payload: id, public key and signature. -/
def handshakeFields (payload : Bytes) : Option (CString × CString × CString) :=
  (strchr payload 0 separator).bind fun bar =>
    (strchr (payload.set bar 0) (bar + 1) separator).map fun bar' =>
      let payload := (payload.set bar 0).set bar' 0
      (strAt payload 0, strAt payload (bar + 1), strAt payload (bar' + 1))

/-- Effects on the payload and on local arrays, which say nothing about sessions or sending. -/
def Effect.isAccess : Effect → Bool
  | .load _ _ | .store _ | .terminate _ | .copy _ _ => true
  | _ => false

/-- A handshake is dropped while it is parsed, or its signature is looked at. -/
theorem handleHandshake_cases (env : Env) (peer : P2PPeer) (msg : P2PMessage) (sh : Shared) :
    ∃ es : List Effect, (∀ e ∈ es, e.isAccess = true) ∧
      (((handshakeFields msg.payload = none ∨ env.identity = none) ∧
          handleHandshake env peer msg sh = ⟨-1, peer, sh.record es⟩) ∨
        ∃ id pubkey signature identity,
          handshakeFields msg.payload = some (id, pubkey, signature) ∧
          env.identity = some identity ∧
          handleHandshake env peer msg sh =
            acceptHandshake env peer identity id pubkey signature (sh.record es)) := by
  unfold handleHandshake handshakeFields
  cases hbar : strchr msg.payload 0 separator with
  | none =>
    exact ⟨[loadField msg.payload 0], by simp [loadField, Effect.isAccess], Or.inl ⟨Or.inl rfl, rfl⟩⟩
  | some bar =>
    cases hbar' : strchr (msg.payload.set bar 0) (bar + 1) separator with
    | none =>
      refine ⟨[loadField msg.payload 0, .store bar, loadField (msg.payload.set bar 0) (bar + 1)],
        by simp [loadField, Effect.isAccess], Or.inl ⟨Or.inl (by simp [hbar']), ?_⟩⟩
      simp [hbar', Shared.record]
    | some bar' =>
      cases hid : env.identity with
      | none =>
        refine ⟨[loadField msg.payload 0, .store bar, loadField (msg.payload.set bar 0) (bar + 1),
          .store bar'], by simp [loadField, Effect.isAccess], Or.inl ⟨Or.inr rfl, ?_⟩⟩
        simp [hbar', Shared.record]
      | some identity =>
        refine ⟨[loadField msg.payload 0, .store bar, loadField (msg.payload.set bar 0) (bar + 1),
          .store bar', loadStr ((msg.payload.set bar 0).set bar' 0) 0,
          loadStr ((msg.payload.set bar 0).set bar' 0) (bar + 1),
          loadStr ((msg.payload.set bar 0).set bar' 0) (bar' + 1)],
          by simp [loadField, loadStr, Effect.isAccess],
          Or.inr ⟨strAt ((msg.payload.set bar 0).set bar' 0) 0,
            strAt ((msg.payload.set bar 0).set bar' 0) (bar + 1),
            strAt ((msg.payload.set bar 0).set bar' 0) (bar' + 1), identity,
            by simp only [Option.bind_some, hbar', Option.map_some], rfl, ?_⟩⟩
        simp [hbar', Shared.record]

/-- What an accepted handshake tells the state manager and the event loop. -/
def announceFriend (env : Env) (peer : P2PPeer) (s : Store) : Store :=
  s |>.call (stateUpdatePeer env.now peer.id.val .friend)
    |>.call (stateSetOnline env.now peer.id.val true)
    |>.call (stateSetIp peer.id.val peer.ip.val)
    |>.call (stateSetPort peer.id.val peer.port)
    |>.push (eventCreate env.now .acceptConfirm peer.id.val)

/-- The ways out of `handle_handshake` after the fields are known: the signature does not verify, no
keys, keys and no reply, or all of it. -/
theorem acceptHandshake_cases (env : Env) (peer : P2PPeer) (identity : OrcaIdentity)
    (id pubkey signature : CString) (sh : Shared) :
    (env.crypto.rsaVerifyString (handshakeData id identity.name identity.publicKey env.now)
        signature pubkey = false ∧
      acceptHandshake env peer identity id pubkey signature sh = ⟨-1, peer, sh⟩) ∨
    (env.crypto.rsaVerifyString (handshakeData id identity.name identity.publicKey env.now)
        signature pubkey = true ∧
      ((sessionKeys env pubkey = none ∧
          acceptHandshake env peer identity id pubkey signature sh =
            ⟨-1, { peer with publicKey := pubkey, isSecure := true },
              sh.record [.copy 4096 pubkey.length]⟩) ∨
        ∃ sharedSecret aesKey, sessionKeys env pubkey = some (sharedSecret, aesKey) ∧
          (acceptHandshake env peer identity id pubkey signature sh =
              ⟨-1, { peer with
                  publicKey := pubkey, isSecure := true, sharedSecret := sharedSecret,
                  aesKey := aesKey },
                (sh.record [.copy 4096 pubkey.length]).record [.keyed peer.id aesKey]⟩ ∨
            ∃ datagram, acceptHandshake env peer identity id pubkey signature sh =
              ⟨0, { peer with
                  publicKey := pubkey, isSecure := true, sharedSecret := sharedSecret,
                  aesKey := aesKey, state := .established, lastActivity := env.now },
                (((sh.record [.copy 4096 pubkey.length]).record [.keyed peer.id aesKey]).record
                  [.sendto peer.udpSocket datagram peer.addr, .sent peer.id.val [1]]).onStore
                    (announceFriend env peer)⟩))) := by
  unfold acceptHandshake
  dsimp only
  cases hv : env.crypto.rsaVerifyString
    (handshakeData id identity.name identity.publicKey env.now) signature pubkey with
  | false => exact Or.inl ⟨rfl, rfl⟩
  | true =>
    refine Or.inr ⟨rfl, ?_⟩
    simp only [Bool.not_true, Bool.false_eq_true, if_false]
    rcases establishSecureChannel_cases env { peer with publicKey := pubkey, isSecure := true }
      (sh.record [.copy 4096 pubkey.length]) with ⟨hk, he⟩ | ⟨sharedSecret, aesKey, hk, he | ⟨datagram, he⟩⟩
    · exact Or.inl ⟨hk, by rw [he]; rfl⟩
    · exact Or.inr ⟨sharedSecret, aesKey, hk, Or.inl (by rw [he]; rfl)⟩
    · exact Or.inr ⟨sharedSecret, aesKey, hk, Or.inr ⟨datagram, by rw [he]; rfl⟩⟩

/-! ## What a message does to the record of its sender -/

/-- The record keeps its address and its socket, and of the messages only a CLOSE disconnects it. -/
structure P2PPeer.Handles (p : P2PPeer) (msg : P2PMessage) (p' : P2PPeer) : Prop where
  ip : p'.ip = p.ip
  port : p'.port = p.port
  udpSocket : p'.udpSocket = p.udpSocket
  state : p'.state = p.state ∨ p'.state = .established ∨
    (p'.state = .disconnected ∧ msg.type = P2PMessageType.close.code)

theorem P2PPeer.Handles.refl (p : P2PPeer) (msg : P2PMessage) : p.Handles msg p :=
  ⟨rfl, rfl, rfl, Or.inl rfl⟩

theorem handleHandshake_handles (env : Env) (peer : P2PPeer) (msg : P2PMessage) (sh : Shared) :
    peer.Handles msg (handleHandshake env peer msg sh).peer := by
  obtain ⟨es, -, ⟨-, h⟩ | ⟨id, pubkey, signature, identity, -, -, h⟩⟩ :=
    handleHandshake_cases env peer msg sh
  · rw [h]
    exact .refl peer msg
  · rw [h]
    rcases acceptHandshake_cases env peer identity id pubkey signature (sh.record es) with
      ⟨-, h⟩ | ⟨-, ⟨-, h⟩ | ⟨_, _, -, h | ⟨_, h⟩⟩⟩ <;> rw [h]
    · exact .refl peer msg
    · exact ⟨rfl, rfl, rfl, Or.inl rfl⟩
    · exact ⟨rfl, rfl, rfl, Or.inl rfl⟩
    · exact ⟨rfl, rfl, rfl, Or.inr (Or.inl rfl)⟩

theorem handleData_handles (env : Env) (peer : P2PPeer) (msg : P2PMessage) (sh : Shared) :
    peer.Handles msg (handleData env peer msg sh).peer := by
  unfold handleData
  split_ifs
  · cases openPayload env peer msg with
    | none => exact .refl peer msg
    | some plaintext => exact ⟨rfl, rfl, rfl, Or.inl rfl⟩
  · exact ⟨rfl, rfl, rfl, Or.inl rfl⟩

theorem dispatch_handles (env : Env) (peer : P2PPeer) (msg : P2PMessage) (sh : Shared) :
    peer.Handles msg (dispatch env peer msg sh).peer := by
  unfold dispatch
  cases type : P2PMessageType.ofCode msg.type with
  | none => exact .refl peer msg
  | some type' =>
    cases type' with
    | handshake => exact handleHandshake_handles env peer msg sh
    | handshakeResponse => exact ⟨rfl, rfl, rfl, Or.inr (Or.inl rfl)⟩
    | data => exact handleData_handles env peer msg sh
    | keepalive => exact ⟨rfl, rfl, rfl, Or.inl rfl⟩
    | close =>
      exact ⟨rfl, rfl, rfl, Or.inr (Or.inr ⟨rfl, P2PMessageType.code_of_ofCode type⟩)⟩
    | addRequest | acceptConfirm | rejectConfirm => exact .refl peer msg

theorem processMessage_handles (env : Env) (peer : P2PPeer) (msg : P2PMessage) (msgLen : ℕ)
    (sh : Shared) : peer.Handles msg (processMessage env peer msg msgLen sh).peer := by
  by_cases header : headerOk msg msgLen = true
  · rw [processMessage_accepted header]
    exact dispatch_handles env peer msg sh
  · rw [processMessage_rejected header]
    exact .refl peer msg

end Orcashi
