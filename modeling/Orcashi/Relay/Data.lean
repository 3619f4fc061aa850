import Orcashi.Relay.Addressing

/-!
# Data through a relay

What `relay_send` puts into a packet, what `relay_recv` takes out of one and what the listener makes of
one.  Each side draws its own secret, `relay_send` encrypts with it if its first byte is not zero, and
`relay_recv` never decrypts.
-/

namespace Orcashi

open CMemory

/-! ## Packets -/

/-- A packet in a buffer is read as it was written; the payload goes on into what lies behind. -/
theorem RelayPacket.ofBuffer_toBytes (heap : UInt8 × UInt8 × UInt8 × UInt8) (p : RelayPacket)
    (stale : Bytes) :
    ofBuffer (p.toBytes heap ++ stale) =
      { p with payload := p.payload ++ ([heap.2.2.1, heap.2.2.2] ++ stale) } := by
  have magic : readLe32 (p.toBytes heap ++ stale) 0 = p.magic := readLe32_eq rfl
  have sessionId : readLe32 (p.toBytes heap ++ stale) 8 = p.sessionId := readLe32_eq rfl
  have sequence : readLe32 (p.toBytes heap ++ stale) 12 = p.sequence := readLe32_eq rfl
  have flags : readLe32 (p.toBytes heap ++ stale) 16 = p.flags := readLe32_eq rfl
  have payloadLen : readLe16 (p.toBytes heap ++ stale) 20 = p.payloadLen := readLe16_eq rfl
  have payload : (p.toBytes heap ++ stale).drop relayPayloadOffset =
      p.payload ++ ([heap.2.2.1, heap.2.2.2] ++ stale) := by
    rw [← List.append_assoc]
    rfl
  unfold ofBuffer
  rw [magic, sessionId, sequence, flags, payloadLen, payload]
  rfl

theorem RelayPacket.length_toBytes (heap : UInt8 × UInt8 × UInt8 × UInt8) (p : RelayPacket) :
    (p.toBytes heap).length = relayPacketSize + p.payload.length := by
  simp only [toBytes, le32, le16, List.length_append, List.length_cons, List.length_nil,
    relayPacketSize]
  omega

/-- What `relay_recv` makes of a DATA packet of its session. -/
theorem relayRecv_data {env env' : RelayEnv} {peerId : CString} {mgr : RelayManager}
    {c : Cursor RelaySession} (found : relayFindSession peerId mgr = some c)
    (established : c.val.state = .established) {s : RelaySession}
    (number : s.sessionId = c.val.sessionId) {payload : Bytes}
    (short : relayPacketSize + payload.length ≤ relayBufferSize) {maxLen : ℕ} (some_ : maxLen ≠ 0)
    (stale : Bytes) :
    relayRecv env' peerId maxLen
        (.datagram ((RelayPacket.make env s relayPktData payload).toBytes env.heap)) stale mgr =
      (((min payload.length maxLen : ℕ) : ℤ), payload.take maxLen,
        mgr.write c { c.val with lastActivity := env'.now }) := by
  have size := RelayPacket.length_toBytes env.heap (RelayPacket.make env s relayPktData payload)
  have payloadOf : (RelayPacket.make env s relayPktData payload).payload = payload := rfl
  rw [payloadOf] at size
  have len : payload.length.toUInt16.toNat = payload.length := by
    rw [Nat.toUInt16_eq, UInt16.toNat_ofNat']
    unfold relayPacketSize relayBufferSize at short
    omega
  have taken (rest : Bytes) : (payload ++ rest).take (min payload.length maxLen) =
      payload.take maxLen := by
    rw [List.take_append_of_le_length (Nat.min_le_left _ _)]
    rcases Nat.le_total payload.length maxLen with h | h
    · rw [Nat.min_eq_left h, List.take_length, List.take_of_length_le h]
    · rw [Nat.min_eq_right h]
  have magic (memory : Bytes) :
      ¬ ({ RelayPacket.make env s relayPktData payload with payload := memory } : RelayPacket).magic
        ≠ relayMagic :=
    not_not_intro rfl
  have ours (memory : Bytes) :
      ¬ ({ RelayPacket.make env s relayPktData payload with payload := memory } : RelayPacket).sessionId
        ≠ c.val.sessionId :=
    not_not_intro number
  unfold relayRecv
  rw [if_neg some_, found]
  dsimp only
  rw [if_neg (not_not_intro established), List.take_of_length_le (by rw [size]; exact short),
    RelayPacket.ofBuffer_toBytes, size, if_neg (by omega), if_neg (magic _), if_neg (ours _)]
  refine (if_pos rfl).trans ?_
  show (((min payload.length.toUInt16.toNat maxLen : ℕ) : ℤ),
    (payload ++ _).take (min payload.length.toUInt16.toNat maxLen), _) = _
  rw [len, taken]

/-- What `relay_send` comes to in an established session. -/
theorem relaySend_established {env : RelayEnv} {peerId : CString} {mgr : RelayManager}
    {c : Cursor RelaySession} (found : relayFindSession peerId mgr = some c)
    (established : c.val.state = .established) {data : Bytes} (some_ : data ≠ []) :
    relaySend env peerId data mgr =
      if c.val.encrypts then
        match env.crypto.aesGcmEncrypt data c.val.sharedSecret.val env.nonce with
        | none => some ⟨-1, mgr, []⟩
        | some (tag, ciphertext) =>
          (relaySendPacket env relayPktData (env.nonce ++ tag ++ ciphertext) c.val).map fun r =>
            ⟨r.ret, mgr.write c r.left, r.sent⟩
      else
        (relaySendPacket env relayPktData data c.val).map fun r => ⟨r.ret, mgr.write c r.left, r.sent⟩ := by
  unfold relaySend
  rw [if_neg some_, found]
  exact if_neg (not_not_intro established)

/-- A packet goes out through the socket of the session, if the session has one. -/
theorem relaySendPacket_eq (env : RelayEnv) (type : UInt8) (payload : Bytes) (s : RelaySession) :
    relaySendPacket env type payload s =
      if 0 < s.socketFd then
        some
          (if env.sendto s.socketFd ((RelayPacket.make env s type payload).toBytes env.heap)
              (.make s.ip.val s.port) then
            ⟨0, { s with lastActivity := env.now },
              [(RelayPacket.make env s type payload).toBytes env.heap]⟩
          else ⟨-1, s, []⟩)
      else none := by
  unfold relaySendPacket relaySendSocket
  by_cases socket : 0 < s.socketFd
  · rw [if_pos socket, if_pos socket]
    rfl
  · rw [if_neg socket, if_neg socket]
    rfl

/-! ## From end to end -/

/-- A seal adds a tag of sixteen bytes, and the ciphertext is as long as the data. -/
def Crypto.SealsLength (crypto : Crypto) : Prop :=
  ∀ data key nonce tag ciphertext, crypto.aesGcmEncrypt data key nonce = some (tag, ciphertext) →
    tag.length = 16 ∧ ciphertext.length = data.length

/-- Two managers find the ends of one session: both established, both secure, with one number. -/
structure RelayLinked (a : RelayManager) (p : CString) (ca : Cursor RelaySession) (b : RelayManager)
    (q : CString) (cb : Cursor RelaySession) : Prop where
  sender : relayFindSession p a = some ca
  receiver : relayFindSession q b = some cb
  established : ca.val.state = .established ∧ cb.val.state = .established
  secure : ca.val.isSecure = true ∧ cb.val.isSecure = true
  number : ca.val.sessionId = cb.val.sessionId

/-- `relay_send` stays within its memory, and if it returns 0, `relay_recv` gives every buffer the data
fit into exactly the data. -/
def Delivers (env : RelayEnv) (a : RelayManager) (p : CString) (data : Bytes) (b : RelayManager)
    (q : CString) : Prop :=
  ∃ out, relaySend env p data a = some out ∧
    (out.ret = 0 → ∀ datagram ∈ out.sent, ∀ (env' : RelayEnv) (maxLen : ℕ) (stale : Bytes),
      data.length ≤ maxLen →
        (relayRecv env' q maxLen (.datagram datagram) stale b).1 = data.length ∧
          (relayRecv env' q maxLen (.datagram datagram) stale b).2.1 = data)

/-- The packet with the payload leaves through the socket of the session. -/
def PacketLeaves (env : RelayEnv) (payload : Bytes) (s : RelaySession) : Prop :=
  env.sendto s.socketFd ((RelayPacket.make env s relayPktData payload).toBytes env.heap)
    (.make s.ip.val s.port) = true

/-- Where the first byte of the secret is zero, the session has a socket of its own; where it is not,
the data cannot be encrypted, or the session has a socket and the packet does not leave. -/
def DeliversWhen (env : RelayEnv) (data : Bytes) (s : RelaySession) : Prop :=
  if s.sharedSecret.first = 0 then 0 < s.socketFd
  else
    ∀ tag ciphertext, env.crypto.aesGcmEncrypt data s.sharedSecret.val env.nonce =
        some (tag, ciphertext) →
      0 < s.socketFd ∧ ¬ PacketLeaves env (env.nonce ++ tag ++ ciphertext) s

/-- How a packet fares on the way from one end to the other. -/
theorem delivers_packet_iff {env : RelayEnv} {a b : RelayManager} {p q : CString}
    {ca cb : Cursor RelaySession} (linked : RelayLinked a p ca b q cb) {data payload : Bytes}
    (some_ : data ≠ []) (short : relayPacketSize + payload.length ≤ relayBufferSize) :
    (∃ out, (relaySendPacket env relayPktData payload ca.val).map (fun r =>
        (⟨r.ret, a.write ca r.left, r.sent⟩ : RelaySent RelayManager)) = some out ∧
      (out.ret = 0 → ∀ datagram ∈ out.sent, ∀ (env' : RelayEnv) (maxLen : ℕ) (stale : Bytes),
        data.length ≤ maxLen →
          (relayRecv env' q maxLen (.datagram datagram) stale b).1 = data.length ∧
            (relayRecv env' q maxLen (.datagram datagram) stale b).2.1 = data)) ↔
      0 < ca.val.socketFd ∧ (PacketLeaves env payload ca.val → payload = data) := by
  have room : 0 < data.length := List.length_pos_of_ne_nil some_
  have received (env' : RelayEnv) {maxLen : ℕ} (large : data.length ≤ maxLen) (stale : Bytes) :=
    @relayRecv_data env env' q b cb linked.receiver linked.established.2 ca.val linked.number payload
      short maxLen (by omega) stale
  rw [relaySendPacket_eq]
  by_cases socket : 0 < ca.val.socketFd
  · rw [if_pos socket, and_iff_right socket]
    unfold PacketLeaves
    by_cases left : env.sendto ca.val.socketFd
        ((RelayPacket.make env ca.val relayPktData payload).toBytes env.heap)
        (.make ca.val.ip.val ca.val.port) = true
    · rw [if_pos left]
      constructor
      · rintro ⟨out, sent, arrives⟩ -
        cases sent
        -- a buffer with room for the whole payload shows it
        obtain ⟨len, text⟩ := arrives rfl _ (List.mem_singleton_self _) env
          (data.length + payload.length) [] (Nat.le_add_right _ _)
        rw [received env (Nat.le_add_right _ _), List.take_of_length_le (Nat.le_add_left _ _)] at text
        exact text
      · intro same
        refine ⟨_, rfl, ?_⟩
        rintro - datagram sent env' maxLen stale large
        rw [List.mem_singleton.1 sent, received env' large, same left, Nat.min_eq_left large,
          List.take_of_length_le large]
        exact ⟨rfl, rfl⟩
    · rw [if_neg left]
      refine iff_of_true ⟨_, rfl, fun ok => ?_⟩ fun h => absurd h left
      cases ok
  · rw [if_neg socket]
    refine iff_of_false ?_ fun h => socket h.1
    rintro ⟨out, sent, -⟩
    cases sent

/-- What one end sends the other gives to its caller exactly where `DeliversWhen` holds of the session
that sends: it does not encrypt, or nothing leaves. -/
theorem relay_data_iff {env : RelayEnv} {a b : RelayManager} {p q : CString}
    {ca cb : Cursor RelaySession} (linked : RelayLinked a p ca b q cb)
    (seals : env.crypto.SealsLength) (nonce : env.nonce.length = 12) {data : Bytes} (some_ : data ≠ [])
    (short : data.length ≤ 1024) : Delivers env a p data b q ↔ DeliversWhen env data ca.val := by
  have size : relayPacketSize = 24 ∧ relayBufferSize = 4096 := ⟨rfl, rfl⟩
  unfold Delivers DeliversWhen
  rw [relaySend_established linked.sender linked.established.1 some_]
  unfold RelaySession.encrypts
  rw [linked.secure.1, Bool.true_and]
  by_cases zero : ca.val.sharedSecret.first = 0
  · rw [if_pos zero, if_neg (by rw [zero]; decide), delivers_packet_iff linked some_ (by omega)]
    exact and_iff_left fun _ => rfl
  · rw [if_neg zero, if_pos (bne_iff_ne.2 zero)]
    cases sealed : env.crypto.aesGcmEncrypt data ca.val.sharedSecret.val env.nonce with
    | none =>
      refine iff_of_true ⟨_, rfl, fun ok => ?_⟩ (by simp)
      cases ok
    | some r =>
      obtain ⟨tag, ciphertext⟩ := r
      obtain ⟨tagLen, textLen⟩ := seals data _ _ tag ciphertext sealed
      have sealedLen : (env.nonce ++ tag ++ ciphertext).length = 28 + data.length := by
        rw [List.length_append, List.length_append, nonce, tagLen, textLen]
      have other : env.nonce ++ tag ++ ciphertext ≠ data := by
        intro same
        rw [same] at sealedLen
        omega
      dsimp only
      rw [delivers_packet_iff linked some_ (by omega)]
      constructor
      · rintro ⟨socket, same⟩ _ _ h
        cases h
        exact ⟨socket, fun left => other (same left)⟩
      · intro h
        obtain ⟨socket, kept⟩ := h tag ciphertext rfl
        exact ⟨socket, fun left => absurd left kept⟩

/-- The answer to a handshake is one that `relay_connect` takes for a consent. -/
theorem relayResponseText_ok (sid : UInt32) :
    ascii "RELAY_HANDSHAKE_OK" <:+: strAt ((relayResponseText sid).take 511) 0 := by
  have inside : ∀ b ∈ ascii "RELAY_HANDSHAKE_OK", (b != 0) = true :=
    List.all_eq_true.1 (by decide)
  have start : ∃ rest, (relayResponseText sid).take 511 = ascii "RELAY_HANDSHAKE_OK" ++ rest :=
    ⟨((58 :: decimal sid.toNat).take 109).take 493, rfl⟩
  obtain ⟨rest, h⟩ := start
  unfold strAt
  rw [h, List.drop_zero, List.takeWhile_append_of_pos inside]
  exact (List.prefix_append _ _).isInfix

/-- One handshake that both sides complete links them, whatever each of them draws. -/
theorem relay_handshake_links {env env' env'' : RelayEnv} {peerId : CString} {relayId : Option CString}
    {relayIp : CString} {relayPort : ℤ} {a a' b b' : RelayManager} {slot : ℕ}
    {datagram answer : Bytes} {address sender : SockAddrIn} {stale : Bytes} {h : RelayHandshake}
    (dialled : relayConnect env peerId relayId relayIp relayPort a =
      some (.waiting slot datagram address a'))
    (ne : peerId ≠ []) (fits : peerId.length < idSize) (noNul : 0 ∉ peerId) (noColon : 58 ∉ peerId)
    (ownFits : (relayOwnId env a).length < idSize)
    (heard : relayListen env' sender (datagram ++ stale) datagram.length b =
      some ⟨b', some h, some answer⟩) (stranger : relayFindSession peerId b = none) :
    (relayConnectEnd env'' slot (some answer) a').1 = 0 ∧
      ∃ ca cb, RelayLinked (relayConnectEnd env'' slot (some answer) a').2 peerId ca b' peerId cb ∧
        ca.val.sharedSecret = env''.secret ∧ cb.val.sharedSecret = env'.secret := by
  obtain ⟨rfl, c, found, rfl, number⟩ := relayConnect_waiting dialled
  generalize relayNumberFor env peerId a = sid at heard number
  generalize relayOwnId env a = ownId at heard ownFits
  -- the listener read the id and the number back
  have read : h.targetId.val = peerId ∧ h.sessionId = sid ∧
      relayTakeHandshake env' sender h b = ⟨b', some h, some answer⟩ := by
    unfold relayListen at heard
    rw [relayDispatch_text sid fits ownFits] at heard
    split_ifs at heard
    · dsimp only at heard
      rw [relayHandshakeText_eq sid fits ownFits] at heard
      have text : ascii "RELAY_HANDSHAKE" ++ 58 :: (peerId ++ 58 ::
          (decimal sid.toNat ++ 58 :: ownId)) ++ stale = ascii "RELAY_HANDSHAKE" ++ 58 ::
            (peerId ++ 58 :: (decimal sid.toNat ++ 58 :: (ownId ++ stale))) := by
        simp only [List.append_assoc, List.cons_append]
      rw [text, @relayParseHandshake_text ⟨peerId, fits⟩ ownId sid ne noColon noNul stale] at heard
      obtain ⟨parsed, isParsed, heard⟩ := Option.map_eq_some_iff.1 heard
      cases parsed with
      | none => cases heard
      | some h' =>
        have kept : (relayTakeHandshake env' sender h' b).handshake = some h' := by
          unfold relayTakeHandshake
          split <;> rfl
        dsimp only at heard
        rw [heard] at kept
        obtain rfl := Option.some.inj kept
        split at isParsed
        · cases isParsed
        · cases isParsed
        · obtain ⟨fromId, -, same⟩ := Option.map_eq_some_iff.1 isParsed
          cases same
          exact ⟨rfl, rfl, heard⟩
    · cases heard
  obtain ⟨target, numbered, taken⟩ := read
  unfold relayTakeHandshake relayAddSession at taken
  split_ifs at taken
  · cases taken
  obtain ⟨rfl, rfl⟩ : b' = b.write ⟨b.sessions, .fresh env' h.targetId, []⟩
      ((RelaySession.fresh env' h.targetId).accepted env' sender h) ∧
        answer = relayResponseText h.sessionId := by
    cases taken
    exact ⟨rfl, rfl⟩
  have ok : (some (relayResponseText h.sessionId)).any (fun b =>
      decide (ascii "RELAY_HANDSHAKE_OK" <:+: strAt (b.take 511) 0)) = true :=
    decide_eq_true (relayResponseText_ok h.sessionId)
  have ended : relayConnectEnd env'' c.before.length (some (relayResponseText h.sessionId)) a' =
      (0, a'.write c (relayGenerateSessionKeys env''
        { c.val with state := .established, lastActivity := env''.now })) := by
    unfold relayConnectEnd RelayManager.write
    rw [if_pos ok, ← Cursor.toList_of_find found, Cursor.modify_toList]
  rw [ended]
  have atInitiator : relayFindSession peerId (a'.write c (relayGenerateSessionKeys env''
      { c.val with state := .established, lastActivity := env''.now })) = some (c.set _) :=
    Cursor.find_toList_set found (Cursor.find_eq_some found).2.1
  have atTarget := @relayFindSession_write peerId b ⟨b.sessions, .fresh env' h.targetId, []⟩
    (Cursor.find_eq_none_iff.1 stranger)
    ((RelaySession.fresh env' h.targetId).accepted env' sender h) target
  exact ⟨rfl, _, _, ⟨atInitiator, atTarget, ⟨rfl, rfl⟩, ⟨rfl, rfl⟩, number.trans numbered.symm⟩, rfl, rfl⟩

/-- Surroundings in which every packet leaves and data are sealed by sixteen zeros. -/
def RelayEnv.plainCipher (secret : Secret) : RelayEnv :=
  { RelayEnv.failing with
    crypto := { Crypto.failing with aesGcmEncrypt := fun data _ _ => some (List.replicate 16 0, data) }
    nonce := List.replicate 12 0
    sendto := fun _ _ _ => true
    secret := secret }

theorem plainCipher_sealsLength (secret : Secret) : (RelayEnv.plainCipher secret).crypto.SealsLength := by
  intro data key nonce tag ciphertext sealed
  cases sealed
  exact ⟨rfl, rfl⟩

/-- A secret that begins with one. -/
def Secret.one : Secret := ⟨1 :: List.replicate 31 0, rfl⟩

/-- An established session that was given a socket. -/
def sessionOfAlice (secret : Secret) : RelaySession :=
  { RelaySession.fresh .failing ⟨ascii "alice", by decide⟩ with
    ip := ⟨ascii "192.0.2.1", by decide⟩
    port := 9000
    state := .established
    socketFd := 5
    sharedSecret := secret
    isSecure := true }

theorem relay_data_arrives_unencrypted :
    Delivers (.plainCipher .zero) ⟨[sessionOfAlice .zero], .empty, 3⟩ (ascii "alice") (ascii "hi")
      ⟨[sessionOfAlice .one], .empty, 4⟩ (ascii "alice") :=
  (@relay_data_iff (.plainCipher .zero) ⟨[sessionOfAlice .zero], .empty, 3⟩
    ⟨[sessionOfAlice .one], .empty, 4⟩ (ascii "alice") (ascii "alice") ⟨[], sessionOfAlice .zero, []⟩
    ⟨[], sessionOfAlice .one, []⟩ ⟨rfl, rfl, ⟨rfl, rfl⟩, ⟨rfl, rfl⟩, rfl⟩
    (plainCipher_sealsLength .zero) rfl (ascii "hi") (by decide) (by decide)).2
    ((if_pos (by decide)).mpr (by decide))

/-- The program around the relay has given each session a socket. -/
def RelayManager.withSocket (fd : ℤ) (mgr : RelayManager) : RelayManager :=
  { mgr with sessions := mgr.sessions.map fun s => { s with socketFd := fd } }

/-- After Bob's handshake with Alice nothing he sends her arrives: through the relay's own socket it
cannot be sent, and through a socket of its own it arrives sealed. -/
theorem relay_data_arrives_sealed :
    ∃ slot datagram address a b h answer,
      relayConnect (.plainCipher .one) (ascii "alice") none (ascii "192.0.2.1") 9000
          (.init ⟨ascii "bob", by decide⟩ 3) = some (.waiting slot datagram address a) ∧
        relayListen (.plainCipher .zero) ⟨(192, 0, 2, 7), 9000⟩ (datagram ++ [0]) datagram.length
          (.init ⟨ascii "alice", by decide⟩ 4) = some ⟨b, some h, some answer⟩ ∧
        ¬ Delivers (.plainCipher .one) (relayConnectEnd (.plainCipher .one) slot (some answer) a).2
          (ascii "alice") (ascii "hi") b (ascii "alice") ∧
        ¬ Delivers (.plainCipher .one)
          ((relayConnectEnd (.plainCipher .one) slot (some answer) a).2.withSocket 5) (ascii "alice")
          (ascii "hi") b (ascii "alice") := by
  refine ⟨_, _, _, _, _, _, _, rfl, rfl, ?_, ?_⟩
  · rintro ⟨out, sent, -⟩
    cases sent
  · rintro ⟨out, sent, arrives⟩
    cases sent
    obtain ⟨len, -⟩ := arrives rfl _ (List.mem_singleton_self _) .failing 64 [] (by decide)
    exact absurd len (by decide)

end Orcashi
