import Orcashi.Relay.SessionTable

/-!
# What the relay reads of a datagram

`relay_recv`, `relay_process_packet` and the listener compare the number of bytes received with the
size of a header, and then go by `payload_len` and by where a text ends.  Here each of them is given
memory that ends, and has none as its result where it would read behind that.
-/

namespace Orcashi

open CMemory Stdio

/-! ## Memory that ends -/

/-- `len` bytes of the payload from `i` on. -/
def RelayPacket.load (packet : RelayPacket) (i len : ℕ) : Option Bytes :=
  if i + len ≤ packet.payload.length then some ((packet.payload.drop i).take len) else none

/-- `relay_recv` with the `n` bytes at the front of `recv_buffer` as its datagram. -/
def relayRecvWithin (env : RelayEnv) (peerId : CString) (maxLen : ℕ) (recvBuffer : Bytes) (n : ℕ)
    (mgr : RelayManager) : Option (ℤ × Bytes × RelayManager) :=
  if maxLen = 0 then some (-1, [], mgr)
  else
    match relayFindSession peerId mgr with
    | none => some (-1, [], mgr)
    | some c =>
      if c.val.state ≠ .established then some (-1, [], mgr)
      else
        let packet := RelayPacket.ofBuffer recvBuffer
        if n < relayPacketSize then some (-1, [], mgr)
        else if packet.magic ≠ relayMagic then some (-1, [], mgr)
        else if packet.sessionId ≠ c.val.sessionId then some (-1, [], mgr)
        else if packet.type = relayPktData then
          let copyLen := min packet.payloadLen.toNat maxLen
          (packet.load 0 copyLen).map fun data =>
            ((copyLen : ℤ), data, mgr.write c { c.val with lastActivity := env.now })
        else some (0, [], mgr)

/-- The nonce, the tag and the ciphertext that `relay_process_packet` reads, where it decrypts. -/
def relayProcessReads (packet : RelayPacket) (packetLen : ℕ) (s : RelaySession) :
    Option (Option (Bytes × Bytes × Bytes)) :=
  if packetLen < relayPacketSize ∨ packet.magic ≠ relayMagic ∨
      packet.version ≠ relayProtocolVersion then some none
  else if packet.type = relayPktData ∧ s.encrypts = true ∧ 28 ≤ packet.payloadLen.toNat then do
    let nonce ← packet.load 0 12
    let tag ← packet.load 12 16
    let ciphertext ← packet.load 28 (packet.payloadLen.toNat - 28)
    return some (nonce, tag, ciphertext)
  else some none

/-- What the listener reads behind the header of a datagram. -/
inductive RelayRead where
  | nothing
  | payload (read : Option (Bytes × Bytes × Bytes))
  | text (handshake : Option RelayHandshake)

/-- What `relay_listener_thread` reads of the `n` bytes at the front of `buffer`. -/
def relayListenReads (buffer : Bytes) (n : ℕ) (mgr : RelayManager) : Option RelayRead :=
  match relayDispatch buffer n mgr with
  | .ignored => some .nothing
  | .packet c => (relayProcessReads (.ofBuffer buffer) n c.val).map .payload
  | .handshake mem => (relayParseHandshake mem).map .text

/-! ## Packets -/

section Packet

variable {p : Bytes}

/-- The header of a datagram is read within it. -/
theorem ofBuffer_front (header : relayPacketSize ≤ p.length) (stale : Bytes) :
    RelayPacket.ofBuffer (p ++ stale) =
      { RelayPacket.ofBuffer p with payload := (RelayPacket.ofBuffer p).payload ++ stale } := by
  unfold relayPacketSize at header
  unfold RelayPacket.ofBuffer relayPayloadOffset
  rw [readLe32_front (by omega), getD_append_front (by omega), getD_append_front (by omega),
    readLe32_front (by omega), readLe32_front (by omega), readLe32_front (by omega),
    readLe16_front (by omega), List.drop_append_of_le_length (by omega)]

theorem load_eq_some {packet : RelayPacket} {i len : ℕ} (h : i + len ≤ packet.payload.length) :
    packet.load i len = some ((packet.payload.drop i).take len) := if_pos h

theorem load_isSome_iff {packet : RelayPacket} {i len : ℕ} :
    (packet.load i len).isSome ↔ i + len ≤ packet.payload.length := by
  unfold RelayPacket.load
  split_ifs with h <;> simp [h]

theorem load_front {packet : RelayPacket} {i len : ℕ} (h : i + len ≤ packet.payload.length)
    (stale : Bytes) :
    ({ packet with payload := packet.payload ++ stale } : RelayPacket).load i len = packet.load i len := by
  rw [load_eq_some h, load_eq_some]
  · exact congrArg some (take_drop_append_front h stale)
  · rw [List.length_append]
    omega

end Packet

/-- A call with a datagram, given what lies behind the datagram, keeps to the datagram: where nothing
lies behind it, nothing outside is read, and what is read does not depend on what lies behind. -/
structure RelayWithin {α : Type} (call : Bytes → Option α) : Prop where
  reads : (call []).isSome
  same : ∀ stale, call stale = call []

theorem relayWithin_of_eq {α : Type} {call : Bytes → Option α} {r : α}
    (same : ∀ stale, call stale = some r) : RelayWithin call :=
  ⟨(same []) ▸ rfl, fun stale => (same stale).trans (same []).symm⟩

/-! ## Receiving -/

/-- `relay_recv` comes to copying the payload of a datagram. -/
structure RelayDelivers (peerId : CString) (maxLen : ℕ) (p : Bytes) (mgr : RelayManager)
    (c : Cursor RelaySession) : Prop where
  room : maxLen ≠ 0
  found : relayFindSession peerId mgr = some c
  established : c.val.state = .established
  header : relayPacketSize ≤ p.length
  magic : (RelayPacket.ofBuffer p).magic = relayMagic
  session : (RelayPacket.ofBuffer p).sessionId = c.val.sessionId
  data : (RelayPacket.ofBuffer p).type = relayPktData

/-- `relay_recv` keeps to its datagram, and neither reports nor copies more than came behind the header. -/
structure RelayRecvBounded (env : RelayEnv) (peerId : CString) (maxLen : ℕ) (p : Bytes)
    (mgr : RelayManager) : Prop where
  within : RelayWithin fun stale => relayRecvWithin env peerId maxLen (p ++ stale) p.length mgr
  reported : ∀ stale, (relayRecv env peerId maxLen (.datagram p) stale mgr).1 ≤
    (p.length - relayPacketSize : ℕ)
  copied : ∀ stale, (relayRecv env peerId maxLen (.datagram p) stale mgr).2.1.length ≤
    p.length - relayPacketSize

section Recv

variable {env : RelayEnv} {peerId : CString} {maxLen : ℕ} {p : Bytes} {mgr : RelayManager}
  {c : Cursor RelaySession}

theorem relayRecvWithin_delivers (h : RelayDelivers peerId maxLen p mgr c) (stale : Bytes) :
    let copyLen := min (RelayPacket.ofBuffer p).payloadLen.toNat maxLen
    relayRecvWithin env peerId maxLen (p ++ stale) p.length mgr =
      ((RelayPacket.ofBuffer (p ++ stale)).load 0 copyLen).map fun data =>
        ((copyLen : ℤ), data, mgr.write c { c.val with lastActivity := env.now }) := by
  have front := ofBuffer_front h.header stale
  unfold relayRecvWithin
  dsimp only
  rw [if_neg h.room, h.found]
  dsimp only
  rw [if_neg (not_not.2 h.established), if_neg (Nat.not_lt.2 h.header), front]
  dsimp only
  rw [if_neg (not_not.2 h.magic), if_neg (not_not.2 h.session), if_pos h.data]

/-- Any other call returns without a look at a payload. -/
theorem relayRecvWithin_other (h : ∀ c, ¬ RelayDelivers peerId maxLen p mgr c) :
    ∃ ret : ℤ, ret ≤ 0 ∧ ∀ stale, relayRecvWithin env peerId maxLen (p ++ stale) p.length mgr =
      some (ret, [], mgr) := by
  unfold relayRecvWithin
  dsimp only
  by_cases room : maxLen = 0
  · exact ⟨-1, by decide, fun stale => if_pos room⟩
  simp only [if_neg room]
  cases found : relayFindSession peerId mgr with
  | none => exact ⟨-1, by decide, fun stale => rfl⟩
  | some c =>
    dsimp only
    by_cases established : c.val.state = .established
    · simp only [if_neg (not_not.2 established)]
      by_cases header : p.length < relayPacketSize
      · exact ⟨-1, by decide, fun stale => if_pos header⟩
      simp only [if_neg header, ofBuffer_front (Nat.le_of_not_lt header)]
      by_cases magic : (RelayPacket.ofBuffer p).magic = relayMagic
      · simp only [if_neg (not_not.2 magic)]
        by_cases session : (RelayPacket.ofBuffer p).sessionId = c.val.sessionId
        · simp only [if_neg (not_not.2 session)]
          have other : (RelayPacket.ofBuffer p).type ≠ relayPktData := fun data =>
            h c ⟨room, found, established, Nat.le_of_not_lt header, magic, session, data⟩
          exact ⟨0, by decide, fun stale => if_neg other⟩
        · exact ⟨-1, by decide, fun stale => if_pos session⟩
      · exact ⟨-1, by decide, fun stale => if_pos magic⟩
    · exact ⟨-1, by decide, fun stale => if_pos established⟩

/-- Where the memory does not end too early, `relay_recv` is the same. -/
theorem relayRecv_of_within (fits : p.length ≤ relayBufferSize) {stale : Bytes}
    {r : ℤ × Bytes × RelayManager}
    (h : relayRecvWithin env peerId maxLen (p ++ stale) p.length mgr = some r) :
    relayRecv env peerId maxLen (.datagram p) stale mgr = r := by
  unfold relayRecvWithin at h
  unfold relayRecv
  by_cases room : maxLen = 0
  · rw [if_pos room] at h ⊢
    exact Option.some.inj h
  rw [if_neg room] at h ⊢
  cases found : relayFindSession peerId mgr with
  | none =>
    rw [found] at h
    exact Option.some.inj h
  | some c =>
    rw [found] at h
    dsimp only at h ⊢
    rw [List.take_of_length_le fits]
    split_ifs at h ⊢ with established header magic session data
    · exact Option.some.inj h
    · exact Option.some.inj h
    · exact Option.some.inj h
    · exact Option.some.inj h
    · obtain ⟨copied, loaded, rfl⟩ := Option.map_eq_some_iff.1 h
      unfold RelayPacket.load at loaded
      split_ifs at loaded
      rw [← Option.some.inj loaded]
      rfl
    · exact Option.some.inj h

/-- `relay_recv` is bounded exactly if what it copies of a payload came behind the header. -/
theorem relayRecv_bounded_iff (fits : p.length ≤ relayBufferSize) :
    RelayRecvBounded env peerId maxLen p mgr ↔ ∀ c, RelayDelivers peerId maxLen p mgr c →
      min (RelayPacket.ofBuffer p).payloadLen.toNat maxLen ≤ p.length - relayPacketSize := by
  constructor
  · rintro ⟨within, reported, -⟩ c delivers
    obtain ⟨r, read⟩ := Option.isSome_iff_exists.1 within.reads
    have value := relayRecv_of_within fits read
    rw [relayRecvWithin_delivers delivers] at read
    obtain ⟨data, -, rfl⟩ := Option.map_eq_some_iff.1 read
    have bound := reported []
    rw [value] at bound
    exact Int.ofNat_le.1 bound
  · intro bound
    by_cases h : ∃ c, RelayDelivers peerId maxLen p mgr c
    · obtain ⟨c, delivers⟩ := h
      have few := bound c delivers
      have size : (RelayPacket.ofBuffer p).payload.length = p.length - relayPayloadOffset := List.length_drop
      have room : 0 + min (RelayPacket.ofBuffer p).payloadLen.toNat maxLen ≤
          (RelayPacket.ofBuffer p).payload.length := by
        rw [size, relayPayloadOffset]
        rw [relayPacketSize] at few
        omega
      have same (stale : Bytes) := @relayRecvWithin_delivers env _ _ _ _ _ delivers stale
      simp only [ofBuffer_front delivers.header, load_front room, load_eq_some room, Option.map_some]
        at same
      have value (stale : Bytes) := relayRecv_of_within fits (same stale)
      refine ⟨relayWithin_of_eq same, fun stale => ?_, fun stale => ?_⟩
      · rw [value]
        exact Int.ofNat_le.2 few
      · rw [value]
        exact (List.length_take_le _ _).trans few
    · obtain ⟨ret, neg, same⟩ := @relayRecvWithin_other env _ _ _ _ (not_exists.1 h)
      refine ⟨relayWithin_of_eq same, fun stale => ?_, fun stale => ?_⟩
      · rw [relayRecv_of_within fits (same stale)]
        exact Int.le_trans neg (Int.natCast_nonneg _)
      · rw [relayRecv_of_within fits (same stale)]
        exact Nat.zero_le _

end Recv

/-! ## Packets of a session -/

/-- `relay_process_packet` comes to decrypting the payload of a datagram. -/
structure RelayDecrypts (p : Bytes) (s : RelaySession) : Prop where
  header : relayPacketSize ≤ p.length
  magic : (RelayPacket.ofBuffer p).magic = relayMagic
  version : (RelayPacket.ofBuffer p).version = relayProtocolVersion
  data : (RelayPacket.ofBuffer p).type = relayPktData
  encrypts : s.encrypts = true
  long : 28 ≤ (RelayPacket.ofBuffer p).payloadLen.toNat

section Process

variable {p : Bytes} {s : RelaySession}

/-- What is read is what is given to the decryption. -/
theorem relayProcessPacket_decrypts (env : RelayEnv) {packet : RelayPacket} {n : ℕ}
    {nonce tag ciphertext : Bytes}
    (read : relayProcessReads packet n s = some (some (nonce, tag, ciphertext))) :
    (relayProcessPacket env packet n s).2.1 =
      match env.crypto.aesGcmDecrypt ciphertext s.sharedSecret.val nonce tag with
      | some plaintext => .decrypted plaintext
      | none => .nothing := by
  unfold relayProcessReads at read
  have accepted : ¬ (n < relayPacketSize ∨ packet.magic ≠ relayMagic ∨
      packet.version ≠ relayProtocolVersion) := by
    intro bad
    rw [if_pos bad] at read
    cases read
  have decrypts : packet.type = relayPktData ∧ s.encrypts = true ∧ 28 ≤ packet.payloadLen.toNat := by
    by_contra other
    rw [if_neg accepted, if_neg other] at read
    cases read
  rw [if_neg accepted, if_pos decrypts] at read
  obtain ⟨data, encrypts, long⟩ := decrypts
  obtain ⟨nonce', loaded₁, read⟩ := Option.bind_eq_some_iff.1 read
  obtain ⟨tag', loaded₂, read⟩ := Option.bind_eq_some_iff.1 read
  obtain ⟨ciphertext', loaded₃, read⟩ := Option.bind_eq_some_iff.1 read
  cases read
  unfold RelayPacket.load at loaded₁ loaded₂ loaded₃
  split_ifs at loaded₁ loaded₂ loaded₃
  cases loaded₁
  cases loaded₂
  cases loaded₃
  have encrypts : ({ s with lastActivity := env.now } : RelaySession).encrypts = true := encrypts
  unfold relayProcessPacket
  rw [if_neg accepted]
  dsimp only
  rw [if_neg (by rw [data]; decide), if_pos data, if_pos encrypts, if_pos long]
  rfl

theorem relayProcess_within_iff :
    (RelayWithin fun stale => relayProcessReads (.ofBuffer (p ++ stale)) p.length s) ↔
      (RelayDecrypts p s →
        relayPayloadOffset + (RelayPacket.ofBuffer p).payloadLen.toNat ≤ p.length) := by
  have size : (RelayPacket.ofBuffer p).payload.length = p.length - relayPayloadOffset := List.length_drop
  by_cases h : RelayDecrypts p s
  · have accepted : ¬ (p.length < relayPacketSize ∨ (RelayPacket.ofBuffer p).magic ≠ relayMagic ∨
        (RelayPacket.ofBuffer p).version ≠ relayProtocolVersion) := by
      rw [not_or, not_or, not_not, not_not, Nat.not_lt]
      exact ⟨h.header, h.magic, h.version⟩
    have long := h.long
    have header : 24 ≤ p.length := h.header
    rw [relayPayloadOffset] at size ⊢
    constructor
    · rintro ⟨reads, -⟩ -
      unfold relayProcessReads at reads
      rw [List.append_nil, if_neg accepted, if_pos ⟨h.data, h.encrypts, h.long⟩] at reads
      obtain ⟨r, reads⟩ := Option.isSome_iff_exists.1 reads
      obtain ⟨nonce, -, reads⟩ := Option.bind_eq_some_iff.1 reads
      obtain ⟨tag, -, reads⟩ := Option.bind_eq_some_iff.1 reads
      obtain ⟨ciphertext, loaded, -⟩ := Option.bind_eq_some_iff.1 reads
      have bound := load_isSome_iff.1 (Option.isSome_iff_exists.2 ⟨ciphertext, loaded⟩)
      omega
    · intro bound
      have bound := bound h
      have same (stale : Bytes) : relayProcessReads (.ofBuffer (p ++ stale)) p.length s =
          some (some (((RelayPacket.ofBuffer p).payload.drop 0).take 12,
            ((RelayPacket.ofBuffer p).payload.drop 12).take 16,
            ((RelayPacket.ofBuffer p).payload.drop 28).take
              ((RelayPacket.ofBuffer p).payloadLen.toNat - 28))) := by
        unfold relayProcessReads
        rw [ofBuffer_front h.header]
        dsimp only
        rw [if_neg accepted, if_pos ⟨h.data, h.encrypts, h.long⟩, load_front (by omega),
          load_front (by omega), load_front (by omega), load_eq_some (by omega), load_eq_some (by omega),
          load_eq_some (by omega)]
        rfl
      exact relayWithin_of_eq same
  · refine iff_of_true (relayWithin_of_eq (r := none) fun stale => ?_) fun decrypts => absurd decrypts h
    unfold relayProcessReads
    by_cases header : p.length < relayPacketSize
    · rw [if_pos (Or.inl header)]
    rw [ofBuffer_front (Nat.le_of_not_lt header)]
    dsimp only
    split_ifs with bad decrypts
    · rfl
    · rw [not_or, not_or, not_not, not_not] at bad
      exact absurd ⟨Nat.le_of_not_lt header, bad.2.1, bad.2.2, decrypts.1, decrypts.2.1, decrypts.2.2⟩ h
    · rfl

end Process

/-! ## Handshakes -/

/-- The text of a handshake ends in time for the `strtok` calls, and the ids it gives are shorter than
the arrays they are copied into.  A text that begins with another token is not read further. -/
structure HandshakeFits (text : Bytes) : Prop where
  ended : 0 ∈ text ∨ (∃ tag ∈ (tokens 58 text)[0]?, tag ≠ ascii "RELAY_HANDSHAKE") ∨
    4 ≤ (tokens 58 text).length
  target : (tokens 58 text)[0]? = some (ascii "RELAY_HANDSHAKE") →
    ∀ id ∈ (tokens 58 text)[1]?, id.length < idSize
  sender : (tokens 58 text)[0]? = some (ascii "RELAY_HANDSHAKE") →
    ∀ id ∈ (tokens 58 text)[3]?, id.length < idSize

section Handshake

variable {text : Bytes}

theorem copy_isSome_iff {s : CString} : (IdText.copy s).isSome ↔ s.length < idSize := by
  unfold IdText.copy
  split_ifs with h
  · exact iff_of_true rfl h
  · exact iff_of_false Bool.false_ne_true h

/-- What the calls behind the target come to. -/
theorem handshakeRest_isSome_iff {mem : Bytes} {targetId : IdText} :
    (match strtok 58 mem with
      | .outside => none
      | .none => some none
      | .some sid mem =>
        match strtok 58 mem with
        | .outside => none
        | .none => some none
        | .some from_ _ => (IdText.copy from_).bind fun fromId =>
          some (some (RelayHandshake.mk targetId (UInt32.ofInt (atoi sid)) fromId)) :
        Option (Option RelayHandshake)).isSome ↔
      (0 ∈ mem ∨ 2 ≤ (tokens 58 mem).length) ∧ ∀ id ∈ (tokens 58 mem)[1]?, id.length < idSize := by
  obtain ⟨h, nul, none⟩ | ⟨h, nul, none⟩ | ⟨sid, rest, h, toks, same⟩ :=
    strtok_cases (show (58 : UInt8) ≠ 0 by decide) mem
  · rw [h, none]
    simp [nul]
  · rw [h, none]
    simp [nul]
  · rw [h, toks, same]
    dsimp only
    obtain ⟨h, nul, none⟩ | ⟨h, nul, none⟩ | ⟨id, rest', h, toks, same⟩ :=
      strtok_cases (show (58 : UInt8) ≠ 0 by decide) rest
    · rw [h, none]
      simp [nul]
    · rw [h, none]
      simp [nul]
    · rw [h, toks]
      dsimp only
      by_cases short : id.length < idSize
      · obtain ⟨fromId, copied⟩ := Option.isSome_iff_exists.1 (copy_isSome_iff.2 short)
        rw [copied]
        simp [short]
      · have long := mt copy_isSome_iff.1 short
        rw [Option.not_isSome_iff_eq_none.1 long]
        simp [short]

/-- A handshake is read within its memory, into arrays that hold the ids, exactly if it fits. -/
theorem relayParseHandshake_isSome_iff : (relayParseHandshake text).isSome ↔ HandshakeFits text := by
  have fits : HandshakeFits text ↔ (0 ∈ text ∨ (∃ tag ∈ (tokens 58 text)[0]?, tag ≠ ascii "RELAY_HANDSHAKE") ∨
      4 ≤ (tokens 58 text).length) ∧ ((tokens 58 text)[0]? = some (ascii "RELAY_HANDSHAKE") →
    (∀ id ∈ (tokens 58 text)[1]?, id.length < idSize) ∧ ∀ id ∈ (tokens 58 text)[3]?, id.length < idSize) :=
    ⟨fun h => ⟨h.ended, fun tag => ⟨h.target tag, h.sender tag⟩⟩,
      fun h => ⟨h.1, fun tag => (h.2 tag).1, fun tag => (h.2 tag).2⟩⟩
  rw [fits]
  unfold relayParseHandshake
  obtain ⟨h, nul, none⟩ | ⟨h, nul, none⟩ | ⟨tag, rest, h, toks, same⟩ :=
    strtok_cases (show (58 : UInt8) ≠ 0 by decide) text
  · rw [h, none]
    simp [nul]
  · rw [h, none]
    simp [nul]
  · rw [h, toks, same]
    dsimp only
    by_cases other : tag = ascii "RELAY_HANDSHAKE"
    · rw [if_neg (not_not.2 other)]
      obtain ⟨h, nul, none⟩ | ⟨h, nul, none⟩ | ⟨peerId, rest', h, toks, same⟩ :=
        strtok_cases (show (58 : UInt8) ≠ 0 by decide) rest
      · rw [h, none]
        simp [nul, other]
      · rw [h, none]
        simp [nul]
      · rw [h, toks, same]
        dsimp only
        by_cases short : peerId.length < idSize
        · obtain ⟨targetId, copied⟩ := Option.isSome_iff_exists.1 (copy_isSome_iff.2 short)
          rw [copied]
          refine (@handshakeRest_isSome_iff rest' targetId).trans ?_
          simp [other, short]
        · have long := mt copy_isSome_iff.1 short
          rw [Option.not_isSome_iff_eq_none.1 long]
          simp [short, other]
    · rw [if_pos other]
      simp [other]

/-- What lies behind the text is not read. -/
theorem relayParseHandshake_front {r : Option RelayHandshake} (h : relayParseHandshake text = some r)
    (q : Bytes) : relayParseHandshake (text ++ q) = some r := by
  unfold relayParseHandshake at h ⊢
  cases first : strtok 58 text with
  | outside =>
    rw [first] at h
    cases h
  | none =>
    rw [strtok_front (by rw [first]; simp), first]
    rwa [first] at h
  | some tag rest =>
    rw [strtok_front (by rw [first]; simp), first]
    rw [first] at h
    dsimp only at h ⊢
    split_ifs at h ⊢ with other
    · exact h
    cases second : strtok 58 rest with
    | outside =>
      rw [second] at h
      cases h
    | none =>
      rw [strtok_front (by rw [second]; simp), second]
      rwa [second] at h
    | some peerId rest =>
      rw [strtok_front (by rw [second]; simp), second]
      rw [second] at h
      dsimp only at h ⊢
      obtain ⟨targetId, copied, h⟩ := Option.bind_eq_some_iff.1 h
      rw [copied]
      refine Option.bind_eq_some_iff.2 ⟨targetId, rfl, ?_⟩
      cases third : strtok 58 rest with
      | outside =>
        rw [third] at h
        cases h
      | none =>
        rw [strtok_front (by rw [third]; simp), third]
        rwa [third] at h
      | some sid rest =>
        rw [strtok_front (by rw [third]; simp), third]
        rw [third] at h
        dsimp only at h ⊢
        cases fourth : strtok 58 rest with
        | outside =>
          rw [fourth] at h
          cases h
        | none =>
          rw [strtok_front (by rw [fourth]; simp), fourth]
          rwa [fourth] at h
        | some from_ rest =>
          rw [strtok_front (by rw [fourth]; simp), fourth]
          rwa [fourth] at h

end Handshake

/-! ## The listener -/

section Listen

variable {p : Bytes} {mgr : RelayManager}

/-- What the listener takes a datagram for, whatever lies behind. -/
theorem relayDispatch_front (stale : Bytes) :
    relayDispatch (p ++ stale) p.length mgr =
      match relayDispatch p p.length mgr with
      | .ignored => .ignored
      | .packet c => .packet c
      | .handshake mem => .handshake (mem ++ stale) := by
  unfold relayDispatch
  by_cases header : p.length < relayPacketSize
  · rw [if_pos header, if_pos header]
  have enough : 24 ≤ p.length := Nat.le_of_not_lt header
  rw [ofBuffer_front enough, List.take_append_of_le_length (by omega)]
  dsimp only
  rw [if_neg header, if_neg header]
  by_cases magic : (RelayPacket.ofBuffer p).magic = relayMagic
  · rw [if_pos magic, if_pos magic]
    cases Cursor.find (fun s => s.sessionId == (RelayPacket.ofBuffer p).sessionId) mgr.sessions with
    | none =>
      dsimp only
      split_ifs <;> rfl
    | some c => rfl
  · rw [if_neg magic, if_neg magic]
    split_ifs <;> rfl

/-- Among what the listener reads of a datagram, a text or the payload of a packet. -/
structure RelayListenFits (p : Bytes) (mgr : RelayManager) : Prop where
  packet : ∀ c, relayDispatch p p.length mgr = .packet c → RelayDecrypts p c.val →
    relayPayloadOffset + (RelayPacket.ofBuffer p).payloadLen.toNat ≤ p.length
  handshake : ∀ mem, relayDispatch p p.length mgr = .handshake mem → HandshakeFits mem

theorem relayListen_within_iff :
    (RelayWithin fun stale => relayListenReads (p ++ stale) p.length mgr) ↔ RelayListenFits p mgr := by
  have front (stale : Bytes) := @relayDispatch_front p mgr stale
  unfold relayListenReads
  simp only [front]
  cases h : relayDispatch p p.length mgr with
  | ignored =>
    refine iff_of_true (relayWithin_of_eq fun _ => rfl) ⟨fun c packet => ?_, fun mem handshake => ?_⟩
    · cases h.symm.trans packet
    · cases h.symm.trans handshake
  | packet c =>
    refine Iff.trans ⟨fun within => ?_, fun within => ?_⟩
      ((@relayProcess_within_iff p c.val).trans ⟨fun fits => ⟨?_, ?_⟩, fun fits => fits.packet c h⟩)
    · exact ⟨by simpa using within.reads, fun stale =>
        Option.map_injective (fun _ _ => RelayRead.payload.inj) (within.same stale)⟩
    · exact ⟨by simpa using within.reads, fun stale => congrArg (Option.map _) (within.same stale)⟩
    · intro c' packet
      cases h.symm.trans packet
      exact fits
    · intro mem handshake
      cases h.symm.trans handshake
  | handshake mem =>
    dsimp only
    constructor
    · rintro ⟨reads, -⟩
      rw [List.append_nil, Option.isSome_map, relayParseHandshake_isSome_iff] at reads
      refine ⟨fun c packet => ?_, fun mem' handshake => ?_⟩
      · cases h.symm.trans packet
      · cases h.symm.trans handshake
        exact reads
    · intro fits
      obtain ⟨r, read⟩ := Option.isSome_iff_exists.1
        (relayParseHandshake_isSome_iff.2 (fits.handshake mem h))
      have same (stale : Bytes) : (relayParseHandshake (mem ++ stale)).map RelayRead.text =
          some (.text r) := by
        rw [relayParseHandshake_front read, Option.map_some]
      exact relayWithin_of_eq same

/-- The session a packet leaves does not depend on the payload. -/
theorem relayProcessPacket_left (env : RelayEnv) (packet : RelayPacket) (payload : Bytes) (n : ℕ)
    (s : RelaySession) : (relayProcessPacket env { packet with payload := payload } n s).2.2 =
      (relayProcessPacket env packet n s).2.2 := by
  unfold relayProcessPacket
  dsimp only
  by_cases bad : n < relayPacketSize ∨ packet.magic ≠ relayMagic ∨ packet.version ≠ relayProtocolVersion
  · rw [if_pos bad, if_pos bad]
  · rw [if_neg bad, if_neg bad]
    by_cases response : packet.type = relayPktHandshakeResponse
    · rw [if_pos response, if_pos response]
    · rw [if_neg response, if_neg response]
      by_cases data : packet.type = relayPktData
      · rw [if_pos data, if_pos data]
      · rw [if_neg data, if_neg data]

/-- A pass of the listener keeps to its datagram: what it reads, what it leaves and what it answers. -/
structure RelayListenBounded (env : RelayEnv) (sender : SockAddrIn) (p : Bytes) (mgr : RelayManager) :
    Prop where
  reads : RelayWithin fun stale => relayListenReads (p ++ stale) p.length mgr
  heard : RelayWithin fun stale => relayListen env sender (p ++ stale) p.length mgr

theorem relayListen_bounded_iff {env : RelayEnv} {sender : SockAddrIn} :
    RelayListenBounded env sender p mgr ↔ RelayListenFits p mgr := by
  refine ⟨fun bounded => relayListen_within_iff.1 bounded.reads, fun fits =>
    ⟨relayListen_within_iff.2 fits, ?_⟩⟩
  have front (stale : Bytes) := @relayDispatch_front p mgr stale
  unfold relayListen
  simp only [front]
  cases h : relayDispatch p p.length mgr with
  | ignored => exact relayWithin_of_eq fun _ => rfl
  | packet c =>
    have header : relayPacketSize ≤ p.length := by
      by_contra short
      unfold relayDispatch at h
      rw [if_pos (Nat.lt_of_not_le short)] at h
      cases h
    have same (stale : Bytes) : (relayProcessPacket env (.ofBuffer (p ++ stale)) p.length c.val).2.2 =
        (relayProcessPacket env (.ofBuffer p) p.length c.val).2.2 := by
      rw [ofBuffer_front header]
      exact relayProcessPacket_left env _ _ _ _
    simp only [same]
    exact relayWithin_of_eq fun _ => rfl
  | handshake mem =>
    obtain ⟨r, read⟩ := Option.isSome_iff_exists.1
      (relayParseHandshake_isSome_iff.2 (fits.handshake mem h))
    simp only [relayParseHandshake_front read, Option.map_some]
    exact relayWithin_of_eq fun _ => rfl

end Listen

/-- The relay keeps to its datagrams exactly if payloads and texts do. -/
theorem relay_bounds_iff (env : RelayEnv) (sender : SockAddrIn) (peerId : CString) (maxLen : ℕ)
    (mgr : RelayManager) (s : RelaySession) {p : Bytes} (fits : p.length ≤ relayBufferSize) :
    (RelayListenBounded env sender p mgr ↔ RelayListenFits p mgr) ∧
    ((RelayWithin fun stale => relayProcessReads (.ofBuffer (p ++ stale)) p.length s) ↔
      (RelayDecrypts p s →
        relayPayloadOffset + (RelayPacket.ofBuffer p).payloadLen.toNat ≤ p.length)) ∧
    (RelayRecvBounded env peerId maxLen p mgr ↔ ∀ c, RelayDelivers peerId maxLen p mgr c →
      min (RelayPacket.ofBuffer p).payloadLen.toNat maxLen ≤ p.length - relayPacketSize) :=
  ⟨relayListen_bounded_iff, relayProcess_within_iff, relayRecv_bounded_iff fits⟩

/-- The handshake of bob to alice, as `relay_connect` sends it. -/
def bobsHandshake : Bytes := relayHandshakeText (ascii "alice") 7 (ascii "bob")

/-- A packet of type DATA that is a header only, with a payload length of 100. -/
def emptyData : Bytes :=
  le32 relayMagic ++ [relayProtocolVersion, relayPktData, 0, 0] ++ le32 0 ++ le32 0 ++ le32 0 ++ le16 100 ++
    [0, 0]

theorem length_bob : (ascii "bob").length < idSize := by decide

theorem length_bobsSecret : (1 :: List.replicate 31 (0 : UInt8)).length = 32 := rfl

/-- An established session with bob that is encrypted. -/
def bobsSession : RelaySession :=
  { RelaySession.fresh .failing ⟨ascii "bob", length_bob⟩ with
    state := .established
    sessionId := 0
    sharedSecret := ⟨1 :: List.replicate 31 0, length_bobsSecret⟩
    isSecure := true }

set_option maxRecDepth 8000 in
/-- With a NUL behind it the handshake is read within the datagram. -/
theorem terminated_handshake_within : RelayListenBounded .failing ⟨(192, 0, 2, 7), 9000⟩
    (bobsHandshake ++ [0]) (.init ⟨ascii "alice", by decide⟩ 3) := by
  have short : (bobsHandshake ++ [0]).length ≤ relayBufferSize := by decide
  refine ((relay_bounds_iff .failing ⟨(192, 0, 2, 7), 9000⟩ (ascii "bob") 1
    (.init ⟨ascii "alice", by decide⟩ 3) bobsSession short).1).2 ⟨fun c packet => ?_, fun mem text => ?_⟩
  · cases packet
  · cases text
    refine ⟨Or.inl (by decide), fun _ id here => ?_, fun _ id here => ?_⟩
    · have alice : (tokens 58 (bobsHandshake ++ [0]))[1]? = some (ascii "alice") := by decide
      obtain rfl := Option.some.inj (here.symm.trans alice)
      decide
    · have bob : (tokens 58 (bobsHandshake ++ [0]))[3]? = some (ascii "bob") := by decide
      obtain rfl := Option.some.inj (here.symm.trans bob)
      decide

set_option maxRecDepth 8000 in
/-- The handshake as it is sent is read beyond the datagram, and so is the payload of a packet that has
none, which `relay_recv` reports as 100 bytes. -/
theorem sent_handshake_read_beyond :
    ¬ RelayListenBounded .failing ⟨(192, 0, 2, 7), 9000⟩ bobsHandshake
      (.init ⟨ascii "alice", by decide⟩ 3) ∧
    ¬ (RelayWithin fun stale => relayProcessReads (.ofBuffer (emptyData ++ stale)) 24 bobsSession) ∧
    ¬ RelayRecvBounded .failing (ascii "bob") 100 emptyData ⟨[bobsSession], ⟨ascii "alice", by decide⟩, 3⟩ := by
  refine ⟨fun bounded => ?_, fun bounded => ?_, fun bounded => ?_⟩
  · have ended := ((relayListen_bounded_iff.1 bounded).handshake _ rfl).ended
    exact absurd ended (by decide)
  · have reads := bounded.reads
    exact absurd reads (by decide)
  · have reported := bounded.reported []
    exact absurd reported (by decide)

end Orcashi
