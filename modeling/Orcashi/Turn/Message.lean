import Orcashi.Turn.Manager

/-!
# The messages of the TURN client

A message is meant to be a header and the attributes behind it.  The first attribute is put behind the
header; for the others the offset is counted from the start of the message, so they land on the
transaction id and on what was written before, and the end of the message is what the array on the
stack held.
-/

namespace Orcashi

open CMemory Stun

/-! ## What is meant -/

/-- The request `turn_build_allocate_request` is for. -/
def TurnSession.allocateRequest (s : TurnSession) (transactionId : Bytes) : Message where
  type := turnMsgAllocateRequest
  cookie := magicCookie
  transactionId := transactionId
  attrs := [turnRequestedTransport, s.lifetimeAttr] ++ if s.namesUser then [s.usernameAttr] else []

/-- The request `turn_refresh_allocation` is for. -/
def TurnSession.refreshRequest (s : TurnSession) (transactionId : Bytes) : Message where
  type := turnMsgRefreshRequest
  cookie := magicCookie
  transactionId := transactionId
  attrs := [s.lifetimeAttr]

/-- XOR-PEER-ADDRESS of a peer. -/
def peerAttr (ip : UInt8 × UInt8 × UInt8 × UInt8) (port : ℤ) : Attr :=
  ⟨turnAttrXorPeerAddress, xorAddress ip (UInt16.ofInt port)⟩

/-- The attribute with the data. -/
def dataAttr (data : Bytes) : Attr := ⟨turnAttrData, data⟩

/-- The indication `turn_send` is for. -/
def TurnSession.sendIndication (s : TurnSession) (ip : UInt8 × UInt8 × UInt8 × UInt8)
    (transactionId data : Bytes) : Message where
  type := turnMsgSendIndication
  cookie := magicCookie
  transactionId := transactionId
  attrs := [peerAttr ip s.port, dataAttr data]

/-- The bytes are the message. -/
def IsMessage (bytes : Option Bytes) (m : Message) : Prop := ∃ b, bytes = some b ∧ Stun.parse b = some m

/-- `turn_send` builds the indication for its peer, which has an address. -/
def SendsIndication (env : TurnEnv) (s : TurnSession) (data : Bytes) : Prop :=
  ∃ ip, inetPton s.ip.val = some ip ∧
    IsMessage (turnSendIndication env s data) (s.sendIndication ip env.transactionId.val data)

/-! ## Numbers in memory -/

theorem le32_xor (x y : UInt32) : le32 (x ^^^ y) = xorBytes (le32 x) (le32 y) := by
  have byte (k : ℕ) : ((x ^^^ y).toNat / 2 ^ k % 2 ^ 8).toUInt8 =
      (x.toNat / 2 ^ k % 2 ^ 8).toUInt8 ^^^ (y.toNat / 2 ^ k % 2 ^ 8).toUInt8 := by
    apply UInt8.toNat_inj.1
    rw [UInt8.toNat_xor]
    simp only [Nat.toUInt8_eq, UInt8.toNat_ofNat', Nat.mod_mod]
    rw [UInt32.toNat_xor, Nat.xor_div_two_pow, Nat.xor_mod_two_pow]
  have top (z : UInt32) : z.toNat / 2 ^ 24 % 2 ^ 8 = z.toNat / 16777216 := by
    have := z.toNat_lt
    omega
  have first := byte 0
  have last := byte 24
  rw [pow_zero, Nat.div_one, Nat.div_one, Nat.div_one] at first
  rw [top, top, top] at last
  simp only [le32, xorBytes, List.zipWith_cons_cons, List.zipWith_nil_left, List.cons.injEq, and_true]
  exact ⟨first, byte 8, byte 16, last⟩

theorem le32_readLe32 (a b c d : UInt8) : le32 (readLe32 [a, b, c, d] 0) = [a, b, c, d] := by
  have ha := a.toNat_lt
  have hb := b.toNat_lt
  have hc := c.toNat_lt
  have hd := d.toNat_lt
  have value : (readLe32 [a, b, c, d] 0).toNat =
      a.toNat + 256 * b.toNat + 65536 * c.toNat + 16777216 * d.toNat := by
    simp only [readLe32, List.getD_cons_zero, List.getD_cons_succ, Nat.toUInt32_eq, UInt32.toNat_ofNat']
    omega
  have byte {n : ℕ} {x : UInt8} (h : n % 256 = x.toNat) : n.toUInt8 = x := by
    apply UInt8.toNat_inj.1
    rw [Nat.toUInt8_eq, UInt8.toNat_ofNat', ← h]
  rw [le32, value, @byte _ a, @byte _ b, @byte _ c, @byte _ d]
  all_goals omega

/-! ## What is built -/

section Build

variable {type length : UInt16} {cookie : UInt32} {id : Bytes}

theorem length_header_nil : (Stun.header type length cookie []).length = 8 := rfl

theorem header_append (body : Bytes) :
    Stun.header type length cookie id ++ body = Stun.header type length cookie [] ++ (id ++ body) := by
  simp only [Stun.header, List.append_assoc, List.append_nil]

theorem turnStartMessage_eq {env : TurnEnv} {buffer : Bytes} (large : 20 ≤ buffer.length) :
    turnStartMessage env type buffer = some (Stun.header type 0 magicCookie [] ++
      (env.transactionId.val ++ buffer.drop 20)) := by
  have size := @length_header type 0 magicCookie env.transactionId.val env.transactionId.property
  rw [turnStartMessage, memcpy_zero (by rw [size]; exact large), size, header_append]
  rfl

/-- A copy behind the cookie. -/
theorem memcpy_header {i : ℕ} {p z b : Bytes} (at_ : i = 8 + p.length) (fits : b.length ≤ z.length) :
    memcpy (Stun.header type length cookie [] ++ (p ++ z)) i b =
      some (Stun.header type length cookie [] ++ (p ++ (b ++ z.drop b.length))) := by
  rw [← List.append_assoc, memcpy_append fits, List.append_assoc]
  rw [List.length_append, length_header_nil, at_]

theorem turnFinishMessage_eq {msgLen : ℕ} {z : Bytes} (fits : 12 + msgLen ≤ z.length) :
    turnFinishMessage msgLen (Stun.header type 0 cookie [] ++ z) =
      some (Stun.header type msgLen.toUInt16 cookie [] ++ z.take (12 + msgLen)) := by
  have written : memcpy (Stun.header type 0 cookie [] ++ z) 2 (be16 msgLen.toUInt16) =
      some (Stun.header type msgLen.toUInt16 cookie [] ++ z) := by
    have before : Stun.header type 0 cookie [] ++ z =
        be16 type ++ (be16 0 ++ (be32 cookie ++ z)) := by
      simp only [Stun.header, List.append_assoc, List.append_nil]
    rw [before, memcpy_append (i := 2) (p := be16 type) _ rfl]
    · simp only [Stun.header, List.append_assoc, List.append_nil]
      rfl
    · rw [List.length_append]
      exact Nat.le_add_right _ _
  have enough : turnStunHeaderSize + msgLen ≤
      (Stun.header type msgLen.toUInt16 cookie [] ++ z).length := by
    rw [List.length_append, length_header_nil, turnStunHeaderSize]
    omega
  have taken : (Stun.header type msgLen.toUInt16 cookie [] ++ z).take (turnStunHeaderSize + msgLen) =
      Stun.header type msgLen.toUInt16 cookie [] ++ z.take (12 + msgLen) := by
    rw [List.take_append, List.take_of_length_le (by rw [length_header_nil, turnStunHeaderSize]; omega),
      length_header_nil, turnStunHeaderSize]
    congr 2
    omega
  rw [turnFinishMessage, written]
  exact (if_pos enough).trans (congrArg some taken)

/-- What is finished is a message exactly if its transaction id is behind the cookie and its attributes
behind that. -/
theorem isMessage_finish_iff {m : Message} {front rest : Bytes} {msgLen : ℕ} (twelve : front.length = 12)
    (fits : msgLen ≤ rest.length) (short : msgLen < 65536) :
    IsMessage (turnFinishMessage msgLen (Stun.header m.type 0 m.cookie [] ++ (front ++ rest))) m ↔
      front = m.transactionId ∧ parseAttrs (rest.take msgLen) = some m.attrs := by
  have finished : turnFinishMessage msgLen (Stun.header m.type 0 m.cookie [] ++ (front ++ rest)) =
      some (Stun.header m.type msgLen.toUInt16 m.cookie front ++ rest.take msgLen) := by
    rw [turnFinishMessage_eq (by rw [List.length_append]; omega), ← twelve, List.take_length_add_append,
      ← header_append]
  have number : msgLen.toUInt16.toNat = (rest.take msgLen).length := by
    rw [List.length_take, Nat.toUInt16_eq, UInt16.toNat_ofNat']
    omega
  unfold IsMessage
  simp only [finished, Option.some.injEq, exists_eq_left', parse_eq_some_iff twelve, number, true_and]

end Build

section Requests

variable (env : TurnEnv) (s : TurnSession)

theorem length_transactionId : env.transactionId.val.length = 12 := env.transactionId.property

theorem length_lifetimeAttr : s.lifetimeAttr.bytes.length = 8 := rfl

theorem length_requestedTransport : turnRequestedTransport.bytes.length = 8 := rfl

/-- What is behind the cookie once two attributes are put: LIFETIME lies on the transaction id. -/
def allocateBehind : Bytes :=
  s.lifetimeAttr.bytes ++ (env.transactionId.val.drop 8 ++
    (turnRequestedTransport.bytes ++ (env.stack 512).val.drop 28))

/-- The request up to the user. -/
theorem turnBuildAllocateRequest_eq :
    turnBuildAllocateRequest env s =
      if s.namesUser then
        (memcpy (Stun.header turnMsgAllocateRequest 0 magicCookie [] ++ allocateBehind env s) 16
          s.usernameAttr.bytes).bind (turnFinishMessage (16 + (4 + s.server.username.val.length)))
      else
        turnFinishMessage 16
          (Stun.header turnMsgAllocateRequest 0 magicCookie [] ++ allocateBehind env s) := by
  have twelve := length_transactionId env
  have large := (env.stack 512).property
  have first := @memcpy_header turnMsgAllocateRequest 0 magicCookie turnStunHeaderSize
    env.transactionId.val ((env.stack 512).val.drop 20) turnRequestedTransport.bytes
    (by rw [twelve]; rfl) (by rw [length_requestedTransport, List.length_drop, large]; decide)
  have second := @memcpy_header turnMsgAllocateRequest 0 magicCookie (turnAttributeSize + 4) []
    (env.transactionId.val ++ (turnRequestedTransport.bytes ++
      ((env.stack 512).val.drop 20).drop turnRequestedTransport.bytes.length)) s.lifetimeAttr.bytes rfl
    (by rw [length_lifetimeAttr, List.length_append, twelve]; omega)
  have behind : s.lifetimeAttr.bytes ++ (env.transactionId.val ++ (turnRequestedTransport.bytes ++
      ((env.stack 512).val.drop 20).drop turnRequestedTransport.bytes.length)).drop
        s.lifetimeAttr.bytes.length = allocateBehind env s := by
    rw [length_lifetimeAttr, length_requestedTransport, List.drop_drop,
      List.drop_append_of_le_length (by omega)]
    rfl
  rw [List.nil_append, List.nil_append, behind] at second
  unfold turnBuildAllocateRequest
  simp only [turnStartMessage_eq (large.symm ▸ (by decide : 20 ≤ 512)), first, second,
    Option.bind_eq_bind, Option.bind_some]
  rfl

/-- A request that names no user is the one that is meant exactly if LIFETIME is what the transaction id
begins with and what the array held behind REQUESTED-TRANSPORT. -/
theorem isMessage_allocateRequest_iff (noUser : s.namesUser = false) :
    IsMessage (turnBuildAllocateRequest env s) (s.allocateRequest env.transactionId.val) ↔
      env.transactionId.val.take 8 = s.lifetimeAttr.bytes ∧
        ((env.stack 512).val.drop 28).take 8 = s.lifetimeAttr.bytes := by
  have twelve := length_transactionId env
  have front : (s.lifetimeAttr.bytes ++ env.transactionId.val.drop 8).length = 12 := by
    rw [List.length_append, length_lifetimeAttr, List.length_drop, twelve]
  have rest : 16 ≤ (turnRequestedTransport.bytes ++ (env.stack 512).val.drop 28).length := by
    rw [List.length_append, List.length_drop, (env.stack 512).property]
    omega
  have attrs : (s.allocateRequest env.transactionId.val).attrs =
      [turnRequestedTransport, s.lifetimeAttr] := by
    rw [TurnSession.allocateRequest, noUser]
    rfl
  have aligned : ∀ a ∈ [turnRequestedTransport, s.lifetimeAttr], a.value.length = 4 := by
    simp [turnRequestedTransport, TurnSession.lifetimeAttr]
  have body : (turnRequestedTransport.bytes ++ (env.stack 512).val.drop 28).take 16 =
      turnRequestedTransport.bytes ++ ((env.stack 512).val.drop 28).take 8 :=
    @List.take_length_add_append UInt8 turnRequestedTransport.bytes _ 8
  have finish := @isMessage_finish_iff (s.allocateRequest env.transactionId.val) _ _ 16 front rest
    (by decide)
  rw [turnBuildAllocateRequest_eq, if_neg (by rw [noUser]; decide), allocateBehind, ← List.append_assoc]
  refine finish.trans (and_congr ?_ ?_)
  · show s.lifetimeAttr.bytes ++ env.transactionId.val.drop 8 = env.transactionId.val ↔ _
    constructor
    · intro h
      rw [← h]
      exact List.take_left' rfl
    · intro h
      rw [← h, List.take_append_drop]
  · rw [attrs, body, parseAttrs_eq_some_iff (fun a ha => by rw [aligned a ha])
      (fun a ha => by rw [aligned a ha]; decide)]
    exact List.append_right_inj _

theorem username_cons (named : s.namesUser = true) :
    ∃ c rest, s.server.username.val = c :: rest ∧ c ≠ 0 := by
  obtain ⟨-, h⟩ := Bool.and_eq_true_iff.1 named
  obtain ⟨c, rest, text⟩ := List.exists_cons_of_ne_nil (bne_iff_ne.1 h)
  refine ⟨c, rest, text, ?_⟩
  rintro rfl
  exact s.server.username.property.2 (text ▸ List.mem_cons_self)

/-- The request that names a user: the head of USERNAME lies on the transaction id, the name itself is
behind the header. -/
theorem turnBuildAllocateRequest_named (named : s.namesUser = true) :
    ∃ front rest, front.length = 12 ∧ rest.length = 492 ∧ s.server.username.val <+: rest ∧
      turnBuildAllocateRequest env s = turnFinishMessage (16 + (4 + s.server.username.val.length))
        (Stun.header turnMsgAllocateRequest 0 magicCookie [] ++ (front ++ rest)) := by
  have size := s.server.username.property.1
  have twelve := length_transactionId env
  generalize behind : env.transactionId.val.drop 8 ++
    (turnRequestedTransport.bytes ++ (env.stack 512).val.drop 28) = y
  have room : y.length = 496 := by
    rw [← behind, List.length_append, List.length_append, List.length_drop, List.length_drop, twelve,
      (env.stack 512).property]
    rfl
  have wire : s.usernameAttr.bytes.length = 4 + s.server.username.val.length := Attr.length_bytes _
  have copied := @memcpy_header turnMsgAllocateRequest 0 magicCookie 16 s.lifetimeAttr.bytes y
    s.usernameAttr.bytes rfl (by omega)
  refine ⟨s.lifetimeAttr.bytes ++ (be16 turnAttrUsername ++ be16 s.server.username.val.length.toUInt16),
    s.server.username.val ++ y.drop s.usernameAttr.bytes.length, rfl, ?_, List.prefix_append _ _, ?_⟩
  · rw [List.length_append, List.length_drop]
    omega
  · rw [turnBuildAllocateRequest_eq, if_pos named, allocateBehind, behind, copied, Option.bind_some]
    simp only [TurnSession.usernameAttr, Attr.bytes, List.append_assoc]

/-- A request that names a user never is the one that is meant: its attributes begin with the name. -/
theorem not_isMessage_allocateRequest (named : s.namesUser = true) :
    ¬ IsMessage (turnBuildAllocateRequest env s) (s.allocateRequest env.transactionId.val) := by
  obtain ⟨c, name, text, notNul⟩ := username_cons s named
  obtain ⟨front, rest, twelve, room, ⟨more, split⟩, built⟩ := turnBuildAllocateRequest_named env s named
  have size := s.server.username.property.1
  have finish := @isMessage_finish_iff (s.allocateRequest env.transactionId.val) front rest
    (16 + (4 + s.server.username.val.length)) twelve (by omega) (by omega)
  rw [built]
  intro whole
  obtain ⟨-, parsed⟩ := finish.1 whole
  obtain ⟨-, pad, behind, -, first, -⟩ := exists_of_parseAttrs_cons parsed
  rw [← split, text, List.cons_append, ← Nat.add_assoc, Nat.add_right_comm, List.take_succ_cons] at first
  exact notNul (List.cons.inj first).1

/-- The request to refresh is the one that is meant. -/
theorem isMessage_refreshRequest :
    IsMessage (turnRefreshRequest env s) (s.refreshRequest env.transactionId.val) := by
  have twelve := length_transactionId env
  have large := (env.stack 128).property
  have first := @memcpy_header turnMsgRefreshRequest 0 magicCookie turnStunHeaderSize
    env.transactionId.val ((env.stack 128).val.drop 20) s.lifetimeAttr.bytes (by rw [twelve]; rfl)
    (by rw [length_lifetimeAttr, List.length_drop, large]; decide)
  have rest : 8 ≤ (s.lifetimeAttr.bytes ++
      ((env.stack 128).val.drop 20).drop s.lifetimeAttr.bytes.length).length := by
    rw [List.length_append, length_lifetimeAttr]
    omega
  have finish := @isMessage_finish_iff (s.refreshRequest env.transactionId.val) _ _ 8 twelve rest
    (by decide)
  have built : turnRefreshRequest env s = turnFinishMessage 8
      (Stun.header turnMsgRefreshRequest 0 magicCookie [] ++ (env.transactionId.val ++
        (s.lifetimeAttr.bytes ++
          ((env.stack 128).val.drop 20).drop s.lifetimeAttr.bytes.length))) := by
    unfold turnRefreshRequest
    simp only [turnStartMessage_eq (large.symm ▸ (by decide : 20 ≤ 128)), first, Option.bind_eq_bind,
      Option.bind_some]
    rfl
  rw [built]
  refine finish.2 ⟨rfl, ?_⟩
  rw [List.take_left' (length_lifetimeAttr s)]
  have aligned : ∀ a ∈ [s.lifetimeAttr], a.value.length = 4 := by simp [TurnSession.lifetimeAttr]
  refine (parseAttrs_eq_some_iff (fun a ha => ?_) fun a ha => ?_).2 (List.append_nil _).symm
  · rw [aligned a ha]
  · rw [aligned a ha]
    decide

end Requests

/-! ## The indication -/

section Indication

variable {env : TurnEnv} {s : TurnSession} {data : Bytes}

theorem length_turnXorPeerAddress : (turnXorPeerAddress env s).bytes.length = 12 := rfl

theorem length_dataAttr : (dataAttr data).bytes.length = 4 + data.length := Attr.length_bytes _

/-- What was behind the first four bytes of the transaction id before DATA was put there. -/
def sendOver (env : TurnEnv) (s : TurnSession) : Bytes :=
  env.transactionId.val.drop 4 ++ ((turnXorPeerAddress env s).bytes ++ (env.stack 2048).val.drop 32)

theorem length_sendOver (env : TurnEnv) (s : TurnSession) : (sendOver env s).length = 2036 := by
  simp only [sendOver, List.length_append, List.length_drop, length_transactionId,
    length_turnXorPeerAddress, (env.stack 2048).property]

/-- The first twelve bytes behind the cookie, and the rest. -/
theorem turnSendIndication_eq (fits : data.length ≤ 2012) :
    turnSendIndication env s data = turnFinishMessage (16 + data.length)
      (Stun.header turnMsgSendIndication 0 magicCookie [] ++ (env.transactionId.val.take 4 ++
        ((dataAttr data).bytes ++ (sendOver env s).drop (4 + data.length)))) := by
  have twelve := length_transactionId env
  have large := (env.stack 2048).property
  have first := @memcpy_header turnMsgSendIndication 0 magicCookie turnStunHeaderSize
    env.transactionId.val ((env.stack 2048).val.drop 20) (turnXorPeerAddress env s).bytes
    (by rw [twelve]; rfl) (by rw [length_turnXorPeerAddress, List.length_drop, large]; decide)
  have lain : env.transactionId.val ++ ((turnXorPeerAddress env s).bytes ++
      ((env.stack 2048).val.drop 20).drop (turnXorPeerAddress env s).bytes.length) =
        env.transactionId.val.take 4 ++ sendOver env s := by
    rw [length_turnXorPeerAddress, List.drop_drop, sendOver,
      ← List.append_assoc (env.transactionId.val.take 4), List.take_append_drop]
  have room := length_sendOver env s
  have second := @memcpy_header turnMsgSendIndication 0 magicCookie (turnAttributeSize + 8)
    (env.transactionId.val.take 4) (sendOver env s) (dataAttr data).bytes
    (by rw [List.length_take, twelve]; rfl) (by rw [length_dataAttr, room]; omega)
  rw [lain] at first
  rw [length_dataAttr] at second
  unfold turnSendIndication
  simp only [turnStartMessage_eq (large.symm ▸ (by decide : 20 ≤ 2048)), first, Option.bind_eq_bind,
    Option.bind_some]
  rw [show (⟨turnAttrData, data⟩ : Attr) = dataAttr data from rfl, second, Option.bind_some,
    show turnAttributeSize + 8 + (turnAttributeSize + data.length) = 16 + data.length by
      unfold turnAttributeSize; omega]

/-- The bytes that are read as the attributes of an indication. -/
theorem parse_indication_iff {ip : UInt8 × UInt8 × UInt8 × UInt8} (aligned : 4 ∣ data.length)
    (short : data.length < 65536) {b : Bytes} :
    parseAttrs b = some [peerAttr ip s.port, dataAttr data] ↔
      b = (peerAttr ip s.port).bytes ++ (dataAttr data).bytes := by
  have values : ∀ a ∈ [peerAttr ip s.port, dataAttr data],
      4 ∣ a.value.length ∧ a.value.length < 65536 := by
    simp [peerAttr, dataAttr, aligned, short]
  rw [parseAttrs_eq_some_iff (fun a ha => (values a ha).1) (fun a ha => (values a ha).2),
    List.flatMap_cons, List.flatMap_cons, List.flatMap_nil, List.append_nil]

/-- The address is combined with the cookie the wrong way round. -/
theorem turnXorPeerAddress_ne {ip : UInt8 × UInt8 × UInt8 × UInt8} (found : inetPton s.ip.val = some ip) :
    (turnXorPeerAddress env s).bytes[8]? ≠ (peerAttr ip s.port).bytes[8]? := by
  obtain ⟨a, b, c, d⟩ := ip
  have built : le32 (turnPeerIp env s ^^^ magicCookie) = xorBytes [a, b, c, d] (le32 magicCookie) := by
    rw [turnPeerIp, found, le32_xor, le32_readLe32]
  have first : (turnXorPeerAddress env s).bytes[8]? = some (a ^^^ 0x42) := by
    have value : (turnXorPeerAddress env s).value = ([0, 1] : Bytes) ++
        le16 (htons (UInt16.ofInt s.port) ^^^ (magicCookie >>> 16).toUInt16) ++
          le32 (turnPeerIp env s ^^^ magicCookie) := rfl
    rw [Attr.bytes, value, built]
    rfl
  rw [first]
  show some (a ^^^ 0x42) ≠ some (a ^^^ 0x21)
  rw [Ne, Option.some.injEq, UInt8.xor_right_inj]
  decide

/-- Behind fewer than sixteen bytes of data, the address that was put before is left. -/
theorem le_length_of_parse {ip : UInt8 × UInt8 × UInt8 × UInt8} (found : inetPton s.ip.val = some ip)
    (aligned : 4 ∣ data.length) (short : data.length < 65536)
    (parsed : parseAttrs ((((dataAttr data).bytes ++ (sendOver env s).drop (4 + data.length)).drop 8).take
      (16 + data.length)) = some [peerAttr ip s.port, dataAttr data]) : 16 ≤ data.length := by
  by_contra few
  rw [parse_indication_iff aligned short] at parsed
  have twelve := length_transactionId env
  have eighth : ((((dataAttr data).bytes ++ (sendOver env s).drop (4 + data.length)).drop 8).take
      (16 + data.length))[8]? = ((peerAttr ip s.port).bytes ++ (dataAttr data).bytes)[8]? :=
    congrArg (fun b : Bytes => b[8]?) parsed
  have left : (((dataAttr data).bytes ++ (sendOver env s).drop (4 + data.length)).drop 8)[8]? =
      (turnXorPeerAddress env s).bytes[8]? := by
    have behind : (dataAttr data).bytes.length ≤ 8 + 8 := by
      rw [length_dataAttr]
      omega
    rw [List.getElem?_drop, List.getElem?_append_right behind, length_dataAttr, List.getElem?_drop,
      Nat.add_sub_cancel' (by omega), sendOver]
    have front : (env.transactionId.val.drop 4).length = 8 := by
      rw [List.length_drop, twelve]
    rw [List.getElem?_append_right (by omega), front,
      List.getElem?_append_left (by rw [length_turnXorPeerAddress]; decide)]
  rw [List.getElem?_take_of_lt (by omega), left,
    List.getElem?_append_left (of_decide_eq_true rfl : 8 < (peerAttr ip s.port).bytes.length)] at eighth
  exact turnXorPeerAddress_ne found eighth

/-- What the indication needs: the data and what is behind them in the array spell the attributes, and
the transaction id ends with the head of DATA. -/
structure SpellsIndication (env : TurnEnv) (s : TurnSession) (data : Bytes)
    (ip : UInt8 × UInt8 × UInt8 × UInt8) : Prop where
  enough : 16 ≤ data.length
  aligned : 4 ∣ data.length
  transactionId : env.transactionId.val.drop 4 = (dataAttr data).bytes.take 8
  attributes : data.drop 4 ++ ((env.stack 2048).val.drop (16 + data.length)).take 20 =
    (peerAttr ip s.port).bytes ++ (dataAttr data).bytes

/-- Sixteen bytes of data lie over everything that was put before. -/
theorem take_drop_indication (enough : 16 ≤ data.length) :
    (((dataAttr data).bytes ++ (sendOver env s).drop (4 + data.length)).drop 8).take (16 + data.length) =
      data.drop 4 ++ ((env.stack 2048).val.drop (16 + data.length)).take 20 := by
  have twelve := length_transactionId env
  have front : (env.transactionId.val.drop 4 ++ (turnXorPeerAddress env s).bytes).length = 20 := by
    rw [List.length_append, List.length_drop, twelve, length_turnXorPeerAddress]
  have beyond : (sendOver env s).drop (4 + data.length) = (env.stack 2048).val.drop (16 + data.length) := by
    rw [sendOver, ← List.append_assoc, List.drop_append, front,
      List.drop_eq_nil_of_le (by rw [front]; omega), List.nil_append, List.drop_drop]
    congr 1
    omega
  have head : (dataAttr data).bytes.drop 8 = data.drop 4 := by
    have bytes : (dataAttr data).bytes = (be16 turnAttrData ++ be16 data.length.toUInt16) ++ data := by
      rw [dataAttr, Attr.bytes, List.append_assoc]
    rw [bytes, List.drop_append, List.drop_eq_nil_of_le (Nat.le_add_right 4 4)]
    rfl
  have size : (data.drop 4).length + 20 = 16 + data.length := by
    rw [List.length_drop]
    omega
  rw [beyond, List.drop_append_of_le_length (by rw [length_dataAttr]; omega), head, ← size,
    List.take_length_add_append]

/-- The indication is the one that is meant exactly if the data and the array spell it. -/
theorem sendsIndication_iff (some_ : data ≠ []) (short : data.length ≤ 1400) :
    SendsIndication env s data ↔
      ∃ ip, inetPton s.ip.val = some ip ∧ SpellsIndication env s data ip := by
  refine exists_congr fun ip => and_congr_right fun found => ?_
  have twelve := length_transactionId env
  have room := length_sendOver env s
  generalize written : (dataAttr data).bytes ++ (sendOver env s).drop (4 + data.length) = z
  have size : z.length = 2036 := by
    rw [← written, List.length_append, length_dataAttr, List.length_drop, room]
    omega
  have finish := @isMessage_finish_iff (s.sendIndication ip env.transactionId.val data)
    (env.transactionId.val.take 4 ++ z.take 8) (z.drop 8) (16 + data.length)
    (by rw [List.length_append, List.length_take, List.length_take, twelve, size]; rfl)
    (by rw [List.length_drop, size]; omega) (by omega)
  rw [List.append_assoc, List.take_append_drop] at finish
  rw [turnSendIndication_eq (by omega), written]
  refine finish.trans ?_
  show env.transactionId.val.take 4 ++ z.take 8 = env.transactionId.val ∧
    parseAttrs ((z.drop 8).take (16 + data.length)) = some [peerAttr ip s.port, dataAttr data] ↔ _
  have short' : data.length < 65536 := by omega
  have some_ : 0 < data.length := List.length_pos_iff.2 some_
  have ends : 4 ≤ data.length → (env.transactionId.val.take 4 ++ z.take 8 = env.transactionId.val ↔
      env.transactionId.val.drop 4 = (dataAttr data).bytes.take 8) := by
    intro four
    have head : z.take 8 = (dataAttr data).bytes.take 8 := by
      rw [← written, List.take_append_of_le_length (by rw [length_dataAttr]; omega)]
    rw [head]
    constructor
    · intro named
      rw [← named, List.drop_left' (by rw [List.length_take, twelve]; rfl)]
    · intro named
      rw [← named, List.take_append_drop]
  constructor
  · rintro ⟨named, parsed⟩
    have aligned : 4 ∣ data.length := by
      have := four_dvd_length_of_parseAttrs parsed
      rw [List.length_take, List.length_drop, size] at this
      omega
    rw [← written] at parsed
    have enough := le_length_of_parse found aligned short' parsed
    rw [take_drop_indication enough, parse_indication_iff aligned short'] at parsed
    exact ⟨enough, aligned, (ends (by omega)).1 named, parsed⟩
  · rintro ⟨enough, aligned, named, spelled⟩
    refine ⟨(ends (by omega)).2 named, ?_⟩
    rw [← written, take_drop_indication enough, parse_indication_iff aligned short']
    exact spelled

end Indication

/-! ## All messages -/

/-- What `turn_refresh_allocation` gives to `sendto` is the request of an established session. -/
theorem turnRefreshAllocation_datagram {env : TurnEnv} {peerId : CString} {mgr : TurnManager}
    {out : TurnSent} (sent : turnRefreshAllocation env peerId mgr = some out) {b : Bytes}
    (given : out.datagram = some b) :
    ∃ slot, turnFindSession peerId mgr = some slot ∧ (mgr.sessions slot).state = .established ∧
      turnRefreshRequest env (mgr.sessions slot) = some b := by
  unfold turnRefreshAllocation at sent
  split at sent
  · cases sent
    cases given
  · rename_i slot found
    dsimp only at sent
    split_ifs at sent with established
    · cases sent
      cases given
    · obtain ⟨request, built, rfl⟩ := Option.map_eq_some_iff.1 sent
      cases given
      exact ⟨slot, found, not_not.1 established, built⟩

/-- What `turn_send` gives to `sendto` is the indication of an established session that has a relay
address. -/
theorem turnSend_datagram {env : TurnEnv} {peerId : CString} {data : Bytes} {mgr : TurnManager}
    {out : TurnSent} (sent : turnSend env peerId data mgr = some out) {b : Bytes}
    (given : out.datagram = some b) :
    ∃ slot, turnFindSession peerId mgr = some slot ∧ (mgr.sessions slot).state = .established ∧
      (mgr.sessions slot).relayIp.val ≠ [] ∧ (mgr.sessions slot).relayPort ≠ 0 ∧
      turnSendIndication env (mgr.sessions slot) data = some b := by
  unfold turnSend at sent
  split_ifs at sent with empty
  · cases sent
    cases given
  split at sent
  · cases sent
    cases given
  · rename_i slot found
    dsimp only at sent
    split_ifs at sent with established relay
    · cases sent
      cases given
    · cases sent
      cases given
    · obtain ⟨datagram, built, rfl⟩ := Option.map_eq_some_iff.1 sent
      obtain ⟨ip, port⟩ := not_or.1 relay
      have same : datagram = b := by
        split_ifs at given <;> exact Option.some.inj given
      exact ⟨slot, found, not_not.1 established, ip, port, same ▸ built⟩

/-- The request to allocate needs no user and LIFETIME in two places where nothing puts it. -/
structure SpellsAllocate (env : TurnEnv) (s : TurnSession) : Prop where
  noUser : s.namesUser = false
  transactionId : env.transactionId.val.take 8 = s.lifetimeAttr.bytes
  stack : ((env.stack 512).val.drop 28).take 8 = s.lifetimeAttr.bytes

/-- The request to refresh is always the one that is meant, the others are only where the data, the
transaction id and the array spell what the code does not put where it belongs. -/
theorem turn_messages_iff (env : TurnEnv) (s : TurnSession) :
    (IsMessage (turnBuildAllocateRequest env s) (s.allocateRequest env.transactionId.val) ↔
        SpellsAllocate env s) ∧
      IsMessage (turnRefreshRequest env s) (s.refreshRequest env.transactionId.val) ∧
      ∀ data : Bytes, 1 ≤ data.length → data.length ≤ 1400 →
        (SendsIndication env s data ↔
          ∃ ip, inetPton s.ip.val = some ip ∧ SpellsIndication env s data ip) := by
  refine ⟨?_, isMessage_refreshRequest env s, ?_⟩
  · cases named : s.namesUser with
    | true =>
      refine iff_of_false (not_isMessage_allocateRequest env s named) fun h => ?_
      rw [h.noUser] at named
      cases named
    | false =>
      rw [isMessage_allocateRequest_iff env s named]
      exact ⟨fun h => ⟨named, h.1, h.2⟩, fun h => ⟨h.transactionId, h.stack⟩⟩
  · intro data some_ short
    exact sendsIndication_iff (List.ne_nil_of_length_pos some_) short

/-- Sixteen bytes of data with the address of 10.0.0.1:9000 in them. -/
def spelledData : Bytes := [1, 2, 3, 4] ++ (peerAttr (10, 0, 0, 1) 9000).bytes

/-- Surroundings in which nothing succeeds, with given bytes at the front of every array. -/
def TurnEnv.failing (transactionId : { b : Bytes // b.length = 12 }) (front : Bytes) : TurnEnv where
  toEnv := .failing
  transactionId := transactionId
  stack size := ⟨(front ++ List.replicate size 0).take size, by simp⟩
  ipAddr := 0

/-- A session with a peer at 10.0.0.1:9000. -/
def TurnSession.withPeer (lifetime : UInt32) : TurnSession :=
  { TurnSession.zero with
    ip := ⟨ascii "10.0.0.1", by decide⟩
    port := 9000
    server := { TurnServerConfig.zero with lifetime := lifetime } }

/-- Surroundings that spell all messages of a session. -/
theorem messages_spelled :
    let env := TurnEnv.failing ⟨[0, 13, 0, 4, 0, 19, 0, 16, 1, 2, 3, 4], rfl⟩
      (List.replicate 28 0 ++ [0, 13, 0, 4, 0, 19, 0, 16] ++ spelledData)
    let s := TurnSession.withPeer 0x130010
    IsMessage (turnBuildAllocateRequest env s) (s.allocateRequest env.transactionId.val) ∧
      IsMessage (turnRefreshRequest env s) (s.refreshRequest env.transactionId.val) ∧
      SendsIndication env s spelledData := by
  intro env s
  obtain ⟨allocate, refresh, send⟩ := turn_messages_iff env s
  refine ⟨allocate.2 ⟨rfl, by decide, by decide⟩, refresh, (send spelledData (by decide) (by decide)).2 ?_⟩
  exact ⟨(10, 0, 0, 1), by decide, by decide, by decide, by decide, by decide⟩

/-- With an array of zeros neither the request to allocate nor an indication is what is meant. -/
theorem messages_overwritten :
    let env := TurnEnv.failing ⟨List.replicate 12 1, rfl⟩ []
    let s := TurnSession.withPeer 600
    ¬ IsMessage (turnBuildAllocateRequest env s) (s.allocateRequest env.transactionId.val) ∧
      ¬ SendsIndication env s (ascii "hello") := by
  intro env s
  constructor
  · rw [isMessage_allocateRequest_iff env s rfl]
    rintro ⟨id, -⟩
    exact absurd id (by decide)
  · rw [sendsIndication_iff (by decide) (by decide)]
    rintro ⟨ip, -, spelled⟩
    exact absurd spelled.enough (by decide)

end Orcashi
