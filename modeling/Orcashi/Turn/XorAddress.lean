import Orcashi.MixedId
import Orcashi.Turn.Message
import Orcashi.Turn.Response

/-!
# Hidden addresses

The address in a STUN message is hidden by the magic cookie, in network order.  `turn_send` takes the cookie
in host order, which turns its bytes around.  `turn_parse_allocate_response` does the same with the address
and leaves the port as it is.  So an address that the client hid comes back, but no port does, and what
follows the protocol is read as another address and another port.
-/

namespace Orcashi

open CMemory Stun

variable {env : TurnEnv} {s : TurnSession} {ip : UInt8 × UInt8 × UInt8 × UInt8} {port : UInt16}

/-! ## What is asked for -/

/-- A response with the value as its XOR-RELAYED-ADDRESS gives the session this relay. -/
def TakenAs (value : Bytes) (relay : IpText × ℤ) : Prop :=
  ∀ (env : TurnEnv) (s : TurnSession) (id q : Bytes) (n : ℕ), id.length = 12 → turnStunHeaderSize ≤ n →
    ∃ r, turnParseAllocateResponse env
        (allocateResponse id ⟨turnAttrXorRelayedAddress, value⟩ ++ q) n s = some r ∧ r.2.relay = relay

/-- The text of an address and the number of a port. -/
def relayOf (ip : UInt8 × UInt8 × UInt8 × UInt8) (port : UInt16) : IpText × ℤ :=
  (⟨inetNtop ip, length_inetNtop_lt ip⟩, port.toNat)

theorem relayOf_inj {ip' : UInt8 × UInt8 × UInt8 × UInt8} {port' : UInt16} :
    relayOf ip port = relayOf ip' port' ↔ ip = ip' ∧ port = port' := by
  constructor
  · intro h
    obtain ⟨texts, ports⟩ := Prod.mk.inj h
    constructor
    · apply Option.some.inj
      rw [← inetPton_inetNtop ip, ← inetPton_inetNtop ip', Subtype.mk.inj texts]
    · exact UInt16.toNat_inj.1 (Int.ofNat_inj.1 ports)
  · rintro ⟨rfl, rfl⟩
    rfl

/-- A value gives one relay. -/
theorem TakenAs.unique {value : Bytes} {relay relay' : IpText × ℤ} (env : TurnEnv) (s : TurnSession)
    (h : TakenAs value relay) (h' : TakenAs value relay') : relay = relay' := by
  obtain ⟨r, parsed, rfl⟩ := h env s (List.replicate 12 0) [] turnStunHeaderSize rfl le_rfl
  obtain ⟨r', parsed', rfl⟩ := h' env s (List.replicate 12 0) [] turnStunHeaderSize rfl le_rfl
  rw [Option.some.inj (parsed.symm.trans parsed')]

/-! ## Ports in memory -/

theorem le16_xor (x y : UInt16) : le16 (x ^^^ y) = xorBytes (le16 x) (le16 y) := by
  have byte (k : ℕ) : ((x ^^^ y).toNat / 2 ^ k % 2 ^ 8).toUInt8 =
      (x.toNat / 2 ^ k % 2 ^ 8).toUInt8 ^^^ (y.toNat / 2 ^ k % 2 ^ 8).toUInt8 := by
    apply UInt8.toNat_inj.1
    rw [UInt8.toNat_xor]
    simp only [Nat.toUInt8_eq, UInt8.toNat_ofNat', Nat.mod_mod]
    rw [UInt16.toNat_xor, Nat.xor_div_two_pow, Nat.xor_mod_two_pow]
  have top (z : UInt16) : z.toNat / 2 ^ 8 % 2 ^ 8 = z.toNat / 256 := by
    have := z.toNat_lt
    omega
  have first := byte 0
  have last := byte 8
  rw [pow_zero, Nat.div_one, Nat.div_one, Nat.div_one] at first
  rw [top, top, top] at last
  simp only [le16, xorBytes, List.zipWith_cons_cons, List.zipWith_nil_left, List.cons.injEq, and_true]
  exact ⟨first, last⟩

/-- `htons` turns the bytes of a number around. -/
theorem le16_htons (x : UInt16) : le16 (htons x) = be16 x := by
  have hx := x.toNat_lt
  have value : (htons x).toNat = 256 * (x.toNat % 256) + x.toNat / 256 := by
    unfold htons
    rw [UInt16.toNat_or, UInt16.toNat_shiftLeft, UInt16.toNat_shiftRight]
    have low : x.toNat <<< 8 % 2 ^ 16 = (x.toNat % 256) <<< 8 := by
      rw [Nat.shiftLeft_eq, Nat.shiftLeft_eq]
      omega
    have high : x.toNat >>> 8 = x.toNat / 256 := Nat.shiftRight_eq_div_pow _ _
    show x.toNat <<< 8 % 2 ^ 16 ||| x.toNat >>> 8 = _
    rw [low, high, ← Nat.shiftLeft_add_eq_or_of_lt (by omega), Nat.shiftLeft_eq]
    omega
  unfold le16 be16
  rw [value]
  simp only [List.cons.injEq, and_true]
  constructor <;> congr 1 <;> omega

theorem be16_xor (x y : UInt16) : be16 (x ^^^ y) = xorBytes (be16 x) (be16 y) := by
  have bytes := le16_xor x y
  simp only [le16, xorBytes, List.zipWith_cons_cons, List.zipWith_nil_left, List.cons.injEq, and_true] at bytes
  simp only [be16, xorBytes, List.zipWith_cons_cons, List.zipWith_nil_left, List.cons.injEq, and_true]
  exact bytes.symm

/-! ## What is read -/

/-- The value that the client reads as an address and a port: the cookie is turned around and hides the
address alone. -/
def hiddenAddress (ip : UInt8 × UInt8 × UInt8 × UInt8) (port : UInt16) : Bytes :=
  [0, 1] ++ be16 port ++ xorBytes [ip.1, ip.2.1, ip.2.2.1, ip.2.2.2] (le32 magicCookie)

/-- The relay that a response with one address gives. -/
theorem takenAs_relayedAttr (port : UInt8 × UInt8) (ip : UInt8 × UInt8 × UInt8 × UInt8) :
    TakenAs (relayedAttr port ip).value (takenAddress port ip) := by
  intro env s id q n twelve enough
  have cookie : readBe32 (allocateResponse id (relayedAttr port ip) ++ q) 4 = magicCookie := by
    rw [allocateResponse, List.append_assoc, cookie_header]
  have success : readBe16 (allocateResponse id (relayedAttr port ip) ++ q) 0 = turnMsgAllocateResponse := by
    rw [allocateResponse, List.append_assoc, type_header]
  obtain ⟨attrs, walked, within⟩ := (turnReadable_response twelve q).success success
  obtain ⟨s', taken⟩ := @exists_foldlM_turnTakeAttr env _ s attrs within
  have start : s.relay = (none : Option (IpText × ℤ)).getD s.relay := rfl
  obtain ⟨-, last, read, relay⟩ := foldlM_turnTakeAttr start taken
  have carried := @carriedAddress_response id port ip twelve q
  rw [carriedAddress, walked] at carried
  obtain rfl := Option.some.inj (read.symm.trans carried)
  show ∃ r, turnParseAllocateResponse env (allocateResponse id (relayedAttr port ip) ++ q) n s = some r ∧ _
  unfold turnParseAllocateResponse
  dsimp only
  rw [if_neg (by rw [not_or, Nat.not_lt, not_not]; exact ⟨enough, cookie⟩), if_pos success, walked,
    Option.bind_eq_bind, Option.bind_some, taken, Option.bind_eq_bind, Option.bind_some]
  split_ifs
  · exact ⟨_, rfl, relay⟩
  · exact ⟨_, rfl, relay⟩

theorem addrBytes_of_le32 {x : UInt32} {a b c d : UInt8} (bytes : le32 x = [a, b, c, d]) :
    addrBytes x = (a, b, c, d) := by
  simp only [le32, List.cons.injEq, and_true] at bytes
  obtain ⟨first, second, third, fourth⟩ := bytes
  rw [addrBytes, first, second, third, fourth]

theorem xorBytes_magicCookie (a b c d : UInt8) :
    xorBytes [a, b, c, d] (le32 magicCookie) = [a ^^^ 0x42, b ^^^ 0xA4, c ^^^ 0x12, d ^^^ 0x21] := rfl

/-- What was combined with the cookie once more is what it was. -/
theorem addrBytes_hidden (a b c d : UInt8) :
    addrBytes (readLe32 [a ^^^ 0x42, b ^^^ 0xA4, c ^^^ 0x12, d ^^^ 0x21] 0 ^^^ magicCookie) =
      (a, b, c, d) := by
  apply addrBytes_of_le32
  rw [le32_xor, le32_readLe32, xorBytes_magicCookie]
  simp only [UInt8.xor_assoc, UInt8.xor_self, UInt8.xor_zero]

theorem takenAs_hiddenAddress (ip : UInt8 × UInt8 × UInt8 × UInt8) (port : UInt16) :
    TakenAs (hiddenAddress ip port) (relayOf ip port) := by
  obtain ⟨a, b, c, d⟩ := ip
  have number : readBe16 [(port.toNat / 256).toUInt8, (port.toNat % 256).toUInt8] 0 = port :=
    readBe16_be16 port []
  have address := addrBytes_hidden a b c d
  have taken := takenAs_relayedAttr ((port.toNat / 256).toUInt8, (port.toNat % 256).toUInt8)
    (a ^^^ 0x42, b ^^^ 0xA4, c ^^^ 0x12, d ^^^ 0x21)
  have relay : takenAddress ((port.toNat / 256).toUInt8, (port.toNat % 256).toUInt8)
      (a ^^^ 0x42, b ^^^ 0xA4, c ^^^ 0x12, d ^^^ 0x21) = relayOf (a, b, c, d) port := by
    refine Prod.ext (Subtype.ext ?_) ?_
    · show inetNtop (addrBytes (readLe32 [a ^^^ 0x42, b ^^^ 0xA4, c ^^^ 0x12, d ^^^ 0x21] 0 ^^^ magicCookie)) = _
      rw [address]
      rfl
    · show ((readBe16 [(port.toNat / 256).toUInt8, (port.toNat % 256).toUInt8] 0).toNat : ℤ) = _
      rw [number]
      rfl
  rw [relay] at taken
  rw [hiddenAddress, xorBytes_magicCookie]
  exact taken

/-! ## What is sent -/

/-- The port that `turn_send` hides is read as another one. -/
theorem turnXorPeerAddress_value (found : inetPton s.ip.val = some ip) :
    (turnXorPeerAddress env s).value = hiddenAddress ip (UInt16.ofInt s.port ^^^ 0x1221) := by
  obtain ⟨a, b, c, d⟩ := ip
  have port : le16 (htons (UInt16.ofInt s.port) ^^^ (magicCookie >>> 16).toUInt16) =
      be16 (UInt16.ofInt s.port ^^^ 0x1221) := by
    rw [le16_xor, le16_htons, be16_xor]
    rfl
  have address : le32 (turnPeerIp env s ^^^ magicCookie) =
      xorBytes [a, b, c, d] (le32 magicCookie) := by
    rw [turnPeerIp, found, le32_xor, le32_readLe32]
  show [0, 1] ++ le16 _ ++ le32 _ = _
  rw [port, address]
  rfl

/-- An address combined with both orders of the cookie. -/
def turnAround (ip : UInt8 × UInt8 × UInt8 × UInt8) : UInt8 × UInt8 × UInt8 × UInt8 :=
  (ip.1 ^^^ 0x63, ip.2.1 ^^^ 0xB6, ip.2.2.1 ^^^ 0xB6, ip.2.2.2 ^^^ 0x63)

/-- What follows the protocol is read as another address and another port. -/
theorem xorAddress_eq (ip : UInt8 × UInt8 × UInt8 × UInt8) (port : UInt16) :
    xorAddress ip port = hiddenAddress (turnAround ip) (port ^^^ 0x2112) := by
  obtain ⟨a, b, c, d⟩ := ip
  have address : xorBytes [a, b, c, d] (be32 magicCookie) =
      xorBytes [a ^^^ 0x63, b ^^^ 0xB6, c ^^^ 0xB6, d ^^^ 0x63] (le32 magicCookie) := by
    show [a ^^^ 0x21, b ^^^ 0x12, c ^^^ 0xA4, d ^^^ 0x42] =
      [a ^^^ 0x63 ^^^ 0x42, b ^^^ 0xB6 ^^^ 0xA4, c ^^^ 0xB6 ^^^ 0x12, d ^^^ 0x63 ^^^ 0x21]
    simp only [UInt8.xor_assoc]
    rfl
  rw [xorAddress, address, hiddenAddress, be16_xor]
  rfl

/-- No port comes back, what is sent does not follow the protocol, and what follows it is read wrongly. -/
theorem no_port_comes_back (found : inetPton s.ip.val = some ip) :
    let port := UInt16.ofInt s.port
    ¬ TakenAs (turnXorPeerAddress env s).value (relayOf ip port) ∧
      (turnXorPeerAddress env s).value ≠ xorAddress ip port ∧
        ¬ TakenAs (xorAddress ip port) (relayOf ip port) := by
  intro port
  have other {x : UInt16} (h : x ≠ 0) : port ^^^ x ≠ port := fun same =>
    h ((UInt16.xor_right_inj port).1 (same.trans UInt16.xor_zero.symm))
  rw [turnXorPeerAddress_value found, xorAddress_eq]
  refine ⟨fun back => ?_, fun same => ?_, fun read => ?_⟩
  · have := relayOf_inj.1 (back.unique env s (takenAs_hiddenAddress _ _))
    exact other (by decide) this.2.symm
  · have taken := takenAs_hiddenAddress ip (port ^^^ 0x1221)
    rw [same] at taken
    have := relayOf_inj.1 (taken.unique env s (takenAs_hiddenAddress _ _))
    exact absurd ((UInt16.xor_right_inj _).1 this.2) (by decide)
  · have := relayOf_inj.1 (read.unique env s (takenAs_hiddenAddress _ _))
    exact other (by decide) this.2.symm

/-- The peer at 10.0.0.1:9000 in surroundings in which nothing succeeds. -/
theorem port_9000_lost :
    let env := TurnEnv.failing ⟨List.replicate 12 1, rfl⟩ []
    let s := TurnSession.withPeer 600
    ¬ TakenAs (turnXorPeerAddress env s).value (relayOf (10, 0, 0, 1) 9000) ∧
      (turnXorPeerAddress env s).value ≠ xorAddress (10, 0, 0, 1) 9000 ∧
        ¬ TakenAs (xorAddress (10, 0, 0, 1) 9000) (relayOf (10, 0, 0, 1) 9000) := by
  intro env s
  have found : inetPton s.ip.val = some (10, 0, 0, 1) := by decide
  have port : UInt16.ofInt s.port = 9000 := by decide
  have lost := @no_port_comes_back env s _ found
  rw [port] at lost
  exact lost

/-- 10.0.0.1:9000 comes back as 10.0.0.1:12553. -/
theorem port_9000_is_12553 :
    let env := TurnEnv.failing ⟨List.replicate 12 1, rfl⟩ []
    let s := TurnSession.withPeer 600
    TakenAs (turnXorPeerAddress env s).value (relayOf (10, 0, 0, 1) 12553) ∧
      ¬ TakenAs (turnXorPeerAddress env s).value (relayOf (10, 0, 0, 1) 9000) := by
  intro env s
  have found : inetPton s.ip.val = some (10, 0, 0, 1) := by decide
  have taken := takenAs_hiddenAddress (10, 0, 0, 1) 12553
  have port : UInt16.ofInt s.port ^^^ 0x1221 = 12553 := by decide
  rw [turnXorPeerAddress_value found, port]
  refine ⟨taken, fun back => ?_⟩
  have := relayOf_inj.1 (back.unique env s taken)
  exact absurd this.2 (by decide)

end Orcashi
