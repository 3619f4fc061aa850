import Orcashi.Env

/-!
# Messages on the wire

A datagram is a `P2PMessage`: twenty bytes of header, as a little-endian machine lays the struct
out, and the payload.  The receiver looks at its buffer through a pointer to that struct, so the
payload it sees is the rest of the buffer, whatever `payload_len` says.
-/

namespace Orcashi

/-! ## Numbers of two and of four bytes -/

/-- A number of 16 bits, the low byte first. -/
def le16 (x : UInt16) : Bytes := [(x.toNat % 256).toUInt8, (x.toNat / 256).toUInt8]

/-- The number at a position. -/
def readLe16 (b : Bytes) (i : ℕ) : UInt16 :=
  ((b.getD i 0).toNat + 256 * (b.getD (i + 1) 0).toNat).toUInt16

/-- A number of 32 bits, the low byte first. -/
def le32 (x : UInt32) : Bytes :=
  [(x.toNat % 256).toUInt8, (x.toNat / 256 % 256).toUInt8, (x.toNat / 65536 % 256).toUInt8,
    (x.toNat / 16777216).toUInt8]

/-- The number at a position. -/
def readLe32 (b : Bytes) (i : ℕ) : UInt32 :=
  ((b.getD i 0).toNat + 256 * (b.getD (i + 1) 0).toNat + 65536 * (b.getD (i + 2) 0).toNat +
    16777216 * (b.getD (i + 3) 0).toNat).toUInt32

theorem readLe16_front {p : Bytes} {i : ℕ} (h : i + 2 ≤ p.length) (q : Bytes) :
    readLe16 (p ++ q) i = readLe16 p i := by
  unfold readLe16
  rw [CMemory.getD_append_front (by omega), CMemory.getD_append_front (by omega)]

theorem readLe32_front {p : Bytes} {i : ℕ} (h : i + 4 ≤ p.length) (q : Bytes) :
    readLe32 (p ++ q) i = readLe32 p i := by
  unfold readLe32
  rw [CMemory.getD_append_front (by omega), CMemory.getD_append_front (by omega),
    CMemory.getD_append_front (by omega), CMemory.getD_append_front (by omega)]

/-! ## The struct -/

/-- `P2P_MAGIC` -/
def p2pMagic : UInt32 := 0x4F524341

/-- `P2P_PROTOCOL_VERSION` -/
def p2pProtocolVersion : UInt8 := 1

/-- `sizeof(P2PMessage)`; two bytes of padding follow `type`. -/
def headerSize : ℕ := 20

/-- `P2PMessageType` -/
inductive P2PMessageType where
  | handshake
  | handshakeResponse
  | data
  | keepalive
  | close
  | addRequest
  | acceptConfirm
  | rejectConfirm
  deriving DecidableEq

namespace P2PMessageType

/-- The values of the enumeration. -/
def code : P2PMessageType → UInt8
  | handshake => 1
  | handshakeResponse => 2
  | data => 3
  | keepalive => 4
  | close => 5
  | addRequest => 6
  | acceptConfirm => 7
  | rejectConfirm => 8

/-- The cases of the `switch` over `msg->type`. -/
def ofCode : UInt8 → Option P2PMessageType
  | 1 => some handshake
  | 2 => some handshakeResponse
  | 3 => some data
  | 4 => some keepalive
  | 5 => some close
  | 6 => some addRequest
  | 7 => some acceptConfirm
  | 8 => some rejectConfirm
  | _ => none

theorem ofCode_code (t : P2PMessageType) : ofCode t.code = some t := by
  cases t <;> rfl

theorem code_of_ofCode {b : UInt8} {t : P2PMessageType} (h : ofCode b = some t) : b = t.code := by
  unfold ofCode at h
  split at h <;> first | (obtain rfl := Option.some.inj h; rfl) | cases h

end P2PMessageType

/-- `P2PMessage` -/
structure P2PMessage where
  magic : UInt32
  version : UInt8
  type : UInt8
  sequence : UInt32
  timestamp : UInt32
  payloadLen : UInt32
  /-- the memory from `msg->payload` on -/
  payload : Bytes
  deriving DecidableEq

namespace P2PMessage

/-- `(P2PMessage*)buffer`. -/
def ofBuffer (b : Bytes) : P2PMessage where
  magic := readLe32 b 0
  version := b.getD 4 0
  type := b.getD 5 0
  sequence := readLe32 b 8
  timestamp := readLe32 b 12
  payloadLen := readLe32 b 16
  payload := b.drop headerSize

/-- The bytes of a message; `malloc` leaves the padding undefined, here it is zero. -/
def toBytes (m : P2PMessage) : Bytes :=
  le32 m.magic ++ [m.version, m.type, 0, 0] ++ le32 m.sequence ++ le32 m.timestamp ++
    le32 m.payloadLen ++ m.payload

/-- The message `send_message` fills in. -/
def make (now : Time) (type : P2PMessageType) (payload : Bytes) : P2PMessage where
  magic := p2pMagic
  version := p2pProtocolVersion
  type := type.code
  sequence := UInt32.ofInt now
  timestamp := UInt32.ofInt now
  payloadLen := payload.length.toUInt32
  payload := payload

end P2PMessage

/-! ## What is sent is what is read -/

theorem readLe16_eq {b : Bytes} {i : ℕ} {x : UInt16} (h : (b.drop i).take 2 = le16 x) :
    readLe16 b i = x := by
  have hx := x.toNat_lt
  have byte : ∀ k < 2, b.getD (i + k) 0 = (le16 x).getD k 0 := by
    intro k hk
    rw [← h, List.getD_eq_getElem?_getD, List.getD_eq_getElem?_getD, List.getElem?_take_of_lt hk,
      List.getElem?_drop]
  have h0 := byte 0 (by decide)
  have h1 := byte 1 (by decide)
  rw [Nat.add_zero] at h0
  unfold readLe16
  rw [h0, h1]
  apply UInt16.toNat_inj.1
  simp only [le16, List.getD_cons_zero, List.getD_cons_succ, Nat.toUInt8_eq, Nat.toUInt16_eq,
    UInt8.toNat_ofNat', UInt16.toNat_ofNat']
  omega

theorem readLe32_eq {b : Bytes} {i : ℕ} {x : UInt32} (h : (b.drop i).take 4 = le32 x) :
    readLe32 b i = x := by
  have hx := x.toNat_lt
  have byte : ∀ k < 4, (b.getD (i + k) 0) = (le32 x).getD k 0 := by
    intro k hk
    rw [← h, List.getD_eq_getElem?_getD, List.getD_eq_getElem?_getD, List.getElem?_take_of_lt hk,
      List.getElem?_drop]
  have h0 := byte 0 (by decide)
  have h1 := byte 1 (by decide)
  have h2 := byte 2 (by decide)
  have h3 := byte 3 (by decide)
  rw [Nat.add_zero] at h0
  unfold readLe32
  rw [h0, h1, h2, h3]
  apply UInt32.toNat_inj.1
  simp only [le32, List.getD_cons_zero, List.getD_cons_succ, Nat.toUInt8_eq, Nat.toUInt32_eq,
    UInt8.toNat_ofNat', UInt32.toNat_ofNat']
  omega

theorem P2PMessage.ofBuffer_toBytes (m : P2PMessage) : ofBuffer m.toBytes = m := by
  have magic : readLe32 m.toBytes 0 = m.magic := readLe32_eq rfl
  have sequence : readLe32 m.toBytes 8 = m.sequence := readLe32_eq rfl
  have timestamp : readLe32 m.toBytes 12 = m.timestamp := readLe32_eq rfl
  have payloadLen : readLe32 m.toBytes 16 = m.payloadLen := readLe32_eq rfl
  unfold ofBuffer
  rw [magic, sequence, timestamp, payloadLen]
  rfl

theorem P2PMessage.length_toBytes (m : P2PMessage) :
    m.toBytes.length = headerSize + m.payload.length := by
  simp only [toBytes, le32, List.length_append, List.length_cons, List.length_nil, headerSize]

/-- A buffer that holds the first bytes of a datagram, over what was there before. -/
theorem P2PMessage.take_toBytes_append (m : P2PMessage) {k : ℕ} (header : headerSize ≤ k)
    (rest : Bytes) :
    m.toBytes.take k ++ rest =
      { m with payload := m.payload.take (k - headerSize) ++ rest }.toBytes := by
  have split (x : Bytes) : { m with payload := x }.toBytes =
      { m with payload := [] }.toBytes ++ x := by simp [toBytes]
  have size : ({ m with payload := [] } : P2PMessage).toBytes.length = headerSize := by
    rw [length_toBytes]
    rfl
  rw [split (_ ++ rest), show m.toBytes = _ from split m.payload, List.take_append, size,
    List.take_of_length_le (by omega), List.append_assoc]

end Orcashi
