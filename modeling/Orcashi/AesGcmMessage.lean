import Mathlib.Data.List.Basic
import Orcashi.Lib.Stun

/-!
# Encrypted messages as bytes

`orca_aes_gcm_message_serialize` writes the nonce, the tag, the length of the ciphertext in four bytes and
the ciphertext.  The length is a `size_t` and is cut to 32 bits without a check, and
`orca_aes_gcm_message_deserialize` asks only whether the buffer is too short for the length it reads: what
is behind the ciphertext is left out.
-/

namespace Orcashi

open CMemory Stun

/-! ## Messages -/

/-- `ORCA_AES_GCM_NONCE_LEN` -/
def orcaAesGcmNonceLen : ℕ := 12

/-- `ORCA_AES_GCM_TAG_LEN` -/
def orcaAesGcmTagLen : ℕ := 16

/-- `nonce` of a message. -/
abbrev AesGcmNonce := { b : Bytes // b.length = orcaAesGcmNonceLen }

/-- `tag` of a message. -/
abbrev AesGcmTag := { b : Bytes // b.length = orcaAesGcmTagLen }

/-- `OrcaAESGCMMessage` -/
structure OrcaAESGCMMessage where
  nonce : AesGcmNonce
  tag : AesGcmTag
  /-- the array `ciphertext` points to, if it points to one -/
  ciphertext : Option Bytes
  ciphertextLen : UInt64
  encrypted : Bool
  deriving DecidableEq

/-- `memset(message_out, 0, sizeof(OrcaAESGCMMessage))` -/
def OrcaAESGCMMessage.zero : OrcaAESGCMMessage where
  nonce := ⟨List.replicate orcaAesGcmNonceLen 0, List.length_replicate⟩
  tag := ⟨List.replicate orcaAesGcmTagLen 0, List.length_replicate⟩
  ciphertext := none
  ciphertextLen := 0
  encrypted := false

/-- What `malloc` gives for a size: an array with something in it, or `NULL`. -/
abbrev Malloc := (n : UInt64) → Option { b : Bytes // b.length = n.toNat }

/-- The `n` bytes at the front of an array; none where it has fewer. -/
def frontOf (array : Bytes) (n : UInt64) : Option Bytes :=
  if n.toNat ≤ array.length then some (array.take n.toNat) else none

/-- The copies into the buffer; none where one leaves its array. -/
def OrcaAESGCMMessage.copyInto (message : OrcaAESGCMMessage) (buffer : Bytes) : Option Bytes := do
  let buffer ← memcpy buffer 0 message.nonce.val
  let buffer ← memcpy buffer 12 message.tag.val
  let lenBe := be32 message.ciphertextLen.toUInt32
  let buffer ← memcpy buffer 28 lenBe
  let ciphertext ← frontOf (message.ciphertext.getD []) message.ciphertextLen
  memcpy buffer 32 ciphertext

/-- `some none` is -1, and a buffer is what `buffer_out` and `buffer_len` give. -/
def orcaAesGcmMessageSerialize (malloc : Malloc) (message : OrcaAESGCMMessage) : Option (Option Bytes) :=
  if !message.encrypted then some none
  else
    let totalLen : UInt64 := 12 + 16 + 4 + message.ciphertextLen
    match malloc totalLen with
    | none => some none
    | some buffer => (message.copyInto buffer.val).map some

/-- A buffer in memory. -/
structure AesGcmBuffer where
  address : UInt64
  bytes : Bytes
  fits : address.toNat + bytes.length < 2 ^ 64

/-- `buffer_len` -/
def AesGcmBuffer.len (buffer : AesGcmBuffer) : UInt64 := buffer.bytes.length.toUInt64

/-- The length of the ciphertext that a buffer states. -/
def AesGcmBuffer.statedLen (buffer : AesGcmBuffer) : UInt64 := (readBe32 buffer.bytes 28).toUInt64

/-- The nonce, the tag and the length that a buffer begins with. -/
def OrcaAESGCMMessage.header (buffer : AesGcmBuffer) (enough : 32 ≤ buffer.bytes.length) :
    OrcaAESGCMMessage :=
  { OrcaAESGCMMessage.zero with
    nonce := ⟨buffer.bytes.take 12, by rw [List.length_take]; unfold orcaAesGcmNonceLen; omega⟩
    tag := ⟨(buffer.bytes.drop 12).take 16, by
      rw [List.length_take, List.length_drop]; unfold orcaAesGcmTagLen; omega⟩
    ciphertextLen := buffer.statedLen }

/-- What is returned and what is then in `message_out`; none where the buffer is read past its end.  The
pointers are compared as addresses. -/
def orcaAesGcmMessageDeserialize (malloc : Malloc) (buffer : AesGcmBuffer) (messageOut : OrcaAESGCMMessage) :
    Option (ℤ × OrcaAESGCMMessage) :=
  if short : buffer.bytes.length < 32 then some (-1, messageOut)
  else
    let message := OrcaAESGCMMessage.header buffer (Nat.le_of_not_lt short)
    let ptr := buffer.address + 32
    if ptr + message.ciphertextLen > buffer.address + buffer.len then some (-1, message)
    else
      match malloc message.ciphertextLen with
      | none => some (-1, message)
      | some _ =>
        (frontOf (buffer.bytes.drop 32) message.ciphertextLen).map fun ciphertext =>
          (0, { message with ciphertext := some ciphertext, encrypted := true })

/-! ## What is asked for -/

/-- An encrypted message whose ciphertext is as long as it says. -/
structure OrcaAESGCMMessage.Sealed (m : OrcaAESGCMMessage) (c : Bytes) : Prop where
  encrypted : m.encrypted = true
  array : m.ciphertext = some c
  length : c.length = m.ciphertextLen.toNat

/-- A buffer gives the message back. -/
def Restores (malloc : Malloc) (buffer : AesGcmBuffer) (m : OrcaAESGCMMessage) : Prop :=
  ∀ out, orcaAesGcmMessageDeserialize malloc buffer out = some (0, m)

/-- The bytes are the serialization of the message. -/
def Serializes (m : OrcaAESGCMMessage) (b : Bytes) : Prop :=
  (∃ c, m.Sealed c) ∧
    ∀ malloc : Malloc, (malloc b.length.toUInt64).isSome → orcaAesGcmMessageSerialize malloc m = some (some b)

/-- A buffer is the serialization of the message it gives, or is refused, and is not read past its end. -/
structure Canonical (malloc : Malloc) (buffer : AesGcmBuffer) : Prop where
  within : ∀ out, orcaAesGcmMessageDeserialize malloc buffer out ≠ none
  accepted : ∀ out m, orcaAesGcmMessageDeserialize malloc buffer out = some (0, m) → Serializes m buffer.bytes
  refused : ∀ out, (∀ m, ¬ Serializes m buffer.bytes) →
    ∃ m, orcaAesGcmMessageDeserialize malloc buffer out = some (-1, m)

/-- A buffer from which a message could be taken has nothing behind it, and where it is too short for the
message it is not so near to the end of the address space that the pointer wraps. -/
structure StatesLength (malloc : Malloc) (buffer : AesGcmBuffer) : Prop where
  nothingBehind : 32 ≤ buffer.bytes.length → (malloc buffer.statedLen).isSome →
    buffer.bytes.length ≤ 32 + buffer.statedLen.toNat
  below : 32 ≤ buffer.bytes.length → (malloc buffer.statedLen).isSome →
    buffer.bytes.length < 32 + buffer.statedLen.toNat →
      buffer.address.toNat + 32 + buffer.statedLen.toNat < 2 ^ 64

/-! ## Lengths in four bytes -/

theorem be32_readBe32 {b : Bytes} {i : ℕ} (within : i + 4 ≤ b.length) :
    be32 (readBe32 b i) = (b.drop i).take 4 := by
  have four : ((b.drop i).take 4).length = 4 := by
    rw [List.length_take, List.length_drop]
    omega
  have byte : ∀ k < 4, b.getD (i + k) 0 = ((b.drop i).take 4).getD k 0 := by
    intro k hk
    rw [List.getD_eq_getElem?_getD, List.getD_eq_getElem?_getD, List.getElem?_take_of_lt hk,
      List.getElem?_drop]
  have h0 := byte 0 (by decide)
  have h1 := byte 1 (by decide)
  have h2 := byte 2 (by decide)
  have h3 := byte 3 (by decide)
  rw [Nat.add_zero] at h0
  unfold readBe32
  rw [h0, h1, h2, h3]
  obtain ⟨w, x, y, z, front⟩ := List.length_eq_four.1 four
  rw [front]
  have hw := w.toNat_lt
  have hx := x.toNat_lt
  have hy := y.toNat_lt
  have hz := z.toNat_lt
  have value : (16777216 * w.toNat + 65536 * x.toNat + 256 * y.toNat + z.toNat).toUInt32.toNat =
      16777216 * w.toNat + 65536 * x.toNat + 256 * y.toNat + z.toNat := by
    rw [Nat.toUInt32_eq, UInt32.toNat_ofNat']
    omega
  have number {n : ℕ} {c : UInt8} (h : n % 256 = c.toNat) : n.toUInt8 = c := by
    apply UInt8.toNat_inj.1
    rw [Nat.toUInt8_eq, UInt8.toNat_ofNat', ← h]
  simp only [List.getD_cons_zero, List.getD_cons_succ]
  rw [be32, value, @number _ w, @number _ x, @number _ y, @number _ z]
  all_goals omega

/-! ## What is written -/

section Write

variable {malloc : Malloc} {m : OrcaAESGCMMessage} {c b : Bytes}

/-- The nonce, the tag, the length and the ciphertext. -/
def OrcaAESGCMMessage.wire (m : OrcaAESGCMMessage) (c : Bytes) : Bytes :=
  m.nonce.val ++ (m.tag.val ++ (be32 m.ciphertextLen.toUInt32 ++ c))

theorem length_nonce (m : OrcaAESGCMMessage) : m.nonce.val.length = 12 := m.nonce.property

theorem length_tag (m : OrcaAESGCMMessage) : m.tag.val.length = 16 := m.tag.property

theorem length_wire (m : OrcaAESGCMMessage) (c : Bytes) : (m.wire c).length = 32 + c.length := by
  simp only [OrcaAESGCMMessage.wire, List.length_append, length_nonce, length_tag, length_be32]
  omega

theorem frontOf_self {n : UInt64} (length : c.length = n.toNat) : frontOf c n = some c := by
  unfold frontOf
  rw [if_pos (by omega), ← length, List.take_length]

/-- The copies fill an array of the right size. -/
theorem copyInto_eq (held : m.Sealed c) {buffer : Bytes} (size : buffer.length = 32 + c.length) :
    m.copyInto buffer = some (m.wire c) := by
  have nonce := length_nonce m
  have tag := length_tag m
  unfold OrcaAESGCMMessage.copyInto
  simp only [Option.bind_eq_bind, held.array, Option.getD_some, frontOf_self held.length, Option.bind_some]
  rw [memcpy_zero (by omega), Option.bind_some,
    memcpy_append (by rw [List.length_drop]; omega) nonce.symm, Option.bind_some, ← List.append_assoc,
    memcpy_append (by simp only [List.length_drop, length_be32]; omega)
      (by rw [List.length_append]; omega), Option.bind_some, ← List.append_assoc,
    memcpy_append (by simp only [List.length_drop, length_be32]; omega)
      (by simp only [List.length_append, length_be32]; omega)]
  have filled : (((buffer.drop m.nonce.val.length).drop m.tag.val.length).drop
      (be32 m.ciphertextLen.toUInt32).length).drop c.length = [] := by
    apply List.drop_eq_nil_of_le
    simp only [List.length_drop, length_be32]
    omega
  rw [filled, List.append_nil, OrcaAESGCMMessage.wire, List.append_assoc, List.append_assoc]

theorem memcpy_eq_some {mem b : Bytes} {i : ℕ} {copied : Bytes} (h : memcpy mem i b = some copied) :
    i + b.length ≤ mem.length ∧ copied.length = mem.length := by
  unfold memcpy at h
  split_ifs at h with fits
  obtain rfl := Option.some.inj h
  refine ⟨fits, ?_⟩
  simp only [List.length_append, List.length_take, List.length_drop]
  omega

/-- They stay within an array only if the message has room in it. -/
theorem room_of_copyInto (held : m.Sealed c) {buffer : Bytes} (h : m.copyInto buffer = some b) :
    32 + c.length ≤ buffer.length := by
  unfold OrcaAESGCMMessage.copyInto at h
  simp only [Option.bind_eq_bind, held.array, Option.getD_some, frontOf_self held.length, Option.bind_some] at h
  obtain ⟨b₁, first, h⟩ := Option.bind_eq_some_iff.1 h
  obtain ⟨b₂, second, h⟩ := Option.bind_eq_some_iff.1 h
  obtain ⟨b₃, third, fourth⟩ := Option.bind_eq_some_iff.1 h
  have size₁ := (memcpy_eq_some first).2
  have size₂ := (memcpy_eq_some second).2
  have size₃ := (memcpy_eq_some third).2
  have fits := (memcpy_eq_some fourth).1
  omega

theorem totalLen_toNat (len : UInt64) : (12 + 16 + 4 + len : UInt64).toNat = (32 + len.toNat) % 2 ^ 64 := by
  rw [UInt64.toNat_add]
  rfl

/-- A message whose size does not wrap is serialized where there is memory for it. -/
theorem serialize_of_room (held : m.Sealed c) (room : 32 + c.length < 2 ^ 64)
    (memory : (malloc (12 + 16 + 4 + m.ciphertextLen)).isSome) :
    orcaAesGcmMessageSerialize malloc m = some (some (m.wire c)) := by
  obtain ⟨buffer, allocated⟩ := Option.isSome_iff_exists.1 memory
  have size : buffer.val.length = 32 + c.length := by
    have := held.length
    rw [buffer.property, totalLen_toNat, Nat.mod_eq_of_lt (by omega)]
    omega
  unfold orcaAesGcmMessageSerialize
  dsimp only
  rw [held.encrypted, allocated]
  exact congrArg (Option.map some) (copyInto_eq held size)

/-- What is serialized has a size that does not wrap. -/
theorem serialize_eq_some (held : m.Sealed c) (h : orcaAesGcmMessageSerialize malloc m = some (some b)) :
    32 + c.length < 2 ^ 64 ∧ b = m.wire c := by
  unfold orcaAesGcmMessageSerialize at h
  dsimp only at h
  rw [held.encrypted] at h
  cases allocated : malloc (12 + 16 + 4 + m.ciphertextLen) with
  | none =>
    rw [allocated] at h
    simp at h
  | some buffer =>
    rw [allocated] at h
    obtain ⟨copied, copy, same⟩ := Option.map_eq_some_iff.1 h
    obtain rfl := Option.some.inj same
    have length := held.length
    have fits := room_of_copyInto held copy
    have size : buffer.val.length = (32 + m.ciphertextLen.toNat) % 2 ^ 64 :=
      buffer.property.trans (totalLen_toNat _)
    have room : 32 + c.length < 2 ^ 64 := by omega
    refine ⟨room, ?_⟩
    rw [copyInto_eq held (by omega)] at copy
    exact (Option.some.inj copy).symm

end Write

/-! ## What is read -/

section Read

variable {malloc : Malloc} {buffer : AesGcmBuffer} {m : OrcaAESGCMMessage} {c : Bytes}

theorem len_toNat (buffer : AesGcmBuffer) : buffer.len.toNat = buffer.bytes.length := by
  have := buffer.fits
  unfold AesGcmBuffer.len
  rw [Nat.toUInt64_eq, UInt64.toNat_ofNat']
  omega

theorem statedLen_toNat (buffer : AesGcmBuffer) :
    buffer.statedLen.toNat = (readBe32 buffer.bytes 28).toNat := UInt32.toNat_toUInt64 _

theorem statedLen_lt (buffer : AesGcmBuffer) : buffer.statedLen.toNat < 2 ^ 32 := by
  rw [statedLen_toNat]
  exact UInt32.toNat_lt _

/-- A buffer counts as too short if the message would end behind it, unless this end wraps. -/
theorem tooShort_iff (enough : 32 ≤ buffer.bytes.length) :
    buffer.address + 32 + buffer.statedLen > buffer.address + buffer.len ↔
      buffer.bytes.length < 32 + buffer.statedLen.toNat ∧
        buffer.address.toNat + 32 + buffer.statedLen.toNat < 2 ^ 64 := by
  have fits := buffer.fits
  have stated := statedLen_lt buffer
  have thirtyTwo : (32 : UInt64).toNat = 32 := rfl
  rw [gt_iff_lt, UInt64.lt_iff_toNat_lt, UInt64.toNat_add, UInt64.toNat_add, UInt64.toNat_add, len_toNat,
    thirtyTwo]
  omega

/-- A buffer from which nothing can be taken. -/
theorem deserialize_refused (h : buffer.bytes.length < 32 ∨
      (buffer.bytes.length < 32 + buffer.statedLen.toNat ∧
        buffer.address.toNat + 32 + buffer.statedLen.toNat < 2 ^ 64) ∨
      malloc buffer.statedLen = none) (out : OrcaAESGCMMessage) :
    ∃ m, orcaAesGcmMessageDeserialize malloc buffer out = some (-1, m) := by
  unfold orcaAesGcmMessageDeserialize
  split_ifs with short
  · exact ⟨out, rfl⟩
  · dsimp only
    split_ifs with tooShort
    · exact ⟨_, rfl⟩
    · have memory : malloc (OrcaAESGCMMessage.header buffer (Nat.le_of_not_lt short)).ciphertextLen = none := by
        rcases h with h | h | h
        · exact absurd h short
        · exact absurd ((tooShort_iff (Nat.le_of_not_lt short)).2 h) tooShort
        · exact h
      rw [memory]
      exact ⟨_, rfl⟩

/-- What is taken from a buffer. -/
theorem deserialize_eq (enough : 32 ≤ buffer.bytes.length) (memory : (malloc buffer.statedLen).isSome)
    (long : ¬ (buffer.bytes.length < 32 + buffer.statedLen.toNat ∧
      buffer.address.toNat + 32 + buffer.statedLen.toNat < 2 ^ 64)) (out : OrcaAESGCMMessage) :
    orcaAesGcmMessageDeserialize malloc buffer out =
      (frontOf (buffer.bytes.drop 32) buffer.statedLen).map fun c =>
        (0, { OrcaAESGCMMessage.header buffer enough with ciphertext := some c, encrypted := true }) := by
  obtain ⟨array, allocated⟩ := Option.isSome_iff_exists.1 memory
  have here : malloc (OrcaAESGCMMessage.header buffer enough).ciphertextLen = some array := allocated
  have goesOn : ¬ buffer.address + 32 + (OrcaAESGCMMessage.header buffer enough).ciphertextLen >
    buffer.address + buffer.len := (tooShort_iff enough).not.2 long
  unfold orcaAesGcmMessageDeserialize
  dsimp only
  rw [dif_neg (Nat.not_lt.2 enough), if_neg goesOn, here]
  rfl

/-- The message that fills a buffer. -/
theorem wire_of_exact (enough : 32 ≤ buffer.bytes.length) {m : OrcaAESGCMMessage}
    (nonce : m.nonce.val = buffer.bytes.take 12) (tag : m.tag.val = (buffer.bytes.drop 12).take 16)
    (length : m.ciphertextLen = buffer.statedLen) : m.wire (buffer.bytes.drop 32) = buffer.bytes := by
  have cut : be32 m.ciphertextLen.toUInt32 = (buffer.bytes.drop 28).take 4 := by
    rw [length, AesGcmBuffer.statedLen, UInt32.toUInt32_toUInt64, be32_readBe32 enough]
  have back (i n : ℕ) : (buffer.bytes.drop i).take n ++ buffer.bytes.drop (i + n) = buffer.bytes.drop i := by
    rw [← List.drop_drop, List.take_append_drop]
  rw [OrcaAESGCMMessage.wire, nonce, tag, cut, back 28 4, back 12 16, List.take_append_drop]

/-- A wire that is read states the length that was written, in 32 bits. -/
theorem statedLen_of_wire (wire : buffer.bytes = m.wire c) :
    buffer.statedLen.toNat = m.ciphertextLen.toNat % 2 ^ 32 := by
  have at_ : (28 : ℕ) = (m.nonce.val ++ m.tag.val).length := by
    rw [List.length_append, length_nonce, length_tag]
  rw [statedLen_toNat, wire, OrcaAESGCMMessage.wire, ← List.append_assoc, readBe32_append at_, readBe32_be32]
  exact UInt64.toNat_toUInt32 _

/-- The parts of a wire where they are read. -/
theorem parts_of_wire (m : OrcaAESGCMMessage) (c : Bytes) :
    (m.wire c).take 12 = m.nonce.val ∧ ((m.wire c).drop 12).take 16 = m.tag.val ∧ (m.wire c).drop 32 = c := by
  have header : (m.nonce.val ++ (m.tag.val ++ be32 m.ciphertextLen.toUInt32)).length = 32 := by
    simp only [List.length_append, length_be32, length_nonce, length_tag]
  refine ⟨?_, ?_, ?_⟩
  · rw [OrcaAESGCMMessage.wire, List.take_left' (length_nonce m)]
  · rw [OrcaAESGCMMessage.wire, List.drop_left' (length_nonce m), List.take_left' (length_tag m)]
  · rw [OrcaAESGCMMessage.wire, ← List.append_assoc m.tag.val, ← List.append_assoc m.nonce.val,
      List.drop_left' header]

end Read

/-! ## Both ways -/

section Both

variable {malloc : Malloc} {buffer : AesGcmBuffer} {m : OrcaAESGCMMessage} {c : Bytes}

/-- Memory for every size. -/
def Malloc.always : Malloc := fun n => some ⟨List.replicate n.toNat 0, List.length_replicate⟩

/-- A serialization gives its message back if the length fits its field and there is memory for it. -/
theorem restores_iff (held : m.Sealed c) (wire : buffer.bytes = m.wire c) :
    Restores malloc buffer m ↔ m.ciphertextLen.toNat < 2 ^ 32 ∧ (malloc m.ciphertextLen).isSome := by
  have length := held.length
  have size : buffer.bytes.length = 32 + m.ciphertextLen.toNat := by rw [wire, length_wire, length]
  have stated := statedLen_of_wire wire
  have small := Nat.mod_le m.ciphertextLen.toNat (2 ^ 32)
  have enough : 32 ≤ buffer.bytes.length := by omega
  have same : buffer.statedLen = m.ciphertextLen ↔ m.ciphertextLen.toNat < 2 ^ 32 := by
    rw [← UInt64.toNat_inj, stated]
    omega
  cases memory : malloc buffer.statedLen with
  | none =>
    obtain ⟨m', refused⟩ := deserialize_refused (Or.inr (Or.inr memory)) OrcaAESGCMMessage.zero
    refine iff_of_false (fun restores => ?_) ?_
    · have ret : (-1 : ℤ) = 0 := congrArg Prod.fst (Option.some.inj (refused.symm.trans (restores .zero)))
      exact absurd ret (by decide)
    · rintro ⟨fits, memory'⟩
      rw [← same.2 fits, memory] at memory'
      cases memory'
  | some array =>
    have read (out : OrcaAESGCMMessage) := @deserialize_eq malloc buffer enough
      (by rw [memory]; rfl) (by omega) out
    constructor
    · intro restores
      have back := (read .zero).symm.trans (restores .zero)
      obtain ⟨c', -, message⟩ := Option.map_eq_some_iff.1 back
      have stated' : buffer.statedLen = m.ciphertextLen :=
        congrArg OrcaAESGCMMessage.ciphertextLen (Prod.mk.inj message).2
      exact ⟨same.1 stated', by rw [← stated', memory]; rfl⟩
    · rintro ⟨fits, -⟩ out
      have stated' := same.2 fits
      obtain ⟨nonce, tag, rest⟩ := parts_of_wire m c
      rw [← wire] at nonce tag rest
      have message : { OrcaAESGCMMessage.header buffer enough with
          ciphertext := some c, encrypted := true } = m := by
        obtain ⟨encrypted, array, -⟩ := held
        cases m
        simp only [OrcaAESGCMMessage.header, OrcaAESGCMMessage.mk.injEq]
        exact ⟨Subtype.ext nonce, Subtype.ext tag, array.symm, stated', encrypted.symm⟩
      rw [read, rest, stated', frontOf_self length, Option.map_some, message]

/-- A buffer that is exact is the serialization of what it gives. -/
theorem serializes_of_exact (enough : 32 ≤ buffer.bytes.length)
    (exact_ : buffer.bytes.length = 32 + buffer.statedLen.toNat)
    (message : m = { OrcaAESGCMMessage.header buffer enough with
      ciphertext := some (buffer.bytes.drop 32), encrypted := true }) : Serializes m buffer.bytes := by
  have fits := buffer.fits
  have size : (buffer.bytes.drop 32).length = buffer.statedLen.toNat := by
    rw [List.length_drop]
    omega
  have nonce : m.nonce.val = buffer.bytes.take 12 := by rw [message]; rfl
  have tag : m.tag.val = (buffer.bytes.drop 12).take 16 := by rw [message]; rfl
  have length : m.ciphertextLen = buffer.statedLen := by rw [message]; rfl
  have held : m.Sealed (buffer.bytes.drop 32) :=
    ⟨by rw [message], by rw [message], by rw [length, size]⟩
  refine ⟨⟨_, held⟩, fun malloc memory => ?_⟩
  have total : buffer.bytes.length.toUInt64 = 12 + 16 + 4 + m.ciphertextLen := by
    apply UInt64.toNat_inj.1
    rw [totalLen_toNat, Nat.toUInt64_eq, UInt64.toNat_ofNat', exact_, length]
  rw [total] at memory
  rw [serialize_of_room held (by omega) memory, wire_of_exact enough nonce tag length]

/-- A buffer is as long as the message it is the serialization of says. -/
theorem length_of_serializes {m : OrcaAESGCMMessage} {b : Bytes} (h : Serializes m b) :
    b.length = 32 + m.ciphertextLen.toNat := by
  obtain ⟨⟨c, held⟩, serialized⟩ := h
  obtain ⟨-, rfl⟩ := serialize_eq_some held (serialized Malloc.always rfl)
  rw [length_wire, held.length]

theorem canonical_iff (malloc : Malloc) (buffer : AesGcmBuffer) :
    Canonical malloc buffer ↔ StatesLength malloc buffer := by
  constructor
  · intro canonical
    refine ⟨fun enough memory => ?_, fun enough memory short => ?_⟩
    · by_contra behind
      rw [Nat.not_le] at behind
      have front : frontOf (buffer.bytes.drop 32) buffer.statedLen =
          some ((buffer.bytes.drop 32).take buffer.statedLen.toNat) :=
        if_pos (by rw [List.length_drop]; omega)
      have read := @deserialize_eq malloc buffer enough memory (by omega) .zero
      rw [front] at read
      have length : buffer.bytes.length = 32 + buffer.statedLen.toNat :=
        length_of_serializes (canonical.accepted .zero _ read)
      omega
    · by_contra wraps
      have front : frontOf (buffer.bytes.drop 32) buffer.statedLen = none :=
        if_neg (by rw [List.length_drop]; omega)
      have read := @deserialize_eq malloc buffer enough memory (fun h => wraps h.2) .zero
      rw [front] at read
      exact canonical.within .zero read
  · intro states
    by_cases refuses : buffer.bytes.length < 32 ∨
        (buffer.bytes.length < 32 + buffer.statedLen.toNat ∧
          buffer.address.toNat + 32 + buffer.statedLen.toNat < 2 ^ 64) ∨ malloc buffer.statedLen = none
    · have refused := @deserialize_refused malloc buffer refuses
      refine ⟨fun out => ?_, fun out m read => ?_, fun out _ => refused out⟩
      · obtain ⟨m, refused⟩ := refused out
        rw [refused]
        exact Option.some_ne_none _
      · obtain ⟨m', refused⟩ := refused out
        have ret : (-1 : ℤ) = 0 := congrArg Prod.fst (Option.some.inj (refused.symm.trans read))
        exact absurd ret (by decide)
    · simp only [not_or] at refuses
      obtain ⟨enough, long, memory⟩ := refuses
      have enough := Nat.le_of_not_lt enough
      have memory := Option.isSome_iff_ne_none.2 memory
      have exact_ : buffer.bytes.length = 32 + buffer.statedLen.toNat := by
        have upper := states.nothingBehind enough memory
        by_contra other
        exact long ⟨by omega, states.below enough memory (by omega)⟩
      have front : frontOf (buffer.bytes.drop 32) buffer.statedLen = some (buffer.bytes.drop 32) :=
        frontOf_self (by rw [List.length_drop]; omega)
      have read (out : OrcaAESGCMMessage) := @deserialize_eq malloc buffer enough memory long out
      have serializes := serializes_of_exact enough exact_ rfl
      rw [front] at read
      refine ⟨fun out => ?_, fun out m read' => ?_, fun out none_ => ?_⟩
      · rw [read]
        exact Option.some_ne_none _
      · have message := Option.some.inj ((read out).symm.trans read')
        rw [← (Prod.mk.inj message).2]
        exact serializes
      · exact absurd serializes (none_ _)

end Both

/-- A serialization gives its message back exactly if the length fits in four bytes and there is memory, and
a buffer is the serialization of what it gives exactly if nothing is behind the length it states. -/
theorem message_format_iff (malloc malloc' : Malloc) (m : OrcaAESGCMMessage) (c : Bytes)
    (buffer : AesGcmBuffer) :
    (m.Sealed c → orcaAesGcmMessageSerialize malloc m = some (some buffer.bytes) →
      (Restores malloc' buffer m ↔ m.ciphertextLen.toNat < 2 ^ 32 ∧ (malloc' m.ciphertextLen).isSome)) ∧
    (Canonical malloc' buffer ↔ StatesLength malloc' buffer) := by
  refine ⟨?_, canonical_iff malloc' buffer⟩
  intro held serialized
  exact restores_iff held (serialize_eq_some held serialized).2

/-- A message with this ciphertext, and a nonce and a tag of zeros. -/
def OrcaAESGCMMessage.of (c : Bytes) : OrcaAESGCMMessage :=
  { OrcaAESGCMMessage.zero with
    ciphertext := some c, ciphertextLen := c.length.toUInt64, encrypted := true }

theorem sealed_of {c : Bytes} (short : 4096 + 32 + c.length < 2 ^ 64) :
    (OrcaAESGCMMessage.of c).Sealed c := by
  refine ⟨rfl, rfl, ?_⟩
  show c.length = c.length.toUInt64.toNat
  rw [Nat.toUInt64_eq, UInt64.toNat_ofNat']
  omega

/-- Its serialization, somewhere in memory. -/
def AesGcmBuffer.of (c : Bytes) (short : 4096 + 32 + c.length < 2 ^ 64) : AesGcmBuffer where
  address := 4096
  bytes := (OrcaAESGCMMessage.of c).wire c
  fits := by
    rw [length_wire, ← Nat.add_assoc]
    exact short

theorem serialize_of {c : Bytes} (short : 4096 + 32 + c.length < 2 ^ 64) :
    orcaAesGcmMessageSerialize .always (.of c) = some (some (AesGcmBuffer.of c short).bytes) :=
  serialize_of_room (sealed_of short) (by omega) rfl

/-- Three bytes. -/
theorem short_message_restored :
    let buffer := AesGcmBuffer.of [1, 2, 3] (by decide)
    Restores .always buffer (.of [1, 2, 3]) ∧ Canonical .always buffer := by
  intro buffer
  obtain ⟨restores, canonical⟩ := message_format_iff .always .always (.of [1, 2, 3]) [1, 2, 3] buffer
  constructor
  · exact (restores (sealed_of (by decide)) (serialize_of (by decide))).2 ⟨by decide, rfl⟩
  · refine canonical.2 ⟨fun _ _ => ?_, fun _ _ behind => ?_⟩
    · decide
    · exact absurd behind (by decide)

/-- A buffer of 33 zeros is taken for an empty message. -/
def AesGcmBuffer.spare : AesGcmBuffer := ⟨4096, List.replicate 33 0, by decide⟩

/-- A ciphertext of 2^32 bytes is serialized and not given back, and a byte behind a message is accepted. -/
theorem long_message_lost :
    let c : Bytes := List.replicate 4294967296 0
    (∃ buffer : AesGcmBuffer, orcaAesGcmMessageSerialize .always (.of c) = some (some buffer.bytes) ∧
      ¬ Restores .always buffer (.of c)) ∧ ¬ Canonical .always .spare := by
  have lost {c : Bytes} (long : c.length = 4294967296) :
      ∃ buffer : AesGcmBuffer, orcaAesGcmMessageSerialize .always (.of c) = some (some buffer.bytes) ∧
        ¬ Restores .always buffer (.of c) := by
    have short : 4096 + 32 + c.length < 2 ^ 64 := by rw [long]; decide
    refine ⟨.of c short, serialize_of short, fun restores => ?_⟩
    have fits := ((restores_iff (sealed_of short) rfl).1 restores).1
    rw [← (sealed_of short).length, long] at fits
    exact absurd fits (by decide)
  intro c
  refine ⟨lost List.length_replicate, fun canonical => ?_⟩
  exact absurd (((canonical_iff _ _).1 canonical).nothingBehind (by decide) rfl) (by decide)

end Orcashi
