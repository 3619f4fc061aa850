import Mathlib.Data.Nat.Bitwise
import Orcashi.Lib.CMemory

/-!
# STUN messages

Twenty bytes of header, which hold a type, the number of bytes behind the header, the magic cookie and
a transaction id, and then attributes.  An attribute is a type, the length of its value and the value;
bytes of padding follow up to the next multiple of four.  The reader here accepts nothing else, and the
main results say which bytes it reads as a given message.
-/

namespace Stun

open CMemory

/-! ## Numbers in network order -/

/-- A number of 16 bits in network order. -/
def be16 (x : UInt16) : Bytes := [(x.toNat / 256).toUInt8, (x.toNat % 256).toUInt8]

/-- The number at a position. -/
def readBe16 (b : Bytes) (i : ℕ) : UInt16 :=
  (256 * (b.getD i 0).toNat + (b.getD (i + 1) 0).toNat).toUInt16

/-- A number of 32 bits in network order. -/
def be32 (x : UInt32) : Bytes :=
  [(x.toNat / 16777216).toUInt8, (x.toNat / 65536 % 256).toUInt8, (x.toNat / 256 % 256).toUInt8,
    (x.toNat % 256).toUInt8]

/-- The number at a position. -/
def readBe32 (b : Bytes) (i : ℕ) : UInt32 :=
  (16777216 * (b.getD i 0).toNat + 65536 * (b.getD (i + 1) 0).toNat +
    256 * (b.getD (i + 2) 0).toNat + (b.getD (i + 3) 0).toNat).toUInt32

@[simp] theorem length_be16 (x : UInt16) : (be16 x).length = 2 := rfl

@[simp] theorem length_be32 (x : UInt32) : (be32 x).length = 4 := rfl

theorem readBe16_be16 (x : UInt16) (rest : Bytes) : readBe16 (be16 x ++ rest) 0 = x := by
  have hx := x.toNat_lt
  apply UInt16.toNat_inj.1
  simp only [readBe16, be16, List.cons_append, List.getD_cons_zero, List.getD_cons_succ,
    Nat.toUInt8_eq, Nat.toUInt16_eq, UInt8.toNat_ofNat', UInt16.toNat_ofNat']
  omega

theorem readBe32_be32 (x : UInt32) (rest : Bytes) : readBe32 (be32 x ++ rest) 0 = x := by
  have hx := x.toNat_lt
  apply UInt32.toNat_inj.1
  simp only [readBe32, be32, List.cons_append, List.getD_cons_zero, List.getD_cons_succ,
    Nat.toUInt8_eq, Nat.toUInt32_eq, UInt8.toNat_ofNat', UInt32.toNat_ofNat']
  omega

theorem readBe16_front {p : Bytes} {i : ℕ} (h : i + 2 ≤ p.length) (q : Bytes) :
    readBe16 (p ++ q) i = readBe16 p i := by
  unfold readBe16
  rw [getD_append_front (by omega), getD_append_front (by omega)]

theorem readBe32_front {p : Bytes} {i : ℕ} (h : i + 4 ≤ p.length) (q : Bytes) :
    readBe32 (p ++ q) i = readBe32 p i := by
  unfold readBe32
  rw [getD_append_front (by omega), getD_append_front (by omega), getD_append_front (by omega),
    getD_append_front (by omega)]

theorem readBe16_append {p : Bytes} {i : ℕ} (at_ : i = p.length) (b : Bytes) :
    readBe16 (p ++ b) i = readBe16 b 0 := by
  subst at_
  simp only [readBe16, List.getD_eq_getElem?_getD, List.getElem?_append_right (Nat.le_refl _),
    List.getElem?_append_right (Nat.le_add_right _ _), Nat.sub_self, Nat.add_sub_cancel_left,
    Nat.zero_add]

theorem readBe32_append {p : Bytes} {i : ℕ} (at_ : i = p.length) (b : Bytes) :
    readBe32 (p ++ b) i = readBe32 b 0 := by
  subst at_
  simp only [readBe32, List.getD_eq_getElem?_getD, List.getElem?_append_right (Nat.le_refl _),
    List.getElem?_append_right (Nat.le_add_right _ _), Nat.sub_self, Nat.add_sub_cancel_left,
    Nat.zero_add]

/-- A number that is read is there. -/
theorem be16_readBe16 (a b : UInt8) (rest : Bytes) : be16 (readBe16 (a :: b :: rest) 0) = [a, b] := by
  have ha := a.toNat_lt
  have hb := b.toNat_lt
  have value : (readBe16 (a :: b :: rest) 0).toNat = 256 * a.toNat + b.toNat := by
    simp only [readBe16, List.getD_cons_zero, List.getD_cons_succ, Nat.toUInt16_eq,
      UInt16.toNat_ofNat']
    omega
  have high : ((256 * a.toNat + b.toNat) / 256).toUInt8 = a := by
    apply UInt8.toNat_inj.1
    rw [Nat.toUInt8_eq, UInt8.toNat_ofNat']
    omega
  have low : ((256 * a.toNat + b.toNat) % 256).toUInt8 = b := by
    apply UInt8.toNat_inj.1
    rw [Nat.toUInt8_eq, UInt8.toNat_ofNat']
    omega
  rw [be16, value, high, low]

/-- `a` and `b`, byte by byte. -/
def xorBytes (a b : Bytes) : Bytes := List.zipWith (· ^^^ ·) a b

/-! ## Attributes -/

/-- An attribute. -/
structure Attr where
  type : UInt16
  value : Bytes
  deriving DecidableEq

/-- The number of bytes from a length up to the next multiple of four. -/
def padding (len : ℕ) : ℕ := (4 - len % 4) % 4

/-- An attribute without its padding. -/
def Attr.bytes (a : Attr) : Bytes := be16 a.type ++ (be16 a.value.length.toUInt16 ++ a.value)

/-- The attributes that the bytes consist of. -/
def parseAttrs (b : Bytes) : Option (List Attr) :=
  let len := (readBe16 b 2).toNat
  if b = [] then some []
  else if b.length < 4 + len + padding len then none
  else
    (parseAttrs (b.drop (4 + len + padding len))).map fun attrs =>
      ⟨readBe16 b 0, (b.drop 4).take len⟩ :: attrs
termination_by b.length
decreasing_by
  have := List.length_pos_iff.2 ‹b ≠ []›
  rw [List.length_drop]
  omega

@[simp] theorem parseAttrs_nil : parseAttrs [] = some [] := by
  rw [parseAttrs, if_pos rfl]

theorem padding_of_dvd {len : ℕ} (h : 4 ∣ len) : padding len = 0 := by
  unfold padding
  omega

theorem four_dvd_add_padding (len : ℕ) : 4 ∣ len + padding len := by
  unfold padding
  omega

theorem Attr.length_bytes (a : Attr) : a.bytes.length = 4 + a.value.length := by
  simp only [bytes, List.length_append, length_be16]
  omega

/-- An attribute at the front is read, whatever its padding is. -/
theorem parseAttrs_cons {a : Attr} (fits : a.value.length < 65536) {pad : Bytes}
    (padded : pad.length = padding a.value.length) (rest : Bytes) :
    parseAttrs (a.bytes ++ (pad ++ rest)) = (parseAttrs rest).map (a :: ·) := by
  have len : (readBe16 (a.bytes ++ (pad ++ rest)) 2).toNat = a.value.length := by
    rw [Attr.bytes, List.append_assoc, readBe16_append (i := 2) (p := be16 a.type) rfl,
      List.append_assoc, readBe16_be16, Nat.toUInt16_eq, UInt16.toNat_ofNat']
    omega
  have type : readBe16 (a.bytes ++ (pad ++ rest)) 0 = a.type := by
    rw [Attr.bytes, List.append_assoc, readBe16_be16]
  have value : ((a.bytes ++ (pad ++ rest)).drop 4).take a.value.length = a.value := by
    have header : (be16 a.type ++ be16 a.value.length.toUInt16).length = 4 := rfl
    rw [Attr.bytes, ← List.append_assoc (be16 a.type), List.append_assoc (be16 a.type ++ _),
      List.drop_left' header, List.take_left' rfl]
  have behind : (a.bytes ++ (pad ++ rest)).drop (4 + a.value.length + padding a.value.length) = rest := by
    rw [← List.append_assoc, List.drop_left']
    rw [List.length_append, a.length_bytes, padded]
  rw [parseAttrs, len, type, value, behind, if_neg, if_neg]
  · rw [List.length_append, List.length_append, a.length_bytes, padded]
    omega
  · intro h
    have := congrArg List.length h
    rw [List.length_append, a.length_bytes, List.length_nil] at this
    omega

/-- What is read as an attribute and others is the attribute, some padding and the others. -/
theorem exists_of_parseAttrs_cons {b : Bytes} {a : Attr} {l : List Attr}
    (h : parseAttrs b = some (a :: l)) :
    a.value.length < 65536 ∧ ∃ pad rest, pad.length = padding a.value.length ∧
      b = a.bytes ++ (pad ++ rest) ∧ parseAttrs rest = some l := by
  rw [parseAttrs] at h
  split_ifs at h with empty short
  · cases h
  obtain ⟨l', parsed, same⟩ := Option.map_eq_some_iff.1 h
  obtain ⟨rfl, rfl⟩ := List.cons.inj same
  obtain ⟨t₁, t₂, n₁, n₂, r, rfl⟩ : ∃ t₁ t₂ n₁ n₂ r, b = t₁ :: t₂ :: n₁ :: n₂ :: r := by
    match b with
    | t₁ :: t₂ :: n₁ :: n₂ :: r => exact ⟨t₁, t₂, n₁, n₂, r, rfl⟩
    | [] => exact absurd rfl empty
    | [_] | [_, _] | [_, _, _] =>
      simp only [List.length_cons, List.length_nil] at short
      omega
  have lenRead : readBe16 (t₁ :: t₂ :: n₁ :: n₂ :: r) 2 = readBe16 (n₁ :: n₂ :: r) 0 :=
    readBe16_append (p := [t₁, t₂]) rfl _
  rw [lenRead] at short parsed ⊢
  generalize len : readBe16 (n₁ :: n₂ :: r) 0 = n at short parsed ⊢
  have size := n.toNat_lt
  have value : ((t₁ :: t₂ :: n₁ :: n₂ :: r).drop 4).take n.toNat = r.take n.toNat := rfl
  have taken : (r.take n.toNat).length = n.toNat := by
    rw [List.length_take]
    simp only [List.length_cons] at short
    omega
  rw [value, taken]
  refine ⟨size, (r.drop n.toNat).take (padding n.toNat), r.drop (n.toNat + padding n.toNat), ?_, ?_, ?_⟩
  · rw [List.length_take, List.length_drop]
    simp only [List.length_cons] at short
    omega
  · have number : n.toNat.toUInt16 = n := by
      apply UInt16.toNat_inj.1
      rw [Nat.toUInt16_eq, UInt16.toNat_ofNat']
      omega
    rw [Attr.bytes, taken, number, ← len, be16_readBe16, be16_readBe16, len, ← List.drop_drop,
      List.take_append_drop, List.append_assoc, List.append_assoc, List.take_append_drop]
    rfl
  · rw [← parsed]
    congr 1
    rw [Nat.add_assoc, Nat.add_comm 4]
    rfl

/-- Where the value needs no padding, its attribute is at the front exactly if it is read. -/
theorem parseAttrs_eq_cons_iff {a : Attr} (aligned : 4 ∣ a.value.length)
    (fits : a.value.length < 65536) {b : Bytes} {l : List Attr} :
    parseAttrs b = some (a :: l) ↔ ∃ rest, b = a.bytes ++ rest ∧ parseAttrs rest = some l := by
  constructor
  · intro h
    obtain ⟨-, pad, rest, padded, rfl, parsed⟩ := exists_of_parseAttrs_cons h
    rw [padding_of_dvd aligned, List.length_eq_zero_iff] at padded
    subst padded
    exact ⟨rest, rfl, parsed⟩
  · rintro ⟨rest, rfl, parsed⟩
    have := @parseAttrs_cons a fits [] (padding_of_dvd aligned).symm rest
    rw [List.nil_append, parsed] at this
    exact this

theorem parseAttrs_eq_nil_iff {b : Bytes} : parseAttrs b = some [] ↔ b = [] := by
  constructor
  · intro h
    rw [parseAttrs] at h
    split_ifs at h with empty
    · exact empty
    · obtain ⟨_, -, same⟩ := Option.map_eq_some_iff.1 h
      cases same
  · rintro rfl
    exact parseAttrs_nil

/-- Attributes whose values need no padding are read from their bytes and from nothing else. -/
theorem parseAttrs_eq_some_iff {l : List Attr} (aligned : ∀ a ∈ l, 4 ∣ a.value.length)
    (fits : ∀ a ∈ l, a.value.length < 65536) {b : Bytes} :
    parseAttrs b = some l ↔ b = l.flatMap Attr.bytes := by
  induction l generalizing b with
  | nil => exact parseAttrs_eq_nil_iff
  | cons a l ih =>
    have ih {b : Bytes} := @ih (fun x hx => aligned x (List.mem_cons_of_mem a hx))
      (fun x hx => fits x (List.mem_cons_of_mem a hx)) b
    rw [parseAttrs_eq_cons_iff (aligned a List.mem_cons_self) (fits a List.mem_cons_self)]
    simp only [ih, List.flatMap_cons]
    constructor
    · rintro ⟨rest, rfl, rfl⟩
      rfl
    · rintro rfl
      exact ⟨_, rfl, rfl⟩

/-- What is read ends at a multiple of four. -/
theorem four_dvd_length_of_parseAttrs {b : Bytes} {l : List Attr} (h : parseAttrs b = some l) :
    4 ∣ b.length := by
  induction l generalizing b with
  | nil => simp [parseAttrs_eq_nil_iff.1 h]
  | cons a l ih =>
    obtain ⟨-, pad, rest, padded, rfl, parsed⟩ := exists_of_parseAttrs_cons h
    have := ih parsed
    have := four_dvd_add_padding a.value.length
    simp only [List.length_append, a.length_bytes, padded]
    omega

/-! ## Messages -/

/-- The magic cookie of STUN. -/
def magicCookie : UInt32 := 0x2112A442

/-- The length of a header. -/
def headerSize : ℕ := 20

/-- A message. -/
structure Message where
  type : UInt16
  cookie : UInt32
  transactionId : Bytes
  attrs : List Attr
  deriving DecidableEq

/-- The header of a message with `length` bytes behind it. -/
def header (type length : UInt16) (cookie : UInt32) (transactionId : Bytes) : Bytes :=
  be16 type ++ (be16 length ++ (be32 cookie ++ transactionId))

/-- `transaction_id` of the header of a message. -/
def transactionId (b : Bytes) : Bytes := (b.drop 8).take 12

/-- The message that the bytes are. -/
def parse (b : Bytes) : Option Message :=
  if b.length < headerSize ∨ (readBe16 b 2).toNat ≠ b.length - headerSize then none
  else
    (parseAttrs (b.drop headerSize)).map fun attrs =>
      ⟨readBe16 b 0, readBe32 b 4, transactionId b, attrs⟩

section Header

variable {type length : UInt16} {cookie : UInt32} {id : Bytes}

theorem length_header (twelve : id.length = 12) :
    (header type length cookie id).length = headerSize := by
  simp only [header, List.length_append, twelve]
  rfl

theorem transactionId_header (twelve : id.length = 12) (body : Bytes) :
    transactionId (header type length cookie id ++ body) = id := by
  have before : (be16 type ++ (be16 length ++ be32 cookie)).length = 8 := rfl
  rw [transactionId, header, List.append_assoc, List.append_assoc, List.append_assoc,
    ← List.append_assoc (be16 length), ← List.append_assoc (be16 type), List.drop_left' before,
    List.take_left' twelve]

theorem type_header (body : Bytes) : readBe16 (header type length cookie id ++ body) 0 = type := by
  rw [header, List.append_assoc, readBe16_be16]

theorem length_field_header (body : Bytes) :
    readBe16 (header type length cookie id ++ body) 2 = length := by
  rw [header, List.append_assoc, readBe16_append (i := 2) (p := be16 type) rfl, List.append_assoc,
    readBe16_be16]

theorem cookie_header (body : Bytes) : readBe32 (header type length cookie id ++ body) 4 = cookie := by
  rw [header, ← List.append_assoc, List.append_assoc,
    readBe32_append (i := 4) (p := be16 type ++ be16 length) rfl, List.append_assoc, readBe32_be32]

/-- The message that a header and what is behind it are. -/
theorem parse_eq_some_iff (twelve : id.length = 12) {body : Bytes} {m : Message} :
    parse (header type length cookie id ++ body) = some m ↔
      length.toNat = body.length ∧ type = m.type ∧ cookie = m.cookie ∧ id = m.transactionId ∧
        parseAttrs body = some m.attrs := by
  have size := @length_header type length cookie id twelve
  have enough : ¬ (header type length cookie id ++ body).length < headerSize := by
    rw [List.length_append, size]
    omega
  rw [parse, length_field_header, type_header, cookie_header, transactionId_header twelve, List.drop_left' size,
    List.length_append, size, Nat.add_sub_cancel_left]
  by_cases fits : length.toNat = body.length
  · rw [if_neg (by rw [not_or, not_not]; exact ⟨by omega, fits⟩), Option.map_eq_some_iff]
    constructor
    · rintro ⟨attrs, parsed, rfl⟩
      exact ⟨fits, rfl, rfl, rfl, parsed⟩
    · rintro ⟨-, rfl, rfl, rfl, parsed⟩
      exact ⟨_, parsed, rfl⟩
  · rw [if_pos (Or.inr fits)]
    exact iff_of_false (by simp) fun h => fits h.1

end Header

/-! ## Addresses -/

/-- The value of an attribute that hides an IPv4 address: the port is combined with the first half of
the magic cookie and the address with the whole. -/
def xorAddress (ip : UInt8 × UInt8 × UInt8 × UInt8) (port : UInt16) : Bytes :=
  [0, 1] ++ xorBytes (be16 port) (be32 magicCookie) ++
    xorBytes [ip.1, ip.2.1, ip.2.2.1, ip.2.2.2] (be32 magicCookie)

@[simp] theorem length_xorAddress (ip : UInt8 × UInt8 × UInt8 × UInt8) (port : UInt16) :
    (xorAddress ip port).length = 8 := rfl

end Stun
