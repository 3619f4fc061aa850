import Mathlib.Data.List.Basic
import Orcashi.Lib.CMemory

/-!
# Names and addresses of peers

A peer is known by its id.  Ids are compared without their angle brackets and up to the size of the
`char[64]` that holds them, in the state manager as in the P2P manager.  An IPv4 address has a text
in a `char[16]` and a binary form, which `inet_ntop` and `inet_pton` relate.
-/

namespace Orcashi

open CMemory

/-- `time_t`. -/
abbrev Time := ℤ

/-! ## Ids -/

/-- `sizeof` of every array that holds an id. -/
def idSize : ℕ := 64

/-- `normalize_id(input, output, 64)`. -/
def normalizeId (input : CString) : CString :=
  (input.filter fun c => c != 60 && c != 62).take (idSize - 1)

/-- `is_same_id`. -/
def isSameId (id1 id2 : CString) : Bool := normalizeId id1 == normalizeId id2

/-- What `normalize_id` writes: no brackets, and room for the terminator. -/
def NormId := { s : CString // normalizeId s = s }

theorem ne_bracket_of_mem {s : CString} {c : UInt8} (hc : c ∈ normalizeId s) :
    (c != 60 && c != 62) = true :=
  (List.mem_filter.1 (List.mem_of_mem_take hc)).2

theorem normalizeId_normalizeId (s : CString) : normalizeId (normalizeId s) = normalizeId s := by
  have kept : (normalizeId s).filter (fun c => c != 60 && c != 62) = normalizeId s :=
    List.filter_eq_self.2 fun c hc => ne_bracket_of_mem hc
  rw [normalizeId, kept]
  unfold normalizeId
  rw [List.take_take, Nat.min_self]

theorem length_normalizeId_lt (s : CString) : (normalizeId s).length < idSize := by
  unfold normalizeId
  exact lt_of_le_of_lt (List.length_take_le _ _) (by decide)

@[simp] theorem normalizeId_nil : normalizeId [] = [] := rfl

theorem isSameId_iff {a b : CString} : isSameId a b = true ↔ normalizeId a = normalizeId b :=
  beq_iff_eq

theorem isSameId_eq_false_iff {a b : CString} :
    isSameId a b = false ↔ normalizeId a ≠ normalizeId b := by
  rw [ne_eq, ← isSameId_iff, Bool.not_eq_true]

@[simp] theorem isSameId_normalizeId_right (a b : CString) :
    isSameId a (normalizeId b) = isSameId a b := by
  unfold isSameId
  rw [normalizeId_normalizeId]

@[simp] theorem isSameId_normalizeId_left (a b : CString) :
    isSameId (normalizeId a) b = isSameId a b := by
  unfold isSameId
  rw [normalizeId_normalizeId]

@[simp] theorem isSameId_self (a : CString) : isSameId a a = true := isSameId_iff.2 rfl

/-- The text names `x`, or nobody: an empty id is no id to the state manager. -/
def Names (id x : CString) : Prop := normalizeId id = normalizeId x ∨ normalizeId id = []

theorem names_self (x : CString) : Names x x := Or.inl rfl

theorem names_nil (x : CString) : Names [] x := Or.inr rfl

namespace NormId

instance : DecidableEq NormId := inferInstanceAs (DecidableEq { s : CString // normalizeId s = s })

/-- The id a text names. -/
def of (s : CString) : NormId := ⟨normalizeId s, normalizeId_normalizeId s⟩

@[simp] theorem of_val (s : CString) : (of s).val = normalizeId s := rfl

@[simp] theorem normalizeId_val (x : NormId) : normalizeId x.val = x.val := x.property

theorem length_lt (x : NormId) : x.val.length < idSize := by
  rw [← x.property]
  exact length_normalizeId_lt _

/-- No byte of an id is a bracket. -/
theorem bracket_notMem (x : NormId) : 60 ∉ x.val ∧ 62 ∉ x.val := by
  rw [← x.property]
  constructor <;> intro h <;> exact absurd (ne_bracket_of_mem h) (by decide)

theorem ext {x y : NormId} (h : x.val = y.val) : x = y := Subtype.ext h

@[simp] theorem of_val_self (x : NormId) : of x.val = x := ext x.property

end NormId

/-! ## Addresses -/

/-- `INET_ADDRSTRLEN`. -/
def inetAddrStrLen : ℕ := 16

/-- The text of an address, as it fits a `char[INET_ADDRSTRLEN]`. -/
def IpText := { s : CString // s.length < inetAddrStrLen }

/-- The fields of `struct sockaddr_in` the program sets, in host order. -/
structure SockAddrIn where
  sinAddr : UInt8 × UInt8 × UInt8 × UInt8
  sinPort : UInt16
  deriving DecidableEq

/-- A `struct sockaddr_in` after `memset`. -/
def SockAddrIn.zero : SockAddrIn := ⟨(0, 0, 0, 0), 0⟩

/-- One number of a dotted address: at most three digits, no leading zero, at most 255. -/
def octet (s : CString) : Option UInt8 :=
  let n := s.foldl (fun n c => 10 * n + (c.toNat - 48)) 0
  if s ≠ [] ∧ s.length ≤ 3 ∧ s.all (fun c => 48 ≤ c && c ≤ 57) ∧ (s.head? = some 48 → s.length = 1) ∧
      n ≤ 255 then
    some n.toUInt8
  else none

/-- `inet_pton(AF_INET, ip, &addr.sin_addr)`, which writes nothing where it fails. -/
def inetPton (ip : CString) : Option (UInt8 × UInt8 × UInt8 × UInt8) :=
  match (ip.splitOn 46).map octet with
  | [some a, some b, some c, some d] => some (a, b, c, d)
  | _ => none

/-- `inet_ntop(AF_INET, &addr.sin_addr, ..)`. -/
def inetNtop : UInt8 × UInt8 × UInt8 × UInt8 → CString
  | (a, b, c, d) =>
    decimal a.toNat ++ 46 :: decimal b.toNat ++ 46 :: decimal c.toNat ++ 46 :: decimal d.toNat

/-- `memset`, `htons(port)` and `inet_pton` on a peer's `addr`. -/
def SockAddrIn.make (ip : CString) (port : ℤ) : SockAddrIn where
  sinAddr := (inetPton ip).getD (0, 0, 0, 0)
  sinPort := UInt16.ofInt port

theorem length_decimal_byte (b : UInt8) : (decimal b.toNat).length ≤ 3 := by
  have hb := b.toNat_lt
  show ((Nat.toDigits 10 b.toNat).map _).length ≤ 3
  rw [List.length_map, Nat.length_toDigits_le_iff (by decide) (by decide)]
  omega

theorem length_inetNtop_lt (a : UInt8 × UInt8 × UInt8 × UInt8) :
    (inetNtop a).length < inetAddrStrLen := by
  obtain ⟨a, b, c, d⟩ := a
  have ha := length_decimal_byte a
  have hb := length_decimal_byte b
  have hc := length_decimal_byte c
  have hd := length_decimal_byte d
  simp only [inetNtop, inetAddrStrLen, List.length_append, List.length_cons]
  omega

namespace SockAddrIn

/-- The text of a sender's address. -/
def ip (from_ : SockAddrIn) : IpText := ⟨inetNtop from_.sinAddr, length_inetNtop_lt _⟩

/-- `ntohs(from.sin_port)`. -/
def port (from_ : SockAddrIn) : ℤ := from_.sinPort.toNat

end SockAddrIn

namespace IpText

instance : DecidableEq IpText :=
  inferInstanceAs (DecidableEq { s : CString // s.length < inetAddrStrLen })

/-- A `char[INET_ADDRSTRLEN]` of zeros. -/
def empty : IpText := ⟨[], by decide⟩

end IpText

end Orcashi
