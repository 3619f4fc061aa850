import Orcashi.Turn.Manager

/-!
# Responses of a TURN server

What `turn_parse_allocate_response` makes of a response: it takes the last relay address among the
attributes, if there is one, and what it asks afterwards is whether the session has an address, from
this response or an earlier one.  The loop goes by two lengths of the response, not by the number of
bytes received, so it may read on in what was in the array before.
-/

namespace Orcashi

open CMemory Stun

/-! ## What lies behind -/

section Behind

variable {p : Bytes}

/-- A loop that stays within the front meets the same attributes there. -/
theorem turnAttrs_front {returns : UInt16 → Bool} {offset attrLen : ℕ} {l : List TurnAttr}
    (h : turnAttrs returns p offset attrLen = some l) (q : Bytes) :
    turnAttrs returns (p ++ q) offset attrLen = some l := by
  have reads {i : ℕ} (within : ¬ p.length < i + turnAttributeSize) :
      ¬ (p ++ q).length < i + turnAttributeSize ∧ readBe16 (p ++ q) i = readBe16 p i ∧
        readBe16 (p ++ q) (i + 2) = readBe16 p (i + 2) := by
    have enough : i + 4 ≤ p.length := Nat.le_of_not_lt within
    refine ⟨?_, readBe16_front (by omega) q, readBe16_front (by omega) q⟩
    rw [List.length_append, turnAttributeSize]
    omega
  fun_induction turnAttrs returns p offset attrLen generalizing l with
  | case1 offset attrLen short =>
    rw [turnAttrs, if_pos short]
    exact h
  | case2 => cases h
  | case3 offset attrLen long within =>
    rename_i stops
    obtain ⟨within', type, length⟩ := reads within
    rw [turnAttrs, if_neg long, if_neg within', type, length]
    exact (if_pos stops).trans h
  | case4 offset attrLen long within attr goes attrSize =>
    rename_i ih
    obtain ⟨within', type, length⟩ := reads within
    obtain ⟨rest, parsed, rfl⟩ := Option.map_eq_some_iff.1 h
    rw [turnAttrs, if_neg long, if_neg within', type, length]
    refine (if_neg goes).trans ?_
    exact congrArg (Option.map (attr :: ·)) (ih parsed)

theorem turnAttrAddress_front {attr : TurnAttr} {address : Option (IpText × ℤ)}
    (h : turnAttrAddress p attr = some address) (q : Bytes) :
    turnAttrAddress (p ++ q) attr = some address := by
  unfold turnAttrAddress at h ⊢
  dsimp only at h ⊢
  split_ifs at h with relayed head ipv4 value
  · have size : ¬ (p ++ q).length < attr.offset + turnAttributeSize + 8 := by
      rw [List.length_append]
      omega
    have address : turnReadAddress (p ++ q) (attr.offset + turnAttributeSize) =
        turnReadAddress p (attr.offset + turnAttributeSize) := by
      unfold turnReadAddress
      rw [readLe32_front (by omega), readBe16_front (by omega)]
    rw [if_pos relayed, if_neg (by omega), getD_append_front (by omega), if_pos ipv4, if_neg size,
      address]
    exact h
  · have size : ¬ (p ++ q).length < attr.offset + turnAttributeSize + 2 := by
      rw [List.length_append]
      omega
    rw [if_pos relayed, if_neg size, getD_append_front (by omega), if_neg ipv4]
    exact h
  · rw [if_neg relayed]
    exact h

end Behind

/-! ## The address in a response -/

/-- The relay address after one more attribute. -/
def turnNextAddress (mem : Bytes) (last : Option (IpText × ℤ)) (attr : TurnAttr) :
    Option (Option (IpText × ℤ)) :=
  (turnAttrAddress mem attr).map fun address => address.or last

/-- The last relay address among the attributes; none outside where one of them leaves the memory. -/
def turnLastAddress (mem : Bytes) (attrs : List TurnAttr) : Option (Option (IpText × ℤ)) :=
  attrs.foldlM (turnNextAddress mem) none

/-- The relay address that the response in the memory carries. -/
def carriedAddress (mem : Bytes) : Option (Option (IpText × ℤ)) :=
  (turnAttrs (fun _ => false) mem turnStunHeaderSize (readBe16 mem 2).toNat).bind (turnLastAddress mem)

/-- The relay address of a session. -/
def TurnSession.relay (s : TurnSession) : IpText × ℤ := (s.relayIp, s.relayPort)

section Address

variable {env : TurnEnv} {mem p : Bytes} {s s' : TurnSession} {attrs : List TurnAttr}

/-- What is done with an attribute. -/
theorem turnTakeAttr_eq_some {attr : TurnAttr} (h : turnTakeAttr env mem s attr = some s') :
    s'.state = s.state ∧ ∃ address, turnAttrAddress mem attr = some address ∧
      s'.relay = address.getD s.relay := by
  unfold turnTakeAttr at h
  obtain ⟨address, read, h⟩ := Option.bind_eq_some_iff.1 h
  obtain ⟨seconds, -, h⟩ := Option.bind_eq_some_iff.1 h
  refine ⟨?_, address, read, ?_⟩ <;> cases h <;> cases address <;> cases seconds <;> rfl

/-- What is done with all attributes, after a relay address was read or not. -/
theorem foldlM_turnTakeAttr {before : IpText × ℤ} {last : Option (IpText × ℤ)}
    (start : s.relay = last.getD before) (h : attrs.foldlM (turnTakeAttr env mem) s = some s') :
    s'.state = s.state ∧ ∃ last', attrs.foldlM (turnNextAddress mem) last = some last' ∧
      s'.relay = last'.getD before := by
  induction attrs generalizing s last with
  | nil =>
    obtain rfl := Option.some.inj h
    exact ⟨rfl, last, rfl, start⟩
  | cons attr attrs ih =>
    obtain ⟨s₁, taken, h⟩ := Option.bind_eq_some_iff.1 h
    obtain ⟨state, address, read, relay⟩ := turnTakeAttr_eq_some taken
    have next : s₁.relay = (address.or last).getD before := by
      rw [relay, start]
      cases address <;> rfl
    obtain ⟨state', last', rest, relay'⟩ := ih next h
    refine ⟨state'.trans state, last', ?_, relay'⟩
    rw [List.foldlM_cons, turnNextAddress, read]
    exact rest

/-- The loop over the attributes of a response and what is read there stay within the array. -/
structure TurnReadable (mem : Bytes) : Prop where
  success : readBe16 mem 0 = turnMsgAllocateResponse → ∃ attrs,
    turnAttrs (fun _ => false) mem turnStunHeaderSize (readBe16 mem 2).toNat = some attrs ∧
      ∀ a ∈ attrs, (turnAttrAddress mem a).isSome ∧ (turnAttrSeconds mem a).isSome
  error : readBe16 mem 0 = turnMsgAllocateError → ∃ attrs,
    turnAttrs (fun _ => false) mem turnStunHeaderSize (readBe16 mem 2).toNat = some attrs ∧
      attrs.all (turnErrorReadable mem) = true

theorem exists_foldlM_turnTakeAttr
    (within : ∀ a ∈ attrs, (turnAttrAddress mem a).isSome ∧ (turnAttrSeconds mem a).isSome) :
    ∃ s', attrs.foldlM (turnTakeAttr env mem) s = some s' := by
  induction attrs generalizing s with
  | nil => exact ⟨s, rfl⟩
  | cons attr attrs ih =>
    obtain ⟨address, seconds⟩ := within attr List.mem_cons_self
    obtain ⟨address, read⟩ := Option.isSome_iff_exists.1 address
    obtain ⟨seconds, read'⟩ := Option.isSome_iff_exists.1 seconds
    rw [List.foldlM_cons, turnTakeAttr, read, read']
    exact ih fun a ha => within a (List.mem_cons_of_mem attr ha)

end Address

/-! ## What lies in front -/

section Front

variable {p : Bytes} {i k : ℕ}

theorem getD_append_behind (at_ : i = p.length + k) (b : Bytes) : (p ++ b).getD i 0 = b.getD k 0 := by
  subst at_
  rw [List.getD_eq_getElem?_getD, List.getD_eq_getElem?_getD,
    List.getElem?_append_right (Nat.le_add_right _ _), Nat.add_sub_cancel_left]

theorem readBe16_behind (at_ : i = p.length + k) (b : Bytes) : readBe16 (p ++ b) i = readBe16 b k := by
  unfold readBe16
  rw [getD_append_behind at_, getD_append_behind (by omega : i + 1 = p.length + (k + 1))]

theorem readLe32_behind (at_ : i = p.length + k) (b : Bytes) : readLe32 (p ++ b) i = readLe32 b k := by
  unfold readLe32
  rw [getD_append_behind at_, getD_append_behind (by omega : i + 1 = p.length + (k + 1)),
    getD_append_behind (by omega : i + 2 = p.length + (k + 2)),
    getD_append_behind (by omega : i + 3 = p.length + (k + 3))]

end Front

/-! ## A response with one attribute -/

section One

variable {id : Bytes} {a : Attr}

/-- A loop over one attribute. -/
theorem turnAttrs_one {p : Bytes} {offset : ℕ} (at_ : offset = p.length) (fits : a.value.length < 65536)
    (q : Bytes) :
    turnAttrs (fun _ => false) (p ++ (a.bytes ++ q)) offset (4 + a.value.length) =
      some [⟨offset, a.type, a.value.length.toUInt16⟩] := by
  have within : ¬ (p ++ (a.bytes ++ q)).length < offset + turnAttributeSize := by
    rw [List.length_append, List.length_append, a.length_bytes, turnAttributeSize]
    omega
  have type : readBe16 (p ++ (a.bytes ++ q)) offset = a.type := by
    rw [readBe16_append at_, Attr.bytes, List.append_assoc, readBe16_be16]
  have length : readBe16 (p ++ (a.bytes ++ q)) (offset + 2) = a.value.length.toUInt16 := by
    rw [Attr.bytes, List.append_assoc, ← List.append_assoc p,
      readBe16_append (i := offset + 2) (p := p ++ be16 a.type) (by rw [List.length_append, at_]; rfl),
      List.append_assoc, readBe16_be16]
  have number : a.value.length.toUInt16.toNat = a.value.length := by
    rw [Nat.toUInt16_eq, UInt16.toNat_ofNat']
    omega
  rw [turnAttrs, if_neg (by omega), if_neg within, type, length]
  dsimp only
  rw [if_neg (by decide), number, turnAttributeSize, Nat.add_sub_cancel_left, Nat.mod_self, turnAttrs,
    if_pos (by decide)]
  rfl

/-- A success response with one attribute. -/
def allocateResponse (id : Bytes) (a : Attr) : Bytes :=
  Stun.header turnMsgAllocateResponse (4 + a.value.length).toUInt16 magicCookie id ++ a.bytes

/-- The value of an XOR-RELAYED-ADDRESS. -/
def relayedAttr (port : UInt8 × UInt8) (ip : UInt8 × UInt8 × UInt8 × UInt8) : Attr :=
  ⟨turnAttrXorRelayedAddress, [0, 1, port.1, port.2, ip.1, ip.2.1, ip.2.2.1, ip.2.2.2]⟩

/-- The address the client takes from such a value. -/
def takenAddress (port : UInt8 × UInt8) (ip : UInt8 × UInt8 × UInt8 × UInt8) : IpText × ℤ :=
  (addrText (readLe32 [ip.1, ip.2.1, ip.2.2.1, ip.2.2.2] 0 ^^^ magicCookie),
    (readBe16 [port.1, port.2] 0).toNat)

section Relayed

variable {port : UInt8 × UInt8} {ip : UInt8 × UInt8 × UInt8 × UInt8}

/-- Where the fields of the attribute are read. -/
theorem turnAttrAddress_response {p : Bytes} (twenty : p.length = 20) (q : Bytes) :
    turnAttrAddress (p ++ ((relayedAttr port ip).bytes ++ q)) ⟨20, turnAttrXorRelayedAddress, 8⟩ =
      some (some (takenAddress port ip)) := by
  have size : (p ++ ((relayedAttr port ip).bytes ++ q)).length = 32 + q.length := by
    rw [List.length_append, List.length_append, Attr.length_bytes, twenty]
    show 20 + (4 + 8 + q.length) = _
    omega
  have family : (p ++ ((relayedAttr port ip).bytes ++ q)).getD 25 0 = 1 :=
    getD_append_behind (k := 5) (by rw [twenty]) _
  have hidden : readLe32 (p ++ ((relayedAttr port ip).bytes ++ q)) 28 =
      readLe32 [ip.1, ip.2.1, ip.2.2.1, ip.2.2.2] 0 := readLe32_behind (k := 8) (by rw [twenty]) _
  have number : readBe16 (p ++ ((relayedAttr port ip).bytes ++ q)) 26 =
      readBe16 [port.1, port.2] 0 := readBe16_behind (k := 6) (by rw [twenty]) _
  have address : turnReadAddress (p ++ ((relayedAttr port ip).bytes ++ q)) 24 = takenAddress port ip := by
    rw [turnReadAddress, hidden, number]
    rfl
  unfold turnAttrAddress
  dsimp only
  rw [if_pos ⟨rfl, by decide⟩, turnAttributeSize, if_neg (by omega), family, if_pos rfl,
    if_neg (by omega), address]

/-- The loop over a response with a relay address. -/
theorem turnAttrs_response (twelve : id.length = 12) (q : Bytes) :
    let mem := allocateResponse id (relayedAttr port ip) ++ q
    turnAttrs (fun _ => false) mem turnStunHeaderSize (readBe16 mem 2).toNat =
      some [⟨20, turnAttrXorRelayedAddress, 8⟩] := by
  intro mem
  have twenty := @length_header turnMsgAllocateResponse (4 + 8).toUInt16 magicCookie id twelve
  have split : mem = Stun.header turnMsgAllocateResponse (4 + 8).toUInt16 magicCookie id ++
      ((relayedAttr port ip).bytes ++ q) := List.append_assoc _ _ _
  rw [split, length_field_header]
  exact @turnAttrs_one (relayedAttr port ip) _ 20 twenty.symm (by decide : 8 < 65536) q

/-- A response with a relay address carries it. -/
theorem carriedAddress_response (twelve : id.length = 12) (q : Bytes) :
    carriedAddress (allocateResponse id (relayedAttr port ip) ++ q) =
      some (some (takenAddress port ip)) := by
  have twenty := @length_header turnMsgAllocateResponse (4 + 8).toUInt16 magicCookie id twelve
  have read := @turnAttrAddress_response port ip _ twenty q
  rw [← List.append_assoc] at read
  rw [carriedAddress, turnAttrs_response twelve, Option.bind_some, turnLastAddress, List.foldlM_cons,
    turnNextAddress]
  refine (congrArg (fun address => (Option.map (fun address => Option.or address none) address).bind
    fun last => [].foldlM (turnNextAddress _) last) read).trans ?_
  rfl

theorem turnReadable_response (twelve : id.length = 12) (q : Bytes) :
    TurnReadable (allocateResponse id (relayedAttr port ip) ++ q) := by
  have twenty := @length_header turnMsgAllocateResponse (4 + 8).toUInt16 magicCookie id twelve
  have read := @turnAttrAddress_response port ip _ twenty q
  rw [← List.append_assoc] at read
  have type : readBe16 (allocateResponse id (relayedAttr port ip) ++ q) 0 = turnMsgAllocateResponse := by
    rw [allocateResponse, List.append_assoc, type_header]
  refine ⟨fun _ => ⟨_, turnAttrs_response twelve q, ?_⟩, fun error => ?_⟩
  · intro attr here
    obtain rfl := List.mem_singleton.1 here
    refine ⟨?_, rfl⟩
    exact (congrArg Option.isSome read).trans rfl
  · rw [type] at error
    exact absurd error (by decide)

end Relayed

end One

end Orcashi
