import Orcashi.Lib.Sscanf
import Orcashi.PeerId

/-!
# Mixed IDs

A Mixed ID is one text for an id, an IPv4 address and a port: `<id>.<pair1>.<pair2>.<port>`, with two
bytes of the address in each pair.  The id goes through `atoi` and comes back through `%d`, so of all
the texts with one number only its numeral survives; a port is checked on the way back only.
-/

namespace Orcashi

open CMemory Stdio

/-- `MIXED_ID_MAX_LEN`. -/
def mixedIdMaxLen : ℕ := 64

/-- `MIXED_ID_MAX_ID_LEN`. -/
def mixedIdMaxIdLen : ℕ := 16

/-! ## Encode and decode -/

/-- `clean_id` of `mixed_id_encode`. -/
def cleanId (id : CString) : CString := (id.filter fun c => c != 60 && c != 62).take (64 - 1)

/-- `(first << 8) | second` in a `uint16_t`. -/
def pairOf (first second : ℤ) : UInt16 := UInt16.ofInt first <<< 8 ||| UInt16.ofInt second

/-- `mixed_id_encode(id, ip, port, out, out_size)`: what it leaves in `out` when it returns 0. -/
def mixedIdEncode (id ip : CString) (port : ℤ) (outSize : ℕ) : Option CString :=
  if outSize = 0 then none
  else
    match inetPton ip, scanInts 46 4 ip with
    | some _, some [o0, o1, o2, o3] =>
      let idNum := atoi (cleanId id)
      if idNum ≤ 0 ∨ 999 < idNum then none
      else
        some (cut outSize
          (joinInts 46 [idNum, (pairOf o0 o1).toNat, (pairOf o2 o3).toNat, port]))
    | _, _ => none

/-- `mixed_id_decode(mixed, id_out, ip_out, &port_out)`: what it leaves in its outputs when it
returns 0. -/
def mixedIdDecode (mixed : CString) : Option (CString × CString × ℤ) :=
  match scanInts 46 4 mixed with
  | some [idNum, pair1, pair2, port] =>
    if idNum ≤ 0 ∨ 999 < idNum then none
    else if port ≤ 0 ∨ 65535 < port then none
    else
      some (cut mixedIdMaxIdLen (decimal idNum),
        cut inetAddrStrLen (joinInts 46 [pair1 / 256, pair1 % 256, pair2 / 256, pair2 % 256]), port)
  | _ => none

/-! ## Addresses -/

/-- `inet_pton` takes the numeral of a byte only. -/
theorem decimal_of_octet {s : CString} {b : UInt8} (h : octet s = some b) : s = decimal b.toNat := by
  unfold octet at h
  dsimp only at h
  split_ifs at h with valid
  obtain ⟨ne, -, digit, zero, le⟩ := valid
  obtain rfl := Option.some.inj h
  have inside : ∀ c ∈ s, isDigit c = true := List.all_eq_true.1 digit
  have value : (ofDigits s).toUInt8.toNat = ofDigits s := by
    show ofDigits s % 2 ^ 8 = ofDigits s
    exact Nat.mod_eq_of_lt (Nat.lt_succ_of_le le)
  have numeral : s = digits (ofDigits s) := by
    by_cases first : s.head? = some 48
    · obtain ⟨c, rfl⟩ := List.length_eq_one_iff.1 (zero first)
      obtain rfl : c = 48 := Option.some.inj first
      decide
    · exact (digits_ofDigits ne ⟨inside, first⟩).symm
  calc s = digits (ofDigits s) := numeral
    _ = decimal ((ofDigits s).toUInt8.toNat : ℕ) := by rw [value]; rfl

theorem inetNtop_eq_joinInts (a b c d : UInt8) :
    inetNtop (a, b, c, d) = joinInts 46 [(a.toNat : ℤ), b.toNat, c.toNat, d.toNat] := by
  simp [inetNtop, joinInts]

/-- The text of an address is the one that `inet_ntop` writes for it. -/
theorem inetNtop_of_inetPton {ip : CString} {a : UInt8 × UInt8 × UInt8 × UInt8}
    (h : inetPton ip = some a) : ip = inetNtop a := by
  unfold inetPton at h
  split at h
  · rename_i a b c d parts
    obtain rfl := Option.some.inj h
    obtain ⟨s, ss, hs, ha, hss⟩ := List.map_eq_cons_iff.1 parts
    obtain ⟨t, ts, ht, hb, hts⟩ := List.map_eq_cons_iff.1 hss
    obtain ⟨u, us, hu, hc, hus⟩ := List.map_eq_cons_iff.1 hts
    obtain ⟨v, vs, hv, hd, hvs⟩ := List.map_eq_cons_iff.1 hus
    obtain rfl := List.map_eq_nil_iff.1 hvs
    subst hv hu ht
    have joined : [46].intercalate (ip.splitOn 46) = ip := List.intercalate_splitOn 46
    rw [hs, decimal_of_octet ha, decimal_of_octet hb, decimal_of_octet hc, decimal_of_octet hd]
      at joined
    rw [← joined]
    simp [inetNtop, List.intercalate]
  · cases h

theorem dot_not_mem_decimal (n : ℤ) : 46 ∉ decimal n := by
  intro h
  rcases mem_decimal h with h | h <;> exact absurd h (by decide)

/-- `inet_pton` takes what `inet_ntop` writes. -/
theorem octet_decimal (b : UInt8) : octet (decimal b.toNat) = some b := by
  have small := b.toNat_lt
  have value : (decimal b.toNat).foldl (fun n c => 10 * n + (c.toNat - 48)) 0 = b.toNat :=
    ofDigits_digits b.toNat
  have first : (decimal b.toNat).head? = some 48 → (decimal b.toNat).length = 1 := by
    by_cases zero : b.toNat = 0
    · rw [zero]
      exact fun _ => rfl
    · exact fun h => absurd h (isNumeral_digits (Nat.pos_of_ne_zero zero)).2
  have valid : decimal b.toNat ≠ [] ∧ (decimal b.toNat).length ≤ 3 ∧
      (decimal b.toNat).all (fun c => 48 ≤ c && c ≤ 57) = true ∧
      ((decimal b.toNat).head? = some 48 → (decimal b.toNat).length = 1) ∧ b.toNat ≤ 255 :=
    ⟨digits_ne_nil _, length_decimal_byte b,
      List.all_eq_true.2 fun c hc => isDigit_of_mem_digits hc, first, by omega⟩
  unfold octet
  dsimp only
  rw [value, if_pos valid]
  simp

theorem inetPton_inetNtop (a : UInt8 × UInt8 × UInt8 × UInt8) : inetPton (inetNtop a) = some a := by
  obtain ⟨a, b, c, d⟩ := a
  have joined : inetNtop (a, b, c, d) = [46].intercalate [decimal a.toNat, decimal b.toNat,
      decimal c.toNat, decimal d.toNat] := by
    simp [inetNtop, List.intercalate]
  have split : (inetNtop (a, b, c, d)).splitOn 46 = [decimal a.toNat, decimal b.toNat,
      decimal c.toNat, decimal d.toNat] := by
    rw [joined]
    refine List.splitOn_intercalate _ ?_ (List.cons_ne_nil _ _)
    intro s hs
    simp only [List.mem_cons, List.not_mem_nil, or_false] at hs
    rcases hs with rfl | rfl | rfl | rfl <;> exact dot_not_mem_decimal _
  unfold inetPton
  rw [split]
  simp only [List.map_cons, List.map_nil, octet_decimal]

theorem isInt_byte (b : UInt8) : IsInt b.toNat := by
  have := b.toNat_lt
  exact ⟨by omega, by omega⟩

/-- `sscanf` reads the bytes of an address. -/
theorem scanInts_inetNtop (a b c d : UInt8) :
    scanInts 46 4 (inetNtop (a, b, c, d)) = some [(a.toNat : ℤ), b.toNat, c.toNat, d.toNat] := by
  rw [inetNtop_eq_joinInts]
  refine @scanInts_joinInts 46 (by decide) [(a.toNat : ℤ), b.toNat, c.toNat, d.toNat] fun x hx => ?_
  simp only [List.mem_cons, List.not_mem_nil, or_false] at hx
  rcases hx with rfl | rfl | rfl | rfl <;> exact isInt_byte _

/-- A pair holds its two bytes. -/
theorem toNat_pairOf (a b : UInt8) : (pairOf a.toNat b.toNat).toNat = 256 * a.toNat + b.toNat := by
  have ha := a.toNat_lt
  have hb := b.toNat_lt
  have low (x : UInt8) : (UInt16.ofInt x.toNat).toNat = x.toNat := by
    have := x.toNat_lt
    unfold UInt16.ofInt
    rw [UInt16.toNat_ofNat']
    omega
  unfold pairOf
  rw [UInt16.toNat_or, UInt16.toNat_shiftLeft, low, low, Nat.mod_eq_of_lt (by
    rw [Nat.shiftLeft_eq]
    show a.toNat * 2 ^ 8 < 2 ^ 16
    omega)]
  show a.toNat <<< 8 ||| b.toNat = _
  rw [← Nat.shiftLeft_add_eq_or_of_lt hb, Nat.shiftLeft_eq]
  omega

/-- The address comes back out of its pairs. -/
theorem joinInts_pairs (a b c d : UInt8) :
    joinInts 46 [((pairOf a.toNat b.toNat).toNat : ℤ) / 256, (pairOf a.toNat b.toNat).toNat % 256,
      (pairOf c.toNat d.toNat).toNat / 256, (pairOf c.toNat d.toNat).toNat % 256]
      = inetNtop (a, b, c, d) := by
  have hb := b.toNat_lt
  have hd := d.toNat_lt
  have quotient (x y : ℕ) (hy : y < 256) : ((256 * x + y : ℕ) : ℤ) / 256 = x := by omega
  have remainder (x y : ℕ) (hy : y < 256) : ((256 * x + y : ℕ) : ℤ) % 256 = y := by omega
  rw [toNat_pairOf, toNat_pairOf, quotient _ _ hb, remainder _ _ hb, quotient _ _ hd,
    remainder _ _ hd, inetNtop_eq_joinInts]

/-! ## The round trip -/

theorem cleanId_eq_normalizeId (id : CString) : cleanId id = normalizeId id := rfl

/-- What `mixed_id_encode` has read when it returns 0. -/
structure Encodes (id ip : CString) (port : ℤ) (n : ℕ) (a b c d : UInt8) (mixed : CString) : Prop where
  number : atoi (normalizeId id) = n
  range : 0 < n ∧ n ≤ 999
  address : ip = inetNtop (a, b, c, d)
  text : mixed = joinInts 46 [(n : ℤ), (pairOf a.toNat b.toNat).toNat, (pairOf c.toNat d.toNat).toNat,
    port]

/-- A Mixed ID fits its array. -/
theorem length_mixed_lt {n : ℕ} (hn : n ≤ 999) (p q : UInt16) {port : ℤ} (hport : IsInt port) :
    (joinInts 46 [(n : ℤ), p.toNat, q.toNat, port]).length ≤ mixedIdMaxLen - 1 := by
  have pair (p : UInt16) : (decimal p.toNat).length ≤ 5 := by
    have := p.toNat_lt
    exact length_digits_lt (by decide) (by omega)
  have number : (decimal n).length ≤ 3 := length_digits_lt (by decide) (by omega)
  have last := length_decimal_le hport.isLong
  have hp := pair p
  have hq := pair q
  simp only [joinInts, mixedIdMaxLen, List.length_append, List.length_cons]
  omega

theorem encodes_of_mixedIdEncode {id ip mixed : CString} {port : ℤ} (hport : IsInt port)
    (h : mixedIdEncode id ip port mixedIdMaxLen = some mixed) :
    ∃ n a b c d, Encodes id ip port n a b c d mixed := by
  unfold mixedIdEncode at h
  rw [if_neg (by decide)] at h
  split at h
  · rename_i addr o0 o1 o2 o3 parsed scanned
    obtain ⟨a, b, c, d⟩ := addr
    have address := inetNtop_of_inetPton parsed
    rw [address, scanInts_inetNtop] at scanned
    obtain ⟨rfl, rfl, rfl, rfl, -⟩ : (a.toNat : ℤ) = o0 ∧ (b.toNat : ℤ) = o1 ∧ (c.toNat : ℤ) = o2 ∧
        (d.toNat : ℤ) = o3 ∧ True := by simpa using scanned
    dsimp only at h
    split_ifs at h with out
    rw [cleanId_eq_normalizeId] at h out
    obtain ⟨n, hn⟩ : ∃ n : ℕ, atoi (normalizeId id) = n :=
      ⟨(atoi (normalizeId id)).toNat, by omega⟩
    have range : 0 < n ∧ n ≤ 999 := by omega
    refine ⟨n, a, b, c, d, hn, range, address, ?_⟩
    rw [← Option.some.inj h, hn]
    exact List.take_of_length_le (length_mixed_lt range.2 _ _ hport)
  · cases h

/-- What `mixed_id_decode` makes of a Mixed ID. -/
theorem mixedIdDecode_eq {id ip mixed : CString} {port : ℤ} {n : ℕ} {a b c d : UInt8}
    (hport : IsInt port) (h : Encodes id ip port n a b c d mixed) :
    mixedIdDecode mixed
      = if 0 < port ∧ port ≤ 65535 then some (digits n, ip, port) else none := by
  obtain ⟨-, range, rfl, rfl⟩ := h
  have ints : ∀ x ∈ [(n : ℤ), (pairOf a.toNat b.toNat).toNat, (pairOf c.toNat d.toNat).toNat, port],
      IsInt x := by
    have pair (p : UInt16) : IsInt p.toNat := by
      have := p.toNat_lt
      exact ⟨by omega, by omega⟩
    intro x hx
    simp only [List.mem_cons, List.not_mem_nil, or_false] at hx
    rcases hx with rfl | rfl | rfl | rfl
    · exact ⟨by omega, by omega⟩
    · exact pair _
    · exact pair _
    · exact hport
  have scanned := @scanInts_joinInts 46 (by decide) _ ints
  have idText : cut mixedIdMaxIdLen (decimal n) = digits n :=
    List.take_of_length_le (le_trans (length_digits_lt (k := 3) (by decide) (by omega)) (by decide))
  have ipText : cut inetAddrStrLen (inetNtop (a, b, c, d)) = inetNtop (a, b, c, d) :=
    List.take_of_length_le (Nat.le_sub_one_of_lt (length_inetNtop_lt _))
  unfold mixedIdDecode
  rw [show 4 = [(n : ℤ), (pairOf a.toNat b.toNat).toNat, (pairOf c.toNat d.toNat).toNat,
    port].length from rfl, scanned]
  dsimp only
  rw [if_neg (by omega), joinInts_pairs, idText, ipText]
  split_ifs <;> first | rfl | omega

/-- A numeral is no bracket and fits the array of an id. -/
theorem normalizeId_digits {n : ℕ} (hn : n ≤ 999) : normalizeId (digits n) = digits n := by
  have kept : ∀ c ∈ digits n, (c != 60 && c != 62) = true := by
    intro c hc
    obtain ⟨-, hi⟩ := toNat_of_isDigit (isDigit_of_mem_digits hc)
    rw [Bool.and_eq_true, bne_iff_ne, bne_iff_ne]
    constructor
    · rintro rfl
      exact absurd hi (by decide)
    · rintro rfl
      exact absurd hi (by decide)
  have short : (digits n).length ≤ 3 := length_digits_lt (by decide) (by omega)
  unfold normalizeId
  rw [List.filter_eq_self.2 kept]
  exact List.take_of_length_le (le_trans short (by decide))

/-- Up to 999 an id comes back as it was exactly if it is a numeral. -/
theorem isSameId_digits_iff {id : CString} {n : ℕ} (range : 0 < n ∧ n ≤ 999)
    (number : atoi (normalizeId id) = n) :
    isSameId (digits n) id = true ↔ IsNumeral (normalizeId id) ∧ (normalizeId id).length ≤ 3 := by
  rw [isSameId_iff, normalizeId_digits range.2]
  constructor
  · intro same
    rw [← same]
    exact ⟨isNumeral_digits range.1, length_digits_lt (by decide) (by omega)⟩
  · rintro ⟨numeral, short⟩
    have ne : normalizeId id ≠ [] := by
      intro empty
      rw [empty] at number
      have none : atoi [] = 0 := rfl
      omega
    have written := digits_ofDigits ne numeral
    have small : ofDigits (normalizeId id) < 1000 :=
      lt_of_lt_of_le (ofDigits_lt numeral.1) (Nat.pow_le_pow_right (by decide) short)
    have read : atoi (digits (ofDigits (normalizeId id)) ++ []) = ofDigits (normalizeId id) :=
      atoi_digits (by omega) (by simp)
    rw [List.append_nil, written, number] at read
    rw [Int.natCast_inj.1 read]
    exact written

/-- A peer is reached through its Mixed ID under its own id and address exactly if its id, without
brackets, is a numeral of up to three digits and its port is one. -/
theorem mixed_id_round_trip_iff (id ip : CString) {mixed : CString} {port : ℤ} (hport : IsInt port)
    (h : mixedIdEncode id ip port mixedIdMaxLen = some mixed) :
    (∃ idOut, mixedIdDecode mixed = some (idOut, ip, port) ∧ isSameId idOut id = true)
      ↔ (0 < port ∧ port ≤ 65535) ∧ IsNumeral (normalizeId id) ∧ (normalizeId id).length ≤ 3 := by
  obtain ⟨n, a, b, c, d, enc⟩ := encodes_of_mixedIdEncode hport h
  rw [mixedIdDecode_eq hport enc, ← isSameId_digits_iff enc.range enc.number]
  constructor
  · rintro ⟨idOut, decoded, same⟩
    split_ifs at decoded with valid
    obtain ⟨rfl, -⟩ := Prod.mk.inj (Option.some.inj decoded)
    exact ⟨valid, same⟩
  · rintro ⟨valid, same⟩
    exact ⟨digits n, if_pos valid, same⟩

theorem mixed_id_round_trip_255 :
    ∃ idOut, mixedIdDecode (ascii "255.49320.258.9000") = some (idOut, ascii "192.168.1.2", 9000) ∧
      isSameId idOut (ascii "255") = true :=
  (mixed_id_round_trip_iff (ascii "255") (ascii "192.168.1.2") ⟨by decide, by decide⟩
    (by decide)).2 ⟨by decide, ⟨List.all_eq_true.1 (by decide), by decide⟩, by decide⟩

/-- The id `cmd_register` makes of the number 7 comes back as another id. -/
theorem mixed_id_drops_leading_zeros :
    ∃ mixed, mixedIdEncode (ascii "<007>") (ascii "1.2.3.4") 9000 mixedIdMaxLen = some mixed ∧
      ∀ idOut ip port, mixedIdDecode mixed = some (idOut, ip, port) →
        isSameId idOut (ascii "<007>") = false := by
  refine ⟨ascii "7.258.772.9000", by decide, ?_⟩
  intro idOut ip port decoded
  have read : mixedIdDecode (ascii "7.258.772.9000") = some (ascii "7", ascii "1.2.3.4", 9000) := by
    decide
  rw [read] at decoded
  obtain ⟨rfl, -⟩ := Prod.mk.inj (Option.some.inj decoded)
  decide

end Orcashi
