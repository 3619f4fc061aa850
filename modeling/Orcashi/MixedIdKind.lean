import Orcashi.MixedId

/-!
# What a text given as a peer is

A peer can be named by its id, by its address or by a Mixed ID, and `mixed_id_detect_type` tells these
apart.  It asks for a Mixed ID first, and that is what `sscanf` reads four numbers of, whatever else
stands before, between or behind them; most addresses are read so.
-/

namespace Orcashi

open CMemory Stdio

/-! ## Validation -/

/-- `mixed_id_is_valid`. -/
def mixedIdIsValid (mixed : CString) : Bool :=
  match mixedIdDecode mixed with
  | none => false
  | some (id, ip, port) =>
    let idNum := atoi id
    if idNum ≤ 0 ∨ 999 < idNum then false
    else if port ≤ 0 ∨ 65535 < port then false
    else (inetPton ip).isSome

/-- `mixed_id_is_id`. -/
def mixedIdIsId (input : CString) : Bool :=
  if input.all isDigit then
    let num := atoi input
    0 < num && num ≤ 999
  else false

/-- `mixed_id_is_ip`. -/
def mixedIdIsIp (input : CString) : Bool := (inetPton input).isSome

/-! ## Detection -/

/-- `MixedType` -/
inductive MixedType where
  | unknown
  | id
  | ip
  | mixed
  | mixedIp
  deriving DecidableEq

/-- `mixed_id_detect_type` -/
def mixedIdDetectType (input : CString) : MixedType :=
  let dots := input.count 46
  if dots = 3 ∧ mixedIdIsValid input then .mixed
  else if dots = 3 ∧ mixedIdIsIp input then .ip
  else if mixedIdIsId input then .id
  else if mixedIdIsIp input then .ip
  else .unknown

/-- `mixed_id_auto_parse`: what it leaves in its outputs when it returns 0. -/
def mixedIdAutoParse (input : CString) : Option (CString × CString × ℤ) :=
  match mixedIdDetectType input with
  | .mixed => mixedIdDecode input
  | .id => some (input, ascii "0.0.0.0", 0)
  | .ip => some ([], input, 9000)
  | _ => none

/-! ## Texts of numbers -/

/-- A number before a dot is told from what stands behind the dot. -/
theorem decimal_dot_inj {m n : ℤ} (hm : IsInt m) (hn : IsInt n) {s t : CString}
    (h : decimal m ++ 46 :: s = decimal n ++ 46 :: t) : m = n ∧ s = t := by
  have ends (s : CString) : ∀ c ∈ (46 :: s).head?, isDigit c = false := by
    intro c hc
    obtain rfl := Option.some.inj hc
    rfl
  have numbers : m = n := by
    have read := scanInt_decimal hm (ends s)
    rw [h, scanInt_decimal hn (ends t)] at read
    exact (Option.some.inj read).symm
  subst numbers
  exact ⟨rfl, (List.cons.inj (List.append_cancel_left h)).2⟩

theorem isInt_of_scanInts {sep : UInt8} {k : ℕ} {s : CString} {xs : List ℤ}
    (h : scanInts sep k s = some xs) : ∀ x ∈ xs, IsInt x := by
  fun_induction scanInts sep k s generalizing xs with
  | case1 =>
    obtain rfl := Option.some.inj h
    simp
  | case2 s =>
    obtain ⟨x, read, rfl⟩ := Option.map_eq_some_iff.1 h
    intro y hy
    rw [List.mem_singleton.1 hy]
    exact isInt_of_scanInt read
  | case3 s n ih =>
    simp only [Option.bind_eq_bind, Option.bind_eq_some_iff] at h
    obtain ⟨x, read, t, -, ys, rest, made⟩ := h
    obtain rfl := Option.some.inj made
    intro y hy
    rcases List.mem_cons.1 hy with rfl | hy
    · exact isInt_of_scanInt read
    · exact ih t rest y hy

/-! ## Valid texts -/

/-- The numbers of a Mixed ID. -/
def mixedNumbers (n : ℕ) (a b c d : UInt8) (port : ℤ) : List ℤ :=
  [(n : ℤ), (pairOf a.toNat b.toNat).toNat, (pairOf c.toNat d.toNat).toNat, port]

/-- The ranges of the id and the port. -/
def IdAndPort (n : ℕ) (port : ℤ) : Prop := (0 < n ∧ n ≤ 999) ∧ 0 < port ∧ port ≤ 65535

theorem isInt_mixedNumbers {n : ℕ} {port : ℤ} (h : IdAndPort n port) (a b c d : UInt8) :
    ∀ x ∈ mixedNumbers n a b c d port, IsInt x := by
  obtain ⟨number, range⟩ := h
  have pair (p : UInt16) : IsInt p.toNat := by
    have := p.toNat_lt
    exact ⟨by omega, by omega⟩
  intro x hx
  simp only [mixedNumbers, List.mem_cons, List.not_mem_nil, or_false] at hx
  rcases hx with rfl | rfl | rfl | rfl
  · exact ⟨by omega, by omega⟩
  · exact pair _
  · exact pair _
  · exact ⟨by omega, by omega⟩

/-- Sixteen bits are a pair of bytes. -/
theorem exists_pairOf {p : ℤ} (h : 0 ≤ p / 256 ∧ p / 256 < 256) :
    ∃ a b : UInt8, p = (pairOf a.toNat b.toNat).toNat := by
  refine ⟨UInt8.ofNat (p / 256).toNat, UInt8.ofNat (p % 256).toNat, ?_⟩
  rw [toNat_pairOf, UInt8.toNat_ofNat', UInt8.toNat_ofNat']
  omega

theorem pairOf_range (a b : UInt8) :
    0 ≤ ((pairOf a.toNat b.toNat).toNat : ℤ) / 256 ∧ ((pairOf a.toNat b.toNat).toNat : ℤ) / 256 < 256 := by
  have := a.toNat_lt
  have := b.toNat_lt
  rw [toNat_pairOf]
  omega

/-- The address in front of `mixed_id_is_valid` is one if its first and its third number are bytes. -/
theorem bytes_of_inetPton {x y z w : ℤ} (hx : IsInt x) (hy : IsInt y) (hz : IsInt z)
    (h : (inetPton (cut inetAddrStrLen (joinInts 46 [x, y, z, w]))).isSome = true) :
    (0 ≤ x ∧ x < 256) ∧ 0 ≤ z ∧ z < 256 := by
  obtain ⟨⟨a, b, c, d⟩, parsed⟩ := Option.isSome_iff_exists.1 h
  have address := inetNtop_of_inetPton parsed
  have split : joinInts 46 [x, y, z, w] =
      inetNtop (a, b, c, d) ++ (joinInts 46 [x, y, z, w]).drop (inetAddrStrLen - 1) := by
    rw [← address]
    exact (List.take_append_drop _ _).symm
  generalize (joinInts 46 [x, y, z, w]).drop (inetAddrStrLen - 1) = rest at split
  simp only [joinInts, inetNtop, List.append_assoc, List.cons_append] at split
  obtain ⟨rfl, second⟩ := decimal_dot_inj hx (isInt_byte a) split
  obtain ⟨rfl, third⟩ := decimal_dot_inj hy (isInt_byte b) second
  obtain ⟨rfl, -⟩ := decimal_dot_inj hz (isInt_byte c) third
  have := a.toNat_lt
  have := c.toNat_lt
  omega

/-- What `mixed_id_decode` makes of the numbers. -/
theorem mixedIdDecode_of_scanInts {mixed : CString} {n : ℕ} {a b c d : UInt8} {port : ℤ}
    (h : IdAndPort n port) (scanned : scanInts 46 4 mixed = some (mixedNumbers n a b c d port)) :
    mixedIdDecode mixed = some (digits n, inetNtop (a, b, c, d), port) := by
  obtain ⟨number, range⟩ := h
  have idText : cut mixedIdMaxIdLen (decimal n) = digits n :=
    List.take_of_length_le (le_trans (length_digits_lt (k := 3) (by decide) (by omega)) (by decide))
  have ipText : cut inetAddrStrLen (inetNtop (a, b, c, d)) = inetNtop (a, b, c, d) :=
    List.take_of_length_le (Nat.le_sub_one_of_lt (length_inetNtop_lt _))
  unfold mixedIdDecode
  rw [scanned, mixedNumbers]
  dsimp only
  rw [if_neg (by omega), if_neg (by omega), joinInts_pairs, idText, ipText]

theorem mixedIdIsValid_iff {mixed : CString} :
    mixedIdIsValid mixed = true ↔
      ∃ n a b c d port, IdAndPort n port ∧ scanInts 46 4 mixed = some (mixedNumbers n a b c d port) := by
  constructor
  · intro valid
    unfold mixedIdIsValid mixedIdDecode at valid
    split at valid
    · cases valid
    rename_i decoded
    split at decoded
    · rename_i idNum pair1 pair2 port scanned
      split_ifs at decoded with number range
      obtain ⟨rfl, rfl, rfl⟩ : _ ∧ _ ∧ _ := by simpa using decoded
      have ints := isInt_of_scanInts scanned
      simp only [List.mem_cons, List.not_mem_nil, or_false, forall_eq_or_imp, forall_eq] at ints
      obtain ⟨-, ⟨lo1, hi1⟩, ⟨lo2, hi2⟩, -⟩ := ints
      dsimp only at valid
      split_ifs at valid
      obtain ⟨first, second⟩ := bytes_of_inetPton ⟨by omega, by omega⟩ ⟨by omega, by omega⟩
        ⟨by omega, by omega⟩ valid
      obtain ⟨a, b, rfl⟩ := exists_pairOf first
      obtain ⟨c, d, rfl⟩ := exists_pairOf second
      refine ⟨idNum.toNat, a, b, c, d, port, by unfold IdAndPort; omega, ?_⟩
      rw [scanned, mixedNumbers, Int.toNat_of_nonneg (by omega)]
    · cases decoded
  · rintro ⟨n, a, b, c, d, port, ⟨number, range⟩, scanned⟩
    have read : atoi (digits n) = n := by
      have := @atoi_digits n (by omega) [] (by simp)
      rwa [List.append_nil] at this
    unfold mixedIdIsValid
    rw [mixedIdDecode_of_scanInts ⟨number, range⟩ scanned]
    dsimp only
    rw [read, if_neg (by omega), if_neg (by omega), inetPton_inetNtop]
    rfl

/-! ## Valid texts and encoded ones -/

/-- What `mixed_id_encode` makes of an id, an address and a port. -/
def IsEncoded (mixed : CString) : Prop :=
  ∃ id ip port, (0 < port ∧ port ≤ 65535) ∧ mixedIdEncode id ip port mixedIdMaxLen = some mixed

theorem mixedIdEncode_digits {n : ℕ} {port : ℤ} (h : IdAndPort n port) (a b c d : UInt8) :
    mixedIdEncode (digits n) (inetNtop (a, b, c, d)) port mixedIdMaxLen =
      some (joinInts 46 (mixedNumbers n a b c d port)) := by
  obtain ⟨number, range⟩ := h
  have read : atoi (cleanId (digits n)) = n := by
    have := @atoi_digits n (by omega) [] (by simp)
    rwa [cleanId_eq_normalizeId, normalizeId_digits number.2, ← List.append_nil (digits n)]
  have int : IsInt port := ⟨by omega, by omega⟩
  have room := length_mixed_lt number.2 (pairOf a.toNat b.toNat) (pairOf c.toNat d.toNat) int
  unfold mixedIdEncode
  rw [if_neg (by decide), inetPton_inetNtop, scanInts_inetNtop]
  dsimp only
  rw [read, if_neg (by omega)]
  exact congrArg some (List.take_of_length_le room)

theorem isEncoded_iff {mixed : CString} :
    IsEncoded mixed ↔
      ∃ n a b c d port, IdAndPort n port ∧ mixed = joinInts 46 (mixedNumbers n a b c d port) := by
  constructor
  · rintro ⟨id, ip, port, range, encoded⟩
    obtain ⟨n, a, b, c, d, enc⟩ := encodes_of_mixedIdEncode ⟨by omega, by omega⟩ encoded
    exact ⟨n, a, b, c, d, port, ⟨enc.range, range⟩, enc.text⟩
  · rintro ⟨n, a, b, c, d, port, h, rfl⟩
    exact ⟨digits n, inetNtop (a, b, c, d), port, h.2, mixedIdEncode_digits h a b c d⟩

theorem scanInts_mixedNumbers {n : ℕ} {port : ℤ} (h : IdAndPort n port) (a b c d : UInt8) :
    scanInts 46 4 (joinInts 46 (mixedNumbers n a b c d port)) = some (mixedNumbers n a b c d port) :=
  @scanInts_joinInts 46 (by decide) _ (isInt_mixedNumbers h a b c d)

theorem mixedIdIsValid_of_isEncoded {mixed : CString} (h : IsEncoded mixed) :
    mixedIdIsValid mixed = true := by
  obtain ⟨n, a, b, c, d, port, range, rfl⟩ := isEncoded_iff.1 h
  exact mixedIdIsValid_iff.2 ⟨n, a, b, c, d, port, range, scanInts_mixedNumbers range a b c d⟩

/-- What validation asks of a text: it is encoded, and comes back from the encoding of what it is
decoded to. -/
structure ValidatesImage (mixed : CString) : Prop where
  image : mixedIdIsValid mixed = true ↔ IsEncoded mixed
  again : mixedIdIsValid mixed = true → ∃ id ip port, mixedIdDecode mixed = some (id, ip, port) ∧
    mixedIdIsIp ip = true ∧ mixedIdEncode id ip port mixedIdMaxLen = some mixed

/-- If four numbers in the ranges of a Mixed ID are read of the text, it is these numbers with dots
between them, as they are printed, and nothing else. -/
def PlainlyWritten (mixed : CString) : Prop :=
  ∀ n pair1 pair2 port, 0 < n ∧ n ≤ 999 → 0 ≤ pair1 ∧ pair1 ≤ 65535 → 0 ≤ pair2 ∧ pair2 ≤ 65535 →
    0 < port ∧ port ≤ 65535 → scanInts 46 4 mixed = some [n, pair1, pair2, port] →
      mixed = joinInts 46 [n, pair1, pair2, port]

/-- A text is valid without being encoded exactly if its numbers are not plainly written. -/
theorem validates_image_iff (mixed : CString) : ValidatesImage mixed ↔ PlainlyWritten mixed := by
  constructor
  · intro validates n pair1 pair2 port number range1 range2 range scanned
    obtain ⟨a, b, rfl⟩ := @exists_pairOf pair1 (by omega)
    obtain ⟨c, d, rfl⟩ := @exists_pairOf pair2 (by omega)
    lift n to ℕ using by omega
    have valid : mixedIdIsValid mixed = true :=
      mixedIdIsValid_iff.2 ⟨n, a, b, c, d, port, ⟨by omega, range⟩, scanned⟩
    obtain ⟨n', a', b', c', d', port', range', rfl⟩ := isEncoded_iff.1 (validates.image.1 valid)
    rw [scanInts_mixedNumbers range'] at scanned
    rw [Option.some.inj scanned]
  · intro plain
    have encoded (valid : mixedIdIsValid mixed = true) : ∃ n a b c d port, IdAndPort n port ∧
        scanInts 46 4 mixed = some (mixedNumbers n a b c d port) ∧
          mixed = joinInts 46 (mixedNumbers n a b c d port) := by
      obtain ⟨n, a, b, c, d, port, ⟨number, range⟩, scanned⟩ := mixedIdIsValid_iff.1 valid
      have first := pairOf_range a b
      have second := pairOf_range c d
      exact ⟨n, a, b, c, d, port, ⟨number, range⟩, scanned,
        plain n _ _ port (by omega) (by omega) (by omega) range scanned⟩
    refine ⟨⟨fun valid => ?_, mixedIdIsValid_of_isEncoded⟩, fun valid => ?_⟩
    · obtain ⟨n, a, b, c, d, port, range, -, text⟩ := encoded valid
      exact isEncoded_iff.2 ⟨n, a, b, c, d, port, range, text⟩
    · obtain ⟨n, a, b, c, d, port, range, scanned, text⟩ := encoded valid
      have address : mixedIdIsIp (inetNtop (a, b, c, d)) = true := by
        unfold mixedIdIsIp
        rw [inetPton_inetNtop]
        rfl
      refine ⟨digits n, _, port, mixedIdDecode_of_scanInts range scanned, address, ?_⟩
      rw [mixedIdEncode_digits range, ← text]

/-- An id with leading zeros, and a text that goes on behind the port. -/
theorem loose_texts_are_valid :
    mixedIdIsValid (ascii "007.258.772.9000") = true ∧
      ¬ ValidatesImage (ascii "007.258.772.9000") ∧
      mixedIdIsValid (ascii "7.258.772.9000, or so") = true ∧
      ¬ ValidatesImage (ascii "7.258.772.9000, or so") := by
  have differ {mixed : CString} (valid : mixedIdIsValid mixed = true)
      (decoded : mixedIdDecode mixed = some (ascii "7", ascii "1.2.3.4", 9000))
      (ne : mixed ≠ ascii "7.258.772.9000") : ¬ ValidatesImage mixed := by
    intro validates
    obtain ⟨id, ip, port, h, -, again⟩ := validates.again valid
    rw [decoded] at h
    obtain ⟨rfl, rfl, rfl⟩ : _ ∧ _ ∧ _ := by simpa using h
    have made : mixedIdEncode (ascii "7") (ascii "1.2.3.4") 9000 mixedIdMaxLen =
        some (ascii "7.258.772.9000") := by decide
    rw [made] at again
    exact ne (Option.some.inj again).symm
  exact ⟨by decide, differ (by decide) (by decide) (by decide), by decide,
    differ (by decide) (by decide) (by decide)⟩

/-! ## Telling the kinds apart -/

/-- What detection asks of a text: an address is one, a text that was encoded for an address outside
0.0.0.0/8 is a Mixed ID, and digits for 1 to 999 are an id. -/
structure DetectsKind (input : CString) : Prop where
  ip : mixedIdIsIp input = true →
    mixedIdDetectType input = .ip ∧ mixedIdAutoParse input = some ([], input, 9000)
  mixed : (∃ id ip port a, (0 < port ∧ port ≤ 65535) ∧ inetPton ip = some a ∧ a.1 ≠ 0 ∧
    mixedIdEncode id ip port mixedIdMaxLen = some input) → mixedIdDetectType input = .mixed
  id : input ≠ [] → (∀ c ∈ input, isDigit c = true) → 0 < ofDigits input ∧ ofDigits input ≤ 999 →
    mixedIdDetectType input = .id

theorem count_dot_decimal (n : ℤ) : (decimal n).count 46 = 0 :=
  List.count_eq_zero.2 (dot_not_mem_decimal n)

theorem count_dot_joinInts (w x y z : ℤ) : (joinInts 46 [w, x, y, z]).count 46 = 3 := by
  simp only [joinInts, List.count_append, List.count_cons_self, count_dot_decimal]

theorem atoi_of_isDigit {s : CString} (ne : s ≠ []) (hs : ∀ c ∈ s, isDigit c = true)
    (small : ofDigits s ≤ 999) : atoi s = ofDigits s := by
  obtain ⟨c, t, rfl⟩ := List.exists_cons_of_ne_nil ne
  obtain ⟨space, minus, plus⟩ := not_space_of_isDigit (hs c List.mem_cons_self)
  have skip : skipSpace (c :: t) = c :: t :=
    List.dropWhile_cons_of_neg (by rw [space]; exact Bool.false_ne_true)
  have all : (c :: t).takeWhile isDigit = c :: t := List.takeWhile_eq_self_iff.2 hs
  have read : scanLong (c :: t) = some (ofDigits (c :: t) : ℤ) := by
    unfold scanLong
    rw [skip]
    split
    · rename_i h
      exact absurd (List.cons.inj h).1 minus
    · rename_i h
      exact absurd (List.cons.inj h).1 plus
    · unfold scanDigits
      rw [all]
      dsimp only
      rw [if_neg ne]
      unfold longMin longMax
      simp only [Bool.false_eq_true, if_false, Option.some.injEq]
      omega
  unfold atoi scanInt
  rw [read, Option.map_some, Option.getD_some]
  exact Int.bmod_eq_of_le (by omega) (by omega)

/-- Which addresses are valid as Mixed IDs: the first number is taken for an id and the last for a
port. -/
theorem mixedIdIsValid_inetNtop (a b c d : UInt8) :
    mixedIdIsValid (inetNtop (a, b, c, d)) = true ↔ a ≠ 0 ∧ d ≠ 0 := by
  have positive (x : UInt8) : x ≠ 0 ↔ 0 < x.toNat := by
    rw [Nat.pos_iff_ne_zero, Ne, Ne, ← UInt8.toNat_inj]
    rfl
  have ha := a.toNat_lt
  have hd := d.toNat_lt
  rw [mixedIdIsValid_iff, scanInts_inetNtop, positive, positive]
  constructor
  · rintro ⟨n, a', b', c', d', port, ⟨number, range⟩, numbers⟩
    obtain ⟨first, -, -, last⟩ : (a.toNat : ℤ) = n ∧ _ ∧ _ ∧ (d.toNat : ℤ) = port := by
      simpa [mixedNumbers] using numbers
    omega
  · rintro ⟨first, last⟩
    have low (x : UInt8) : ((pairOf (0 : UInt8).toNat x.toNat).toNat : ℤ) = x.toNat := by
      rw [toNat_pairOf]
      simp
    refine ⟨a.toNat, 0, b, 0, c, d.toNat, ⟨⟨first, by omega⟩, by omega, by omega⟩, ?_⟩
    rw [mixedNumbers, low, low]

theorem detectType_of_isEncoded {input : CString} (h : IsEncoded input) :
    mixedIdDetectType input = .mixed := by
  obtain ⟨n, a, b, c, d, port, -, text⟩ := isEncoded_iff.1 h
  have dots : input.count 46 = 3 := by
    rw [text]
    exact count_dot_joinInts _ _ _ _
  exact if_pos ⟨dots, mixedIdIsValid_of_isEncoded h⟩

theorem detectType_of_isDigit {input : CString} (ne : input ≠ [])
    (digit : ∀ c ∈ input, isDigit c = true) (range : 0 < ofDigits input ∧ ofDigits input ≤ 999) :
    mixedIdDetectType input = .id := by
  have dots : ¬ input.count 46 = 3 := by
    rw [List.count_eq_zero.2 fun h => absurd (digit _ h) (by decide)]
    decide
  have isId : mixedIdIsId input = true := by
    unfold mixedIdIsId
    rw [if_pos (List.all_eq_true.2 digit), atoi_of_isDigit ne digit range.2]
    simp only [Bool.and_eq_true, decide_eq_true_eq]
    omega
  unfold mixedIdDetectType
  dsimp only
  rw [if_neg fun h => dots h.1, if_neg fun h => dots h.1, if_pos isId]

/-- An address is told from a Mixed ID exactly if it cannot be read as one. -/
theorem detectType_inetNtop (a : UInt8 × UInt8 × UInt8 × UInt8) :
    mixedIdDetectType (inetNtop a) = if a.1 ≠ 0 ∧ a.2.2.2 ≠ 0 then .mixed else .ip := by
  obtain ⟨a, b, c, d⟩ := a
  have dots : (inetNtop (a, b, c, d)).count 46 = 3 := by
    rw [inetNtop_eq_joinInts]
    exact count_dot_joinInts _ _ _ _
  have isIp : mixedIdIsIp (inetNtop (a, b, c, d)) = true := by
    unfold mixedIdIsIp
    rw [inetPton_inetNtop]
    rfl
  unfold mixedIdDetectType
  simp only [dots, isIp, mixedIdIsValid_inetNtop, true_and, and_true, if_true]

/-- The kinds are told apart except for the addresses whose first and last numbers are not 0. -/
theorem detects_kind_iff (input : CString) :
    DetectsKind input ↔ ∀ a, inetPton input = some a → a.1 = 0 ∨ a.2.2.2 = 0 := by
  constructor
  · intro detects a parsed
    have isIp : mixedIdIsIp input = true := by
      unfold mixedIdIsIp
      rw [parsed]
      rfl
    have type := (detects.ip isIp).1
    rw [inetNtop_of_inetPton parsed, detectType_inetNtop] at type
    by_contra both
    rw [not_or] at both
    rw [if_pos both] at type
    cases type
  · intro outside
    refine ⟨?_, ?_, detectType_of_isDigit⟩
    · intro isIp
      obtain ⟨a, parsed⟩ := Option.isSome_iff_exists.1 isIp
      have type : mixedIdDetectType input = .ip := by
        rw [inetNtop_of_inetPton parsed, detectType_inetNtop]
        exact if_neg fun both => (outside a parsed).elim both.1 both.2
      refine ⟨type, ?_⟩
      unfold mixedIdAutoParse
      rw [type]
    · rintro ⟨id, ip, port, a, range, -, -, encoded⟩
      exact detectType_of_isEncoded ⟨id, ip, port, range, encoded⟩

/-- The address that the comment on `MIXED_TYPE_IP` gives. -/
theorem address_detected_as_mixed :
    mixedIdIsIp (ascii "192.168.1.2") = true ∧ mixedIdDetectType (ascii "192.168.1.2") = .mixed ∧
      mixedIdAutoParse (ascii "192.168.1.2") = some (ascii "192", ascii "0.168.0.1", 2) ∧
      ¬ DetectsKind (ascii "192.168.1.2") := by
  have type : mixedIdDetectType (ascii "192.168.1.2") = .mixed := by decide
  refine ⟨by decide, type, by decide, fun detects => ?_⟩
  have ip := (detects.ip (by decide)).1
  rw [type] at ip
  cases ip

end Orcashi
