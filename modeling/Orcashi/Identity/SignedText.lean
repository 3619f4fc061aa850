import Orcashi.Identity.Record

/-!
# The text that is signed

The signature of an identity is one of `id|name|role|created_at`.  The id is three digits and the time
a number, but a name or a role may have a bar in it, and then the same text can be cut into a name and a
role at another bar, as long as the pieces fit.
-/

namespace Orcashi

open CMemory Stdio

/-! ## Joined texts -/

/-- Two texts joined by a separator are the same two texts, or they are cut at different separators. -/
theorem append_sep_eq_iff {α : Type*} {sep : α} {s t s' t' : List α} :
    s ++ sep :: t = s' ++ sep :: t' ↔
      (s = s' ∧ t = t') ∨ (∃ m, s = s' ++ sep :: m ∧ t' = m ++ sep :: t) ∨
        ∃ m, s' = s ++ sep :: m ∧ t = m ++ sep :: t' := by
  constructor
  · intro h
    rcases List.append_eq_append_iff.1 h with ⟨m, hs, ht⟩ | ⟨m, hs, ht⟩
    · cases m with
      | nil =>
        rw [List.append_nil] at hs
        rw [List.nil_append] at ht
        exact Or.inl ⟨hs.symm, (List.cons.inj ht).2⟩
      | cons c m =>
        obtain ⟨rfl, rest⟩ := List.cons.inj ht
        exact Or.inr (Or.inr ⟨m, hs, rest⟩)
    · cases m with
      | nil =>
        rw [List.append_nil] at hs
        rw [List.nil_append] at ht
        exact Or.inl ⟨hs, (List.cons.inj ht).2.symm⟩
      | cons c m =>
        obtain ⟨rfl, rest⟩ := List.cons.inj ht
        exact Or.inr (Or.inl ⟨m, hs, rest⟩)
  · rintro (⟨rfl, rfl⟩ | ⟨m, rfl, rfl⟩ | ⟨m, rfl, rfl⟩) <;> simp

/-- The last text is told from the others if it has no separator in it. -/
theorem append_sep_inj {α : Type*} {sep : α} {s t s' t' : List α} (ht : sep ∉ t) (ht' : sep ∉ t')
    (h : s ++ sep :: t = s' ++ sep :: t') : s = s' ∧ t = t' := by
  rcases append_sep_eq_iff.1 h with same | ⟨m, -, rfl⟩ | ⟨m, -, rfl⟩
  · exact same
  · exact absurd (List.mem_append_right m List.mem_cons_self) ht'
  · exact absurd (List.mem_append_right m List.mem_cons_self) ht

/-- `%ld` writes different numbers differently. -/
theorem decimal_inj {m n : ℤ} (hm : IsLong m) (hn : IsLong n) (h : decimal m = decimal n) : m = n := by
  have readM : scanLong (decimal m ++ []) = some m := scanLong_decimal hm (by simp)
  have readN : scanLong (decimal n ++ []) = some n := scanLong_decimal hn (by simp)
  rw [h, readN] at readM
  exact (Option.some.inj readM).symm

/-! ## What is asked for -/

/-- A record that `orca_identity_create_secure_3digit` can create, at some time a `time_t` holds. -/
def Creatable (r : IdentityRecord) : Prop :=
  ∃ env id passcode name role, IsLong env.now ∧
    orcaIdentityCreateSecure3digit env id passcode name role = some r

/-- The fields that the signed text is made of are the same. -/
structure SameSigned (r r' : IdentityRecord) : Prop where
  id : normalizeId r'.id = normalizeId r.id
  name : r'.name = r.name
  role : r'.role = r.role
  createdAt : r'.createdAt = r.createdAt

/-- No other identity that can be created has the same signed text. -/
def Unambiguous (r : IdentityRecord) : Prop :=
  ∀ r', Creatable r' → r'.signedText = r.signedText → SameSigned r r'

/-- The signature of the record verifies for no other identity that can be created. -/
def Binds (crypto : IdentityCrypto) (r : IdentityRecord) : Prop :=
  ∀ r', Creatable r' →
    orcaIdentityVerify crypto { r' with publicKey := r.publicKey, signature := r.signature } = true →
      SameSigned r r'

/-- No bar at which the name and the role could be cut instead: behind each bar of the name is more than
a role holds, and before each bar of the role more than a name holds. -/
structure Unsplit (name role : CString) : Prop where
  inName : ∀ a b, name = a ++ 124 :: b → identityRoleSize ≤ b.length + 1 + role.length
  inRole : ∀ a b, role = a ++ 124 :: b → identityNameSize ≤ name.length + 1 + a.length

/-! ## The parts of the text -/

/-- What the fields of a created identity look like. -/
structure CreatedFields (r : IdentityRecord) : Prop where
  mode : r.mode = OrcaIdentityMode.secure.code
  id : ∃ a b c, normalizeId r.id = [a, b, c]
  name : r.name.length < identityNameSize
  role : r.role.length < identityRoleSize
  createdAt : IsLong r.createdAt

theorem Creatable.fields {r : IdentityRecord} (h : Creatable r) : CreatedFields r := by
  obtain ⟨env, id, passcode, name, role, range, created⟩ := h
  obtain ⟨hid, p, -, rfl⟩ := create_eq_some_iff.1 created
  obtain ⟨a, b, c, normal, -⟩ := normalizeId_threeDigitId hid
  refine ⟨rfl, ⟨a, b, c, normal⟩, ?_, ?_, range⟩
  · show (cut _ _).length < _
    unfold cut
    rw [List.length_take]
    exact Nat.lt_of_le_of_lt (Nat.min_le_left _ _) (by decide)
  · show (cut _ _).length < _
    unfold cut
    rw [List.length_take]
    exact Nat.lt_of_le_of_lt (Nat.min_le_left _ _) (by decide)

/-- The text fits the buffer. -/
theorem signedText_eq {r : IdentityRecord} (fields : CreatedFields r) :
    r.signedText =
      normalizeId r.id ++ 124 :: (r.name ++ 124 :: (r.role ++ 124 :: decimal r.createdAt)) := by
  obtain ⟨a, b, c, hid⟩ := fields.id
  have name := fields.name
  have role := fields.role
  have time := length_decimal_le fields.createdAt
  unfold identityNameSize at name
  unfold identityRoleSize at role
  unfold IdentityRecord.signedText signedText cut
  rw [List.take_of_length_le]
  simp only [hid, List.length_append, List.length_cons, List.length_nil]
  omega

theorem bar_not_mem_decimal (n : ℤ) : 124 ∉ decimal n := by
  intro h
  rcases mem_decimal h with h | h <;> exact absurd h (by decide)

/-- Equal texts have equal ids and times; the names and roles are equal together. -/
theorem signedText_eq_iff {r r' : IdentityRecord} (h : CreatedFields r) (h' : CreatedFields r') :
    r'.signedText = r.signedText ↔
      normalizeId r'.id = normalizeId r.id ∧ r'.createdAt = r.createdAt ∧
        r'.name ++ 124 :: r'.role = r.name ++ 124 :: r.role := by
  rw [signedText_eq h, signedText_eq h']
  constructor
  · intro same
    obtain ⟨a, b, c, hid⟩ := h.id
    obtain ⟨a', b', c', hid'⟩ := h'.id
    have lengths : (normalizeId r'.id).length = (normalizeId r.id).length := by rw [hid, hid']; rfl
    obtain ⟨id, rest⟩ := List.append_inj same lengths
    have joined : (r'.name ++ 124 :: r'.role) ++ 124 :: decimal r'.createdAt =
        (r.name ++ 124 :: r.role) ++ 124 :: decimal r.createdAt := by
      simpa using (List.cons.inj rest).2
    obtain ⟨names, times⟩ := append_sep_inj (bar_not_mem_decimal _) (bar_not_mem_decimal _) joined
    exact ⟨id, decimal_inj h'.createdAt h.createdAt times, names⟩
  · rintro ⟨id, time, names⟩
    have joined : r'.name ++ 124 :: (r'.role ++ 124 :: decimal r.createdAt) =
        r.name ++ 124 :: (r.role ++ 124 :: decimal r.createdAt) := by
      simpa using congrArg (· ++ 124 :: decimal r.createdAt) names
    rw [id, time, joined]

/-! ## When the text is unambiguous -/

theorem cut_of_length_lt {size : ℕ} {s : CString} (h : s.length < size) : cut size s = s :=
  List.take_of_length_le (by omega)

theorem CreatedFields.of_names {r : IdentityRecord} (h : CreatedFields r) {name role : CString}
    (hname : name.length < identityNameSize) (hrole : role.length < identityRoleSize) :
    CreatedFields { r with name := name, role := role } :=
  ⟨h.mode, h.id, hname, hrole, h.createdAt⟩

/-- Another name and role with the same text can be created too. -/
theorem Creatable.of_names {r : IdentityRecord} (h : Creatable r) {name role : CString}
    (hname : name.length < identityNameSize) (hrole : role.length < identityRoleSize)
    (same : name ++ 124 :: role = r.name ++ 124 :: r.role) :
    Creatable { r with name := name, role := role } := by
  have fields := h.fields
  have text := (signedText_eq_iff fields (fields.of_names hname hrole)).2 ⟨rfl, rfl, same⟩
  obtain ⟨env, id, passcode, name₀, role₀, range, created⟩ := h
  obtain ⟨hid, p, given_, rfl⟩ := create_eq_some_iff.1 created
  refine ⟨env, id, passcode, some name, some role, range, create_eq_some_iff.2 ⟨hid, p, ?_, ?_⟩⟩
  · rw [text]
    exact given_
  · unfold CreationParts.record
    rw [Option.getD_some, Option.getD_some, cut_of_length_lt hname, cut_of_length_lt hrole]

/-- The text of an identity is its own exactly if neither its name nor its role has a bar at which another
name and role could be cut. -/
theorem unambiguous_iff {r : IdentityRecord} (h : Creatable r) :
    Unambiguous r ↔ Unsplit r.name r.role := by
  have fields := h.fields
  constructor
  · intro unambiguous
    have other {name role : CString} (hname : name.length < identityNameSize)
        (hrole : role.length < identityRoleSize) (same : name ++ 124 :: role = r.name ++ 124 :: r.role) :
        name = r.name :=
      (unambiguous _ (h.of_names hname hrole same)
        ((signedText_eq_iff fields (fields.of_names hname hrole)).2 ⟨rfl, rfl, same⟩)).name
    have room := fields.name
    have roleRoom := fields.role
    constructor
    · intro a b hab
      by_contra fits
      have shorter : a.length < r.name.length := by
        rw [hab]
        simp
      have same := @other a (b ++ 124 :: r.role) (by omega)
        (by rw [List.length_append, List.length_cons]; omega) (by rw [hab]; simp)
      rw [same] at shorter
      exact Nat.lt_irrefl _ shorter
    · intro a b hab
      by_contra fits
      have shorter : b.length < r.role.length := by
        rw [hab]
        simp
        omega
      have same := @other (r.name ++ 124 :: a) b (by rw [List.length_append, List.length_cons]; omega)
        (by omega) (by rw [hab]; simp)
      have lengths := congrArg List.length same
      simp at lengths
  · intro unsplit r' h' text
    have fields' := h'.fields
    obtain ⟨id, time, names⟩ := (signedText_eq_iff fields fields').1 text
    have room := fields'.name
    have roleRoom := fields'.role
    rcases append_sep_eq_iff.1 names with ⟨name, role⟩ | ⟨m, name, role⟩ | ⟨m, name, role⟩
    · exact ⟨id, name, role, time⟩
    · have bound := unsplit.inRole m r'.role role
      rw [name, List.length_append, List.length_cons] at room
      omega
    · have bound := unsplit.inName r'.name m name
      rw [role, List.length_append, List.length_cons] at roleRoom
      omega

/-- If the signature verifies nothing but the text it was made for, it binds the fields exactly where the
text does. -/
theorem signed_text_binds_iff {env : IdentityEnv} {id passcode : CString} {name role : Option CString}
    {r : IdentityRecord} (range : IsLong env.now)
    (created : orcaIdentityCreateSecure3digit env id passcode name role = some r)
    (unforged : ∀ text, env.crypto.rsaVerifyString text r.signature r.publicKey = true →
      text = r.signedText) :
    (Unambiguous r ↔ Unsplit r.name r.role) ∧ (Binds env.crypto r ↔ Unsplit r.name r.role) := by
  have creatable : Creatable r := ⟨env, id, passcode, name, role, range, created⟩
  have verifies : env.crypto.rsaVerifyString r.signedText r.signature r.publicKey = true := by
    obtain ⟨-, p, given_, record⟩ := create_eq_some_iff.1 created
    rw [record] at given_ ⊢
    exact given_.verifies
  have binds : Binds env.crypto r ↔ Unambiguous r := by
    refine forall_congr' fun r' => forall_congr' fun creatable' => imp_congr_left ?_
    have secure : r'.mode = OrcaIdentityMode.secure.code := creatable'.fields.mode
    unfold orcaIdentityVerify
    rw [secure]
    constructor
    · exact fun verified => unforged r'.signedText verified
    · intro text
      show env.crypto.rsaVerifyString r'.signedText r.signature r.publicKey = true
      rw [text]
      exact verifies
  exact ⟨unambiguous_iff creatable, binds.trans (unambiguous_iff creatable)⟩

theorem orcaBytesToHex_injective : Function.Injective orcaBytesToHex := by
  intro a b h
  have read := hexPairs_orcaBytesToHex a
  rw [h, hexPairs_orcaBytesToHex] at read
  exact (Option.some.inj read).symm

theorem transparent_unforged {r : IdentityRecord} (signature : r.signature = orcaBytesToHex r.signedText)
    (text : CString) (verified : IdentityCrypto.transparent.rsaVerifyString text r.signature r.publicKey = true) :
    text = r.signedText := by
  have same : (r.publicKey == ascii "PUBLIC" && r.signature == orcaBytesToHex text) = true := verified
  rw [Bool.and_eq_true, beq_iff_eq, beq_iff_eq, signature] at same
  exact orcaBytesToHex_injective same.2.symm

/-- Without a bar in the name and the role there is no other reading. -/
theorem plain_name_binds :
    ∃ r, orcaIdentityCreateSecure3digit .transparent (ascii "<075>") (ascii "passcode")
        (some (ascii "Ann")) none = some r ∧ Unambiguous r ∧ Binds IdentityCrypto.transparent r := by
  let r := (orcaIdentityCreateSecure3digit .transparent (ascii "<075>") (ascii "passcode")
    (some (ascii "Ann")) none).get (by decide)
  have created : orcaIdentityCreateSecure3digit .transparent (ascii "<075>") (ascii "passcode")
      (some (ascii "Ann")) none = some r := (Option.some_get _).symm
  have signature : r.signature = orcaBytesToHex r.signedText := by decide
  have unsplit : Unsplit r.name r.role := by
    have name : (124 : UInt8) ∉ r.name := by decide
    have role : (124 : UInt8) ∉ r.role := by decide
    exact ⟨fun a b h => absurd (h ▸ List.mem_append_right a List.mem_cons_self) name,
      fun a b h => absurd (h ▸ List.mem_append_right a List.mem_cons_self) role⟩
  have both := @signed_text_binds_iff .transparent _ _ _ _ _ ⟨by decide, by decide⟩ created
    (transparent_unforged signature)
  exact ⟨r, created, both.1.2 unsplit, both.2.2 unsplit⟩

/-- A bar in the name: the signature of one identity verifies for another. -/
theorem bar_read_twice :
    ∃ r r', orcaIdentityCreateSecure3digit .transparent (ascii "<075>") (ascii "passcode")
        (some (ascii "a|b")) (some (ascii "c")) = some r ∧
      orcaIdentityCreateSecure3digit .transparent (ascii "<075>") (ascii "passcode")
        (some (ascii "a")) (some (ascii "b|c")) = some r' ∧
      r'.signedText = r.signedText ∧ r'.name ≠ r.name ∧ r'.role ≠ r.role ∧
      orcaIdentityVerify IdentityCrypto.transparent
        { r' with publicKey := r.publicKey, signature := r.signature } = true :=
  ⟨_, _, (Option.some_get (by decide)).symm, (Option.some_get (by decide)).symm, by decide, by decide,
    by decide, by decide⟩

end Orcashi
