import Orcashi.TextRoundTrip

/-!
# What a key is derived for

`orca_aes_gcm_derive_key_from_shared_secret` copies a salt and then a text that says what the key is for
into an array of 64 bytes, whatever their lengths, and derives the key with what the array then holds as the
salt.  Where the one ends and the other begins is not part of it, and a call that gives neither uses a text
that another call can give.
-/

namespace Orcashi

open CMemory

/-! ## The derivation -/

/-- A pointer, `NULL` or to an array, and the length that is given with it. -/
structure PointerLen where
  array : Option Bytes
  len : UInt64
  readable : ∀ b ∈ array, len.toNat ≤ b.length

/-- What is given: nothing, for `NULL`. -/
def PointerLen.bytes (p : PointerLen) : Bytes := (p.array.getD []).take p.len.toNat

/-- `combined_salt` and `combined_len`.  What is stored behind the 64 bytes of the array is still in
`written`. -/
structure CombinedSalt where
  written : Bytes
  len : UInt64

/-- `sizeof(combined_salt)` -/
def combinedSaltSize : ℕ := 64

/-- `if (p && p_len > 0) { memcpy(combined_salt + combined_len, p, p_len); combined_len += p_len; }` -/
def CombinedSalt.add (c : CombinedSalt) (p : PointerLen) : CombinedSalt :=
  match p.array with
  | some b => if 0 < p.len then ⟨c.written ++ b.take p.len.toNat, c.len + p.len⟩ else c
  | none => c

/-- The 14 bytes that are used where nothing was given. -/
def defaultSalt : Bytes := ascii "orcashi-derive"

/-- `combined_salt` and its length. -/
def combinedSalt (salt info : PointerLen) : CombinedSalt :=
  let c := ((⟨[], 0⟩ : CombinedSalt).add salt).add info
  if c.len = 0 then ⟨defaultSalt ++ c.written.drop 14, 14⟩ else c

/-- The bytes that are the salt for `PKCS5_PBKDF2_HMAC`. -/
def pbkdf2Salt (salt info : PointerLen) : Bytes :=
  (combinedSalt salt info).written.take (intOfSize (combinedSalt salt info).len).toNat

/-- `PKCS5_PBKDF2_HMAC` for 100000 iterations: the key for a secret, an array with the salt and its
length; none for failure. -/
abbrev Pbkdf2Hmac := Bytes → Bytes → ℤ → Option Bytes

variable (pbkdf2 : Pbkdf2Hmac)

/-- The key, for 0, or the text that `set_aes_error` gets, for -1.  `keyOut` says that `key_out` is not
`NULL`. -/
def orcaAesGcmDeriveKeyFromSharedSecret (sharedSecret : Option Bytes) (salt info : PointerLen)
    (keyOut : Bool) : Except String Bytes :=
  match sharedSecret, keyOut with
  | some secret, true =>
    let c := combinedSalt salt info
    match pbkdf2 (secret.take orcaAesGcmKeyLen) c.written (intOfSize c.len) with
    | some key => .ok key
    | none => .error "PBKDF2 derivation failed"
  | _, _ => .error "NULL pointer in orca_aes_gcm_derive_key_from_shared_secret"

/-- Nothing: `NULL` and 0. -/
def PointerLen.null : PointerLen := ⟨none, 0, fun _ h => by cases h⟩

theorem length_of_hexPairs (s : CString) {b : Bytes} (h : hexPairs s = some b) : s.length = b.length * 2 := by
  induction s using hexPairs.induct generalizing b with
  | case1 c d s ih =>
    rw [hexPairs_cons, Option.bind_eq_some_iff] at h
    obtain ⟨x, -, h⟩ := h
    obtain ⟨xs, rest, rfl⟩ := Option.map_eq_some_iff.1 h
    have := ih rest
    simp only [List.length_cons]
    omega
  | case2 =>
    cases h
    rfl
  | case3 c => cases h

theorem length_of_orcaHexToBytes {hex : CString} {len : ℕ} {b : Bytes} (h : orcaHexToBytes hex len = some b) :
    b.length = len := by
  unfold orcaHexToBytes at h
  split_ifs at h with length
  have := length_of_hexPairs hex h
  omega

/-- `salt_ptr` and `salt_len`, from `salt_hex`. -/
def saltOfHex : Option CString → Except String PointerLen
  | none => .ok .null
  | some hex =>
    match h : orcaHexToBytes hex 16 with
    | some salt => .ok ⟨some salt, 16, fun b mem => by
        cases mem
        exact (length_of_orcaHexToBytes h).ge⟩
    | none => .error "Invalid salt hex"

/-- The digits of the key, or the text of the error. -/
def orcaAesGcmDeriveKeyFromSharedSecretHex (sharedSecretHex saltHex : Option CString) (info : PointerLen)
    (keyHexOut : Bool) : Except String CString :=
  match sharedSecretHex, keyHexOut with
  | some secretHex, true => do
    let sharedSecret ← (orcaHexToBytes secretHex orcaAesGcmKeyLen).elim
      (.error "Invalid shared secret hex") .ok
    let salt ← saltOfHex saltHex
    let aesKey ← orcaAesGcmDeriveKeyFromSharedSecret pbkdf2 (some sharedSecret) salt info true
    return orcaBytesToHex aesKey
  | _, _ => .error "NULL pointer in orca_aes_gcm_derive_key_from_shared_secret_hex"

/-! ## Contexts -/

/-- Whatever the secret and PBKDF2, what is combined by a derivation that succeeds is in the array. -/
def SaltFits (salt info : PointerLen) : Prop :=
  ∀ pbkdf2 sharedSecret keyOut key,
    orcaAesGcmDeriveKeyFromSharedSecret pbkdf2 sharedSecret salt info keyOut = .ok key →
    (combinedSalt salt info).written.length ≤ combinedSaltSize

/-- What two derivations from one secret owe. -/
structure ContextsApart (salt₁ info₁ salt₂ info₂ : PointerLen) : Prop where
  saltFits₁ : SaltFits salt₁ info₁
  saltFits₂ : SaltFits salt₂ info₂
  apart : (salt₁.bytes, info₁.bytes) ≠ (salt₂.bytes, info₂.bytes) →
    pbkdf2Salt salt₁ info₁ ≠ pbkdf2Salt salt₂ info₂

/-- A salt and an info, and another salt and another info. -/
inductive Ambiguous : Bytes → Bytes → Bytes → Bytes → Prop
  /-- what ends the second salt begins the first info -/
  | shifted {salt d info} (ne : d ≠ []) : Ambiguous salt (d ++ info) (salt ++ d) info
  | shifted' {salt d info} (ne : d ≠ []) : Ambiguous (salt ++ d) info salt (d ++ info)
  /-- nothing was given, and the text for nothing -/
  | default {salt info} (h : salt ++ info = defaultSalt) : Ambiguous [] [] salt info
  | default' {salt info} (h : salt ++ info = defaultSalt) : Ambiguous salt info [] []

/-! ## What the array holds -/

/-- What is given is added. -/
theorem add_eq (c : CombinedSalt) (p : PointerLen) :
    c.add p = ⟨c.written ++ p.bytes, c.len + p.bytes.length.toUInt64⟩ := by
  unfold CombinedSalt.add PointerLen.bytes
  cases array : p.array with
  | none => simp
  | some b =>
    have readable := p.readable b array
    have length : (b.take p.len.toNat).length.toUInt64 = p.len := by
      rw [List.length_take, Nat.min_eq_left readable, Nat.toUInt64_eq, UInt64.ofNat_toNat]
    dsimp only [Option.getD_some]
    rw [length]
    split_ifs with positive
    · rfl
    · have zero : p.len = 0 := by
        rw [UInt64.lt_iff_toNat_lt] at positive
        rw [← UInt64.toNat_inj]
        exact Nat.eq_zero_of_not_pos positive
      simp [zero]

theorem combinedSalt_eq (salt info : PointerLen) : combinedSalt salt info =
    if salt.bytes.length.toUInt64 + info.bytes.length.toUInt64 = 0 then
      ⟨defaultSalt ++ (salt.bytes ++ info.bytes).drop 14, 14⟩
    else ⟨salt.bytes ++ info.bytes, salt.bytes.length.toUInt64 + info.bytes.length.toUInt64⟩ := by
  unfold combinedSalt
  rw [add_eq, add_eq]
  dsimp only
  rw [List.nil_append, UInt64.zero_add]

/-- The salt and the text fill the array, or more than it. -/
theorem fits_iff (salt info : PointerLen) : (combinedSalt salt info).written.length ≤ combinedSaltSize ↔
    salt.bytes.length + info.bytes.length ≤ combinedSaltSize := by
  have default : defaultSalt.length = 14 := rfl
  rw [combinedSalt_eq]
  unfold combinedSaltSize
  split_ifs
  · rw [List.length_append, List.length_drop, List.length_append, default]
    omega
  · rw [List.length_append]

/-- The salt of a derivation whose array is large enough. -/
theorem pbkdf2Salt_eq {salt info : PointerLen}
    (fits : salt.bytes.length + info.bytes.length ≤ combinedSaltSize) : pbkdf2Salt salt info =
      if salt.bytes ++ info.bytes = [] then defaultSalt else salt.bytes ++ info.bytes := by
  unfold combinedSaltSize at fits
  have sum : salt.bytes.length.toUInt64 + info.bytes.length.toUInt64 =
      (salt.bytes ++ info.bytes).length.toUInt64 := by
    rw [List.length_append, Nat.toUInt64_eq, Nat.toUInt64_eq, Nat.toUInt64_eq, UInt64.ofNat_add]
  have number : (salt.bytes ++ info.bytes).length.toUInt64.toNat = (salt.bytes ++ info.bytes).length := by
    rw [Nat.toUInt64_eq, UInt64.toNat_ofNat', List.length_append]
    omega
  have zero : (salt.bytes ++ info.bytes).length.toUInt64 = 0 ↔ salt.bytes ++ info.bytes = [] := by
    rw [← UInt64.toNat_inj, number, UInt64.toNat_zero, List.length_eq_zero_iff]
  have int : intOfSize (salt.bytes ++ info.bytes).length.toUInt64 = (salt.bytes ++ info.bytes).length := by
    rw [intOfSize_eq_self, number]
    rw [number, List.length_append]
    omega
  unfold pbkdf2Salt
  rw [combinedSalt_eq, sum]
  by_cases empty : salt.bytes ++ info.bytes = []
  · rw [if_pos (zero.2 empty), if_pos empty, empty]
    rfl
  · rw [if_neg (mt zero.1 empty), if_neg empty]
    dsimp only
    rw [int, Int.toNat_natCast, List.take_length]

/-! ## Which contexts are kept apart -/

theorem saltFits_iff (salt info : PointerLen) :
    SaltFits salt info ↔ salt.bytes.length + info.bytes.length ≤ combinedSaltSize := by
  rw [← fits_iff]
  constructor
  · intro fits
    exact fits (fun _ _ _ => some []) (some []) true [] rfl
  · intro fits _ _ _ _ _
    exact fits

theorem ne_of_ambiguous {salt₁ info₁ salt₂ info₂ : Bytes}
    (ambiguous : Ambiguous salt₁ info₁ salt₂ info₂) :
    (salt₁, info₁) ≠ (salt₂, info₂) := by
  have shift {salt d info : Bytes} (ne : d ≠ []) : (salt, d ++ info) ≠ (salt ++ d, info) := by
    intro same
    exact ne (List.self_eq_append_right.1 (Prod.mk.inj same).1)
  have text {salt info : Bytes} (h : salt ++ info = defaultSalt) : ([], []) ≠ (salt, info) := by
    intro same
    obtain ⟨rfl, rfl⟩ := Prod.mk.inj same
    cases h
  cases ambiguous with
  | shifted ne => exact shift ne
  | shifted' ne => exact (shift ne).symm
  | default h => exact text h
  | default' h => exact (text h).symm

/-- The contexts that have one salt are those that are told apart by nothing. -/
theorem same_salt_iff {salt₁ info₁ salt₂ info₂ : PointerLen}
    (fits₁ : salt₁.bytes.length + info₁.bytes.length ≤ combinedSaltSize)
    (fits₂ : salt₂.bytes.length + info₂.bytes.length ≤ combinedSaltSize)
    (ne : (salt₁.bytes, info₁.bytes) ≠ (salt₂.bytes, info₂.bytes)) :
    pbkdf2Salt salt₁ info₁ = pbkdf2Salt salt₂ info₂ ↔
      Ambiguous salt₁.bytes info₁.bytes salt₂.bytes info₂.bytes := by
  rw [pbkdf2Salt_eq fits₁, pbkdf2Salt_eq fits₂]
  generalize salt₁.bytes = a, info₁.bytes = b, salt₂.bytes = c, info₂.bytes = d at ne
  constructor
  · intro same
    by_cases none₁ : a ++ b = []
    · obtain ⟨rfl, rfl⟩ := List.append_eq_nil_iff.1 none₁
      by_cases none₂ : c ++ d = []
      · obtain ⟨rfl, rfl⟩ := List.append_eq_nil_iff.1 none₂
        exact absurd rfl ne
      · rw [if_pos none₁, if_neg none₂] at same
        exact .default same.symm
    · by_cases none₂ : c ++ d = []
      · obtain ⟨rfl, rfl⟩ := List.append_eq_nil_iff.1 none₂
        rw [if_neg none₁, if_pos none₂] at same
        exact .default' same
      · rw [if_neg none₁, if_neg none₂] at same
        obtain ⟨e, rfl, rfl⟩ | ⟨e, rfl, rfl⟩ := List.append_eq_append_iff.1 same
        · refine .shifted ?_
          rintro rfl
          simp at ne
        · refine .shifted' ?_
          rintro rfl
          simp at ne
  · intro ambiguous
    cases ambiguous with
    | shifted _ => rw [List.append_assoc]
    | shifted' _ => rw [List.append_assoc]
    | default h =>
      rw [h]
      rfl
    | default' h =>
      rw [h]
      rfl

theorem contexts_apart_iff (salt₁ info₁ salt₂ info₂ : PointerLen) :
    ContextsApart salt₁ info₁ salt₂ info₂ ↔
      (salt₁.bytes.length + info₁.bytes.length ≤ combinedSaltSize ∧
        salt₂.bytes.length + info₂.bytes.length ≤ combinedSaltSize) ∧
      ¬ Ambiguous salt₁.bytes info₁.bytes salt₂.bytes info₂.bytes := by
  constructor
  · rintro ⟨saltFits₁, saltFits₂, apart⟩
    have fits₁ := (saltFits_iff salt₁ info₁).1 saltFits₁
    have fits₂ := (saltFits_iff salt₂ info₂).1 saltFits₂
    refine ⟨⟨fits₁, fits₂⟩, fun ambiguous => ?_⟩
    have ne := ne_of_ambiguous ambiguous
    exact apart ne ((same_salt_iff fits₁ fits₂ ne).2 ambiguous)
  · rintro ⟨⟨fits₁, fits₂⟩, clear⟩
    refine ⟨(saltFits_iff _ _).2 fits₁, (saltFits_iff _ _).2 fits₂, fun ne same => ?_⟩
    exact clear ((same_salt_iff fits₁ fits₂ ne).1 same)

/-- An array with `len` bytes of it given. -/
def PointerLen.ofBytes (b : Bytes) (len : UInt64) (h : len.toNat ≤ b.length) : PointerLen :=
  ⟨some b, len, fun _ mem => by cases mem; exact h⟩

/-- `"orcashi-derive"` as an info. -/
def defaultInfo : PointerLen := .ofBytes defaultSalt 14 (by decide)

/-- 60 bytes of salt. -/
def longSalt : PointerLen := .ofBytes (List.replicate 60 0) 60 (by decide)

/-- No context and `"orcashi-derive"` have one salt, and 60 and 14 bytes are too many. -/
theorem contexts_not_apart :
    ¬ ContextsApart .null .null .null defaultInfo ∧
    ¬ ContextsApart longSalt defaultInfo .null .null := by
  constructor
  · intro contexts
    exact contexts.apart (by decide) rfl
  · intro contexts
    have fits := contexts.saltFits₁ (fun _ _ _ => some []) (some []) true [] rfl
    revert fits
    decide

/-! ## The contexts of the program -/

/-- Salts of one length are never ambiguous, unless both are empty. -/
theorem not_ambiguous_of_length {salt₁ info₁ salt₂ info₂ : Bytes} (same : salt₁.length = salt₂.length)
    (positive : 0 < salt₁.length) : ¬ Ambiguous salt₁ info₁ salt₂ info₂ := by
  intro ambiguous
  cases ambiguous with
  | shifted ne =>
    rw [List.length_append] at same
    exact ne (List.length_eq_zero_iff.1 (by omega))
  | shifted' ne =>
    rw [List.length_append] at same
    exact ne (List.length_eq_zero_iff.1 (by omega))
  | default h => exact absurd positive (Nat.lt_irrefl 0)
  | default' h =>
    rw [same] at positive
    exact absurd positive (Nat.lt_irrefl 0)

theorem length_of_saltOfHex {hex : CString} {salt : PointerLen} (h : saltOfHex (some hex) = .ok salt) :
    salt.bytes.length = 16 := by
  unfold saltOfHex at h
  dsimp only at h
  split at h
  · rename_i read
    cases h
    have length := length_of_orcaHexToBytes read
    unfold PointerLen.bytes
    rw [List.length_take]
    exact Nat.min_eq_left length.ge
  · cases h

/-- With salts in hexadecimal digits, infos of at most 48 bytes are enough. -/
theorem hex_contexts_apart {hex₁ hex₂ : CString} {salt₁ salt₂ : PointerLen} (info₁ info₂ : PointerLen)
    (h₁ : saltOfHex (some hex₁) = .ok salt₁) (h₂ : saltOfHex (some hex₂) = .ok salt₂)
    (fits₁ : info₁.bytes.length ≤ 48) (fits₂ : info₂.bytes.length ≤ 48) :
    ContextsApart salt₁ info₁ salt₂ info₂ := by
  have length₁ := length_of_saltOfHex h₁
  have length₂ := length_of_saltOfHex h₂
  have clear := @not_ambiguous_of_length salt₁.bytes info₁.bytes salt₂.bytes info₂.bytes
    (length₁.trans length₂.symm) (by omega)
  have size : combinedSaltSize = 64 := rfl
  have room₁ : salt₁.bytes.length + info₁.bytes.length ≤ combinedSaltSize := by omega
  have room₂ : salt₂.bytes.length + info₂.bytes.length ≤ combinedSaltSize := by omega
  refine ⟨(saltFits_iff _ _).2 room₁, (saltFits_iff _ _).2 room₂, fun ne same => ?_⟩
  exact clear ((same_salt_iff room₁ room₂ ne).1 same)

/-- `generate_session_keys` gives 16 bytes of salt and 10 bytes of `"orcashi-p2p"`. -/
theorem orcaAesGcmDeriveKey_eq (crypto : Crypto) (secret : Bytes) (salt info : PointerLen)
    (length : secret.length = 32) (salt_ : salt.bytes.length = 16)
    (info_ : info.bytes = (ascii "orcashi-p2p").take 10) :
    orcaAesGcmDeriveKeyFromSharedSecret (fun pass array n => crypto.pbkdf2 pass (array.take n.toNat))
        (some secret) salt info true =
      (orcaAesGcmDeriveKey crypto secret salt.bytes).elim (.error "PBKDF2 derivation failed") .ok := by
  have ten : info.bytes.length = 10 := congrArg List.length info_
  have size : combinedSaltSize = 64 := rfl
  have combined := pbkdf2Salt_eq (show salt.bytes.length + info.bytes.length ≤ combinedSaltSize by omega)
  have some_ : salt.bytes ++ info.bytes ≠ [] := by
    intro none_
    have := congrArg List.length none_
    rw [List.length_append, List.length_nil] at this
    omega
  rw [if_neg some_, info_] at combined
  have whole : secret.take orcaAesGcmKeyLen = secret := List.take_of_length_le length.le
  unfold pbkdf2Salt at combined
  unfold orcaAesGcmDeriveKeyFromSharedSecret orcaAesGcmDeriveKey
  dsimp only
  rw [combined, whole]
  cases crypto.pbkdf2 secret (salt.bytes ++ (ascii "orcashi-p2p").take 10) <;> rfl

end Orcashi
