import Orcashi.Identity.Record

/-!
# One key for a passcode

The callers of `orca_derive_key_from_passcode_hex` agree with each other: each goes on with the first 32
characters of the hexadecimal text of the key.  None of them uses the 32 bytes of the key itself, and each
lets 65 bytes be stored into an array of 32.
-/

namespace Orcashi

open CMemory

/-! ## The callers -/

/-- Where a key is derived from a passcode. -/
inductive KeySite where
  | create
  | createSecure3digit
  | verifyWithPasscode
  | deriveKey
  deriving DecidableEq

/-- What is stored at each of them, and the key that is used or handed out. -/
def KeySite.keyUse (crypto : IdentityCrypto) (passcode saltHex : CString) : KeySite → Option KeyUse
  | create | createSecure3digit => deriveIntoKey crypto passcode saltHex
  | verifyWithPasscode => do
    let k ← deriveIntoKey crypto passcode saltHex
    let key ← orcaHexToBytes (orcaBytesToHex k.key) aesKeyLen
    return ⟨k.stored, key⟩
  | deriveKey =>
    (orcaDeriveKeyFromPasscodeHex crypto passcode saltHex).map fun stored =>
      ⟨stored, stored.take aesKeyLen⟩

/-- The private key of the key pair is encrypted under a key. -/
def EncryptedUnder (env : IdentityEnv) (key : Bytes) (r : IdentityRecord) : Prop :=
  ∃ publicKey privateKey iv ciphertext, env.rsaKeypair = some (publicKey, privateKey) ∧
    env.crypto.aesCbcEncrypt privateKey key iv = some ciphertext ∧
    r.privateKeyEncrypted = combined env.crypto iv ciphertext

theorem key_of_createSecure {env : IdentityEnv} {idOf signedId : CString → CString}
    {name role passcode : CString} {r : IdentityRecord}
    (created : createSecure env idOf signedId name role passcode = some r) :
    ∃ k, deriveIntoKey env.crypto passcode r.saltHex = some k ∧ EncryptedUnder env k.key r := by
  unfold createSecure at created
  simp only [Option.bind_eq_bind, Option.bind_eq_some_iff, Option.guard_eq_some'] at created
  obtain ⟨-, -, ⟨publicKey, privateKey⟩, keypair, salt, -, k, derived, iv, -, ciphertext, encrypted, pk,
    -, signature, -, sig, -, -, -, record⟩ := created
  obtain rfl := Option.some.inj record
  exact ⟨k, derived, publicKey, privateKey, iv, ciphertext, keypair, encrypted, rfl⟩

theorem key_of_create {env : IdentityEnv} {passcode : CString} {name role : Option CString}
    {r : IdentityRecord} (created : orcaIdentityCreate env name passcode role = some r) :
    ∃ k, KeySite.create.keyUse env.crypto passcode r.saltHex = some k ∧ EncryptedUnder env k.key r :=
  key_of_createSecure created

theorem key_of_createSecure3digit {env : IdentityEnv} {id passcode : CString}
    {name role : Option CString} {r : IdentityRecord}
    (created : orcaIdentityCreateSecure3digit env id passcode name role = some r) :
    ∃ k, KeySite.createSecure3digit.keyUse env.crypto passcode r.saltHex = some k ∧
      EncryptedUnder env k.key r := by
  unfold orcaIdentityCreateSecure3digit at created
  simp only [Option.bind_eq_bind, Option.bind_eq_some_iff, Option.guard_eq_some'] at created
  obtain ⟨-, -, created⟩ := created
  exact key_of_createSecure created

/-- The check with a passcode decrypts under this key. -/
theorem key_of_verifyWithPasscode {crypto : IdentityCrypto} {r : IdentityRecord} {passcode : CString}
    (verified : orcaIdentityVerifyWithPasscode crypto r passcode = true) :
    ∃ k iv ciphertext plaintext,
      KeySite.verifyWithPasscode.keyUse crypto passcode r.saltHex = some k ∧
        crypto.aesCbcDecrypt ciphertext k.key iv = some plaintext := by
  unfold orcaIdentityVerifyWithPasscode at verified
  cases derived : deriveIntoKey crypto passcode r.saltHex with
  | none =>
    rw [derived] at verified
    cases verified
  | some k =>
    rw [derived] at verified
    dsimp only at verified
    cases opened : privateKeyUnder crypto r (orcaBytesToHex k.key) with
    | none =>
      rw [opened] at verified
      cases verified
    | some privateKey =>
      unfold privateKeyUnder orcaAesCbcDecryptString at opened
      simp only [Option.bind_eq_bind, Option.bind_eq_some_iff] at opened
      obtain ⟨⟨ivHex, ciphertextB64⟩, -, -, -, key, hkey, iv, -, ciphertext, -, plaintext,
        decrypted, -⟩ := opened
      refine ⟨⟨k.stored, key⟩, iv, ciphertext, plaintext, ?_, decrypted⟩
      unfold KeySite.keyUse
      rw [derived, Option.bind_eq_bind, Option.bind_some, hkey]
      rfl

/-- What `orca_identity_derive_key` hands out. -/
theorem key_of_deriveKey {crypto : IdentityCrypto} {r : IdentityRecord} {passcode : CString}
    {stored : Bytes} (derived : orcaIdentityDeriveKey crypto r passcode = some stored) :
    KeySite.deriveKey.keyUse crypto passcode r.saltHex = some ⟨stored, stored.take aesKeyLen⟩ := by
  unfold orcaIdentityDeriveKey at derived
  simp only [Option.bind_eq_bind, Option.bind_eq_some_iff, Option.guard_eq_some'] at derived
  obtain ⟨-, -, hex⟩ := derived
  unfold KeySite.keyUse
  rw [hex]
  rfl

/-! ## What is asked for -/

/-- At every site the key is the given one, and what is stored fits the array. -/
def OneKey (crypto : IdentityCrypto) (passcode : CString) (salt key : Bytes) : Prop :=
  ∀ site : KeySite, ∃ k, site.keyUse crypto passcode (orcaBytesToHex salt) = some k ∧ k.key = key ∧
    k.stored.length ≤ aesKeyLen

/-! ## The text of a key -/

theorem getElem?_orcaBytesToHex (bytes : Bytes) (i : ℕ) :
    (orcaBytesToHex bytes)[i]? = bytes[i / 2]?.map fun b =>
      if i % 2 = 0 then hexChar (b.toNat / 16) else hexChar (b.toNat % 16) := by
  induction bytes generalizing i with
  | nil => rfl
  | cons b bytes ih =>
    have cons : orcaBytesToHex (b :: bytes) =
      hexChar (b.toNat / 16) :: hexChar (b.toNat % 16) :: orcaBytesToHex bytes := List.flatMap_cons
    rw [cons]
    match i with
    | 0 => rfl
    | 1 => rfl
    | i + 2 =>
      have half : (i + 2) / 2 = i / 2 + 1 := by omega
      have parity : (i + 2) % 2 = i % 2 := by omega
      rw [List.getElem?_cons_succ, List.getElem?_cons_succ, half, parity, List.getElem?_cons_succ, ih]

/-- A digit that is its own first hexadecimal digit. -/
theorem eq_of_hexChar_high {b : UInt8} (h : b = hexChar (b.toNat / 16)) : b = 51 := by
  have all : ∀ n < 16, (hexChar n).toNat / 16 = n → hexChar n = 51 := by decide
  have small := b.toNat_lt
  rw [h]
  exact all (b.toNat / 16) (by omega) (by rw [← h])

/-- The only key that is the beginning of its own text: thirty-two times the digit 3. -/
theorem take_orcaBytesToHex_eq_iff {key : Bytes} (hkey : key.length = aesKeyLen) :
    (orcaBytesToHex key).take aesKeyLen = key ↔ key = List.replicate aesKeyLen 51 := by
  constructor
  · intro same
    have digit (i : ℕ) (hi : i < aesKeyLen) : key[i]? = key[i / 2]?.map fun b =>
        if i % 2 = 0 then hexChar (b.toNat / 16) else hexChar (b.toNat % 16) := by
      calc key[i]? = ((orcaBytesToHex key).take aesKeyLen)[i]? := by rw [same]
        _ = (orcaBytesToHex key)[i]? := List.getElem?_take_of_lt hi
        _ = _ := getElem?_orcaBytesToHex key i
    have all (i : ℕ) (hi : i < aesKeyLen) : key[i]? = some 51 := by
      induction i using Nat.strong_induction_on with
      | _ i ih =>
        by_cases zero : i = 0
        · subst zero
          have first := digit 0 hi
          obtain ⟨b, hb⟩ : ∃ b, key[0]? = some b := ⟨_, List.getElem?_eq_getElem (by omega)⟩
          rw [Nat.zero_div, hb] at first
          rw [hb, eq_of_hexChar_high (Option.some.inj first)]
        · have half := ih (i / 2) (by omega) (by omega)
          rw [digit i hi, half, Option.map_some]
          split_ifs <;> rfl
    refine List.ext_getElem? fun i => ?_
    rw [List.getElem?_replicate]
    split_ifs with hi
    · exact all i hi
    · exact List.getElem?_eq_none (by omega)
  · rintro rfl
    decide

/-! ## The key in use -/

/-- All sites agree on the text of the key. -/
theorem keyUse_eq {crypto : IdentityCrypto} {passcode : CString} {salt key : Bytes}
    (hsalt : salt.length = saltLen) (hkey : key.length = aesKeyLen)
    (derived : orcaDeriveKeyFromPasscode crypto passcode salt = some key) (site : KeySite) :
    site.keyUse crypto passcode (orcaBytesToHex salt) =
      some ⟨orcaBytesToHex key ++ [0], (orcaBytesToHex key).take aesKeyLen⟩ := by
  have length : (orcaBytesToHex key).length = 64 := by
    rw [length_orcaBytesToHex, hkey]
    rfl
  have text : (orcaBytesToHex key ++ [0]).take aesKeyLen = (orcaBytesToHex key).take aesKeyLen :=
    List.take_append_of_le_length (by rw [length]; decide)
  have stored : orcaDeriveKeyFromPasscodeHex crypto passcode (orcaBytesToHex salt) =
      some (orcaBytesToHex key ++ [0]) := by
    unfold orcaDeriveKeyFromPasscodeHex
    rw [orcaHexToBytes_orcaBytesToHex hsalt, Option.bind_eq_bind, Option.bind_some, derived]
    rfl
  have into : deriveIntoKey crypto passcode (orcaBytesToHex salt) =
      some ⟨orcaBytesToHex key ++ [0], (orcaBytesToHex key).take aesKeyLen⟩ := by
    unfold deriveIntoKey
    rw [stored, Option.map_some, text]
  have again : orcaHexToBytes (orcaBytesToHex ((orcaBytesToHex key).take aesKeyLen)) aesKeyLen =
      some ((orcaBytesToHex key).take aesKeyLen) :=
    orcaHexToBytes_orcaBytesToHex (by rw [List.length_take, length]; rfl)
  cases site with
  | create => exact into
  | createSecure3digit => exact into
  | verifyWithPasscode =>
    unfold KeySite.keyUse
    rw [into, Option.bind_eq_bind, Option.bind_some, again]
    rfl
  | deriveKey =>
    unfold KeySite.keyUse
    rw [stored, Option.map_some, text]

/-- No passcode is used with the key that is derived from it: 65 bytes are stored where 32 fit, and the
key in use is the beginning of the text of the key, which is the key for one key only. -/
theorem passcode_key_not_one {crypto : IdentityCrypto} {passcode : CString} {salt key : Bytes}
    (_long : 8 ≤ passcode.length) (hsalt : salt.length = saltLen) (hkey : key.length = aesKeyLen)
    (derived : orcaDeriveKeyFromPasscode crypto passcode salt = some key) :
    ¬ OneKey crypto passcode salt key ∧
      ∀ site : KeySite, ∃ k, site.keyUse crypto passcode (orcaBytesToHex salt) = some k ∧
        k.stored.length = 65 ∧ (k.key = key ↔ key = List.replicate aesKeyLen 51) := by
  have length : (orcaBytesToHex key ++ [0]).length = 65 := by
    rw [List.length_append, length_orcaBytesToHex, hkey]
    rfl
  constructor
  · intro one
    obtain ⟨k, used, -, fits⟩ := one .create
    rw [keyUse_eq hsalt hkey derived] at used
    obtain rfl := Option.some.inj used
    rw [length] at fits
    exact absurd fits (by decide)
  · intro site
    exact ⟨_, keyUse_eq hsalt hkey derived site, length, take_orcaBytesToHex_eq_iff hkey⟩

/-- A passcode for which the two keys differ. -/
theorem transparent_key_not_one :
    ¬ OneKey .transparent (ascii "passcode") (List.replicate saltLen 1)
      ((ascii "passcode" ++ List.replicate 16 1 ++ List.replicate 32 0).take 32) :=
  (passcode_key_not_one (by decide) (by decide) (by decide) rfl).1

/-- The key of a passcode, and what `orca_identity_derive_key` hands out instead. -/
theorem derived_key_is_text :
    ∃ key stored r, orcaIdentityCreateSecure3digit .transparent (ascii "<075>") (ascii "passcode")
        (some (ascii "Ann")) none = some r ∧
      orcaDeriveKeyFromPasscode .transparent (ascii "passcode") (List.replicate saltLen 1) = some key ∧
      orcaIdentityDeriveKey .transparent r (ascii "passcode") = some stored ∧ stored.length = 65 ∧
      stored.take aesKeyLen ≠ key ∧
      ¬ OneKey .transparent (ascii "passcode") (List.replicate saltLen 1) key := by
  refine ⟨_, _, _, (Option.some_get (by decide)).symm, rfl, (Option.some_get (by decide)).symm, by decide,
    by decide, ?_⟩
  intro one
  obtain ⟨k, used, -, fits⟩ := one .deriveKey
  rw [keyUse_eq (by decide) (by decide) rfl] at used
  obtain rfl := Option.some.inj used
  exact absurd fits (by decide)

end Orcashi
