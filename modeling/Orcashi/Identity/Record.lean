import Mathlib.Data.Option.Basic
import Orcashi.Identity.Passcode
import Orcashi.Lib.Stdio

/-!
# Identities

`orca_identity.c` creates an identity, SECURE with an RSA key pair behind a passcode or NORMAL without,
and checks one in two ways: `orca_identity_verify` checks the stored signature,
`orca_identity_verify_with_passcode` only that the passcode gives the private key to the public key.
-/

namespace Orcashi

open CMemory Stdio

/-! ## The record -/

/-- `ORCA_NAME_LEN` -/
def identityNameSize : ℕ := 128

/-- `ORCA_ROLE_LEN` -/
def identityRoleSize : ℕ := 32

/-- `ORCA_PUBKEY_LEN` and `ORCA_ENCRYPTED_LEN` -/
def identityKeySize : ℕ := 4096

/-- `ORCA_SIG_LEN` -/
def identitySigSize : ℕ := 512

/-- `ORCA_SALT_LEN * 2 + 1` -/
def identitySaltSize : ℕ := 33

/-- `sizeof` of `version` -/
def identityVersionSize : ℕ := 16

/-- `ORCA_IDENTITY_VERSION` -/
def identityVersion : CString := ascii "1.0"

/-- The values of `OrcaIdentityMode`. -/
def OrcaIdentityMode.code : OrcaIdentityMode → ℤ
  | .normal => 0
  | .secure => 1

/-- `OrcaIdentity` with all its fields; a file may put any number into `mode`. -/
structure IdentityRecord where
  id : CString
  name : CString
  role : CString
  mode : ℤ
  createdAt : Time
  lastUsed : Time
  verified : Bool
  publicKey : CString
  privateKeyEncrypted : CString
  signature : CString
  saltHex : CString
  version : CString
  deriving DecidableEq

/-- `memset(identity_out, 0, sizeof(OrcaIdentity))` -/
def IdentityRecord.zero : IdentityRecord where
  id := []
  name := []
  role := []
  mode := OrcaIdentityMode.normal.code
  createdAt := 0
  lastUsed := 0
  verified := false
  publicKey := []
  privateKeyEncrypted := []
  signature := []
  saltHex := []
  version := []

/-- What the functions of an identity ask of their surroundings. -/
structure IdentityEnv where
  crypto : IdentityCrypto
  /-- `time(NULL)` -/
  now : Time
  /-- `orca_rsa_generate_keypair`: public and private key -/
  rsaKeypair : Option (CString × CString)
  /-- `orca_generate_salt`, 16 bytes -/
  salt : Option Bytes
  /-- the 16 bytes `RAND_bytes` leaves in `iv_out` -/
  iv : Option Bytes
  /-- `ensure_directory(ORCA_IDENTITY_HOME)` -/
  ensureDirectory : Bool
  /-- whether `fopen(path, "w")` succeeds -/
  opens : CString → Bool
  /-- the entries of `ORCA_IDENTITY_HOME` but `.` and `..` -/
  readdir : List CString

/-- `strcpy` into an array of `size`; none where it leaves the array. -/
def strcpyInto (size : ℕ) (s : CString) : Option CString := if s.length < size then some s else none

/-! ## The signed text -/

/-- `snprintf(data_to_sign, 1024, "%s|%s|%s|%ld", ..)` -/
def signedText (id name role : CString) (createdAt : Time) : CString :=
  cut 1024 (id ++ 124 :: (name ++ 124 :: (role ++ 124 :: decimal createdAt)))

/-- The text that a signature of the record is about. -/
def IdentityRecord.signedText (r : IdentityRecord) : CString :=
  Orcashi.signedText (normalizeId r.id) r.name r.role r.createdAt

/-- `orca_identity_verify` -/
def orcaIdentityVerify (crypto : IdentityCrypto) (r : IdentityRecord) : Bool :=
  r.mode == OrcaIdentityMode.normal.code ||
    crypto.rsaVerifyString r.signedText r.signature r.publicKey

/-! ## The private key -/

/-- `"%s:%s"` of the IV and the ciphertext, in an array of `ORCA_ENCRYPTED_LEN`. -/
def combined (crypto : IdentityCrypto) (iv ciphertext : Bytes) : CString :=
  cut identityKeySize (orcaBytesToHex iv ++ 58 :: crypto.base64Encode ciphertext)

/-- The text before the first colon and the text behind it. -/
def splitColon (s : CString) : Option (CString × CString) :=
  match s.dropWhile (· != 58) with
  | [] => none
  | _ :: rest => some (s.takeWhile (· != 58), rest)

/-- The private key that `private_key_encrypted` has under a key. -/
def privateKeyUnder (crypto : IdentityCrypto) (r : IdentityRecord) (keyHex : CString) :
    Option CString := do
  let (ivHex, ciphertextB64) ← splitColon r.privateKeyEncrypted
  guard (ivHex.length < 33)
  orcaAesCbcDecryptString crypto ciphertextB64 ivHex keyHex

/-- `orca_identity_verify_with_passcode` -/
def orcaIdentityVerifyWithPasscode (crypto : IdentityCrypto) (r : IdentityRecord)
    (passcode : CString) : Bool :=
  match deriveIntoKey crypto passcode r.saltHex with
  | none => false
  | some keyUse =>
    match privateKeyUnder crypto r (orcaBytesToHex keyUse.key) with
    | none => false
    | some privateKey =>
      match crypto.rsaSignString (ascii "test") privateKey with
      | none => false
      | some signature => crypto.rsaVerifyString (ascii "test") signature r.publicKey

/-- `orca_identity_derive_key`: the bytes stored at `key_out`. -/
def orcaIdentityDeriveKey (crypto : IdentityCrypto) (r : IdentityRecord) (passcode : CString) :
    Option Bytes := do
  guard (r.mode = OrcaIdentityMode.secure.code)
  orcaDeriveKeyFromPasscodeHex crypto passcode r.saltHex

/-! ## Creation -/

/-- What `orca_identity_create` and `orca_identity_create_secure_3digit` have in common: `idOf` is the
id for a public key, `signedId` the form of it that is signed.  None where they return -1, and where a
`strcpy` leaves its array. -/
def createSecure (env : IdentityEnv) (idOf signedId : CString → CString) (name role passcode : CString) :
    Option IdentityRecord := do
  guard (8 ≤ passcode.length)
  let (publicKey, privateKey) ← env.rsaKeypair
  let salt ← env.salt
  let saltHex := orcaBytesToHex salt
  let keyUse ← deriveIntoKey env.crypto passcode saltHex
  let iv ← env.iv
  let ciphertext ← env.crypto.aesCbcEncrypt privateKey keyUse.key iv
  let publicKey ← strcpyInto identityKeySize publicKey
  let r : IdentityRecord :=
    { IdentityRecord.zero with
      id := idOf publicKey
      name := cut identityNameSize name
      role := cut identityRoleSize role
      mode := OrcaIdentityMode.secure.code
      createdAt := env.now
      lastUsed := env.now
      publicKey := publicKey
      privateKeyEncrypted := combined env.crypto iv ciphertext
      saltHex := saltHex
      version := identityVersion }
  let signature ← env.crypto.rsaSignString
    (signedText (signedId r.id) r.name r.role r.createdAt) privateKey
  let signature ← strcpyInto identitySigSize signature
  guard (orcaIdentityVerify env.crypto { r with signature := signature })
  return { r with signature := signature, verified := true }

/-- `orca_identity_generate_id(public_key, "ORCA-", id_out)` -/
def orcaIdentityGenerateId (crypto : IdentityCrypto) (publicKey : CString) : CString :=
  cut idSize (ascii "ORCA-" ++ (orcaBytesToHex (crypto.sha256 publicKey)).take 8)

/-- `orca_identity_create` -/
def orcaIdentityCreate (env : IdentityEnv) (name : Option CString) (passcode : CString)
    (role : Option CString) : Option IdentityRecord :=
  createSecure env (orcaIdentityGenerateId env.crypto) id (name.getD []) (role.getD (ascii "user"))
    passcode

/-- `"<XXX>"` with digits. -/
def isThreeDigitId : CString → Bool
  | [60, a, b, c, 62] => isDigit a && isDigit b && isDigit c
  | _ => false

/-- `orca_identity_create_secure_3digit` -/
def orcaIdentityCreateSecure3digit (env : IdentityEnv) (id passcode : CString)
    (name role : Option CString) : Option IdentityRecord := do
  guard (isThreeDigitId id)
  createSecure env (fun _ => id) normalizeId (name.getD (ascii "orcashi")) (role.getD (ascii "user"))
    passcode

/-- `orca_identity_create_normal`; the address it is given is not used. -/
def orcaIdentityCreateNormal (env : IdentityEnv) (id : CString) : IdentityRecord :=
  { IdentityRecord.zero with
    id := cut idSize id
    mode := OrcaIdentityMode.normal.code
    createdAt := env.now
    lastUsed := env.now
    verified := true
    version := identityVersion
    role := ascii "user" }

/-! ## What creation gives -/

/-- The values a SECURE identity is made of. -/
structure CreationParts where
  publicKey : CString
  privateKey : CString
  salt : Bytes
  keyUse : KeyUse
  iv : Bytes
  ciphertext : Bytes
  signature : CString

/-- The record with these parts. -/
def CreationParts.record (p : CreationParts) (crypto : IdentityCrypto) (now : Time)
    (id name role : CString) : IdentityRecord :=
  ⟨id, cut identityNameSize name, cut identityRoleSize role, OrcaIdentityMode.secure.code, now, now,
    true, p.publicKey, combined crypto p.iv p.ciphertext, p.signature, orcaBytesToHex p.salt,
    identityVersion⟩

/-- The surroundings give these parts, and the signature is one of the text. -/
structure CreationParts.Given (p : CreationParts) (env : IdentityEnv) (passcode text : CString) :
    Prop where
  long : 8 ≤ passcode.length
  keypair : env.rsaKeypair = some (p.publicKey, p.privateKey)
  salt : env.salt = some p.salt
  derived : deriveIntoKey env.crypto passcode (orcaBytesToHex p.salt) = some p.keyUse
  iv : env.iv = some p.iv
  encrypted : env.crypto.aesCbcEncrypt p.privateKey p.keyUse.key p.iv = some p.ciphertext
  fitsKey : p.publicKey.length < identityKeySize
  signs : env.crypto.rsaSignString text p.privateKey = some p.signature
  fitsSig : p.signature.length < identitySigSize
  verifies : env.crypto.rsaVerifyString text p.signature p.publicKey = true

theorem strcpyInto_eq_some {size : ℕ} {s t : CString} :
    strcpyInto size s = some t ↔ s.length < size ∧ s = t := by
  unfold strcpyInto
  split_ifs with h <;> simp [h]

/-- What `orca_identity_create_secure_3digit` gives, and when. -/
theorem create_eq_some_iff {env : IdentityEnv} {id passcode : CString} {name role : Option CString}
    {r : IdentityRecord} :
    orcaIdentityCreateSecure3digit env id passcode name role = some r ↔
      isThreeDigitId id = true ∧ ∃ p : CreationParts, p.Given env passcode r.signedText ∧
        r = p.record env.crypto env.now id (name.getD (ascii "orcashi")) (role.getD (ascii "user")) := by
  unfold orcaIdentityCreateSecure3digit createSecure
  simp only [Option.bind_eq_bind, Option.bind_eq_some_iff, Option.guard_eq_some']
  constructor
  · rintro ⟨-, hid, -, long, ⟨publicKey, privateKey⟩, keypair, salt, hsalt, keyUse, derived, iv, hiv,
      ciphertext, encrypted, pk, fitsKey, signature, signs, sig, fitsSig, -, verified, record⟩
    obtain ⟨keyRoom, rfl⟩ := strcpyInto_eq_some.1 fitsKey
    obtain ⟨sigRoom, rfl⟩ := strcpyInto_eq_some.1 fitsSig
    obtain rfl := Option.some.inj record
    exact ⟨hid, ⟨publicKey, privateKey, salt, keyUse, iv, ciphertext, signature⟩,
      ⟨long, keypair, hsalt, derived, hiv, encrypted, keyRoom, signs, sigRoom, verified⟩, rfl⟩
  · rintro ⟨hid, p, given_, rfl⟩
    exact ⟨(), hid, (), given_.long, _, given_.keypair, _, given_.salt, _, given_.derived, _, given_.iv,
      _, given_.encrypted, _, strcpyInto_eq_some.2 ⟨given_.fitsKey, rfl⟩, _, given_.signs, _,
      strcpyInto_eq_some.2 ⟨given_.fitsSig, rfl⟩, (), given_.verifies, rfl⟩

theorem threeDigitId {id : CString} (h : isThreeDigitId id = true) :
    ∃ a b c, id = [60, a, b, c, 62] ∧ isDigit a = true ∧ isDigit b = true ∧ isDigit c = true := by
  unfold isThreeDigitId at h
  split at h
  · rename_i a b c
    rw [Bool.and_eq_true, Bool.and_eq_true] at h
    exact ⟨a, b, c, rfl, h.1.1, h.1.2, h.2⟩
  · cases h

/-- Without its brackets the id is three digits. -/
theorem normalizeId_threeDigitId {id : CString} (h : isThreeDigitId id = true) :
    ∃ a b c, normalizeId id = [a, b, c] ∧ isDigit a = true := by
  obtain ⟨a, b, c, rfl, ha, hb, hc⟩ := threeDigitId h
  have plain {d : UInt8} (hd : isDigit d = true) : (d != 60 && d != 62) = true := by
    rw [Bool.and_eq_true, bne_iff_ne, bne_iff_ne]
    constructor <;> rintro rfl <;> exact absurd hd (by decide)
  refine ⟨a, b, c, ?_, ha⟩
  show (List.filter _ [60, a, b, c, 62]).take _ = _
  simp [plain ha, plain hb, plain hc, idSize]

/-! ## Surroundings in which everything works -/

/-- Cryptography one can look through: a signature is the hexadecimal text of what it signs, and a
ciphertext begins with its key and its IV. -/
def IdentityCrypto.transparent : IdentityCrypto where
  rsaSignString data key := if key = ascii "PRIVATE" then some (orcaBytesToHex data) else none
  rsaVerifyString data signature key := key == ascii "PUBLIC" && signature == orcaBytesToHex data
  x25519ComputeSharedSecret _ _ := none
  pbkdf2 passcode salt := some ((passcode ++ salt ++ List.replicate 32 0).take 32)
  aesGcmEncrypt _ _ _ := none
  aesGcmDecrypt _ _ _ _ := none
  sha256 _ := List.replicate 32 0
  aesCbcEncrypt data key iv := some (key ++ iv ++ data)
  aesCbcDecrypt ciphertext key iv :=
    if key ++ iv <+: ciphertext then some (ciphertext.drop (key ++ iv).length) else none
  base64Encode := orcaBytesToHex
  base64Decode := hexPairs

/-- A system on which everything works. -/
def IdentityEnv.transparent : IdentityEnv where
  crypto := .transparent
  now := 1700000000
  rsaKeypair := some (ascii "PUBLIC", ascii "PRIVATE")
  salt := some (List.replicate 16 1)
  iv := some (List.replicate 16 2)
  ensureDirectory := true
  opens _ := true
  readdir := []

end Orcashi
