import Mathlib.Logic.Function.Basic
import Orcashi.Identity.Record
import Orcashi.Lib.FlatJson

/-!
# Identities on disk

`orca_identity_save` writes an identity into five files of one directory, the record itself as JSON.
`orca_identity_load` reads the JSON back, takes the keys, the signature and the salt from the other files
and lets the passcode of a SECURE identity be checked.  `orca_identity_load_by_id` and
`orca_identity_change_passcode` look for a directory of the identity.
-/

namespace Orcashi

open CMemory Stdio FlatJson

/-! ## Files -/

/-- The files there are, by path. -/
abbrev IdentityFiles := CString → Option Bytes

/-- `ORCA_IDENTITY_HOME` -/
def orcaIdentityHome : CString := ascii "/tmp/.orcashi/identity/"

/-- `ORCA_IDENTITY_FILE` -/
def orcaIdentityFile : CString := orcaIdentityHome ++ ascii "identity.json"

/-- `ORCA_PUBLIC_KEY_FILE` -/
def orcaPublicKeyFile : CString := orcaIdentityHome ++ ascii "public.pem"

/-- `ORCA_PRIVATE_KEY_FILE` -/
def orcaPrivateKeyFile : CString := orcaIdentityHome ++ ascii "private.enc"

/-- `ORCA_SIGNATURE_FILE` -/
def orcaSignatureFile : CString := orcaIdentityHome ++ ascii "signature.txt"

/-- `ORCA_SALT_FILE` -/
def orcaSaltFile : CString := orcaIdentityHome ++ ascii "salt.hex"

/-- `ORCA_METADATA_FILE` -/
def orcaMetadataFile : CString := orcaIdentityHome ++ ascii "metadata.json"

/-- `"%s%s/identity.json"` in a `char[512]` -/
def entryFile (name : CString) : CString := cut 512 (orcaIdentityHome ++ name ++ ascii "/identity.json")

/-- The content as the C string the callers take it for. -/
def readFileContent (files : IdentityFiles) (path : CString) : Option CString :=
  (files path).map fun content => strAt content 0

/-- `write_file_content` -/
def writeFileContent (env : IdentityEnv) (path content : CString) (files : IdentityFiles) :
    ℤ × IdentityFiles :=
  if env.opens path then (0, Function.update files path (some content)) else (-1, files)

/-! ## JSON -/

/-- The fields of the JSON that `orca_identity_from_json` reads back, in the order of the format. -/
def jsonFields (r : IdentityRecord) : List Field :=
  [⟨ascii "id", .text r.id⟩, ⟨ascii "name", .text r.name⟩, ⟨ascii "role", .text r.role⟩,
    ⟨ascii "mode", .bare (decimal r.mode)⟩, ⟨ascii "version", .text r.version⟩,
    ⟨ascii "created_at", .bare (decimal r.createdAt)⟩, ⟨ascii "last_used", .bare (decimal r.lastUsed)⟩,
    ⟨ascii "verified", .bare (if r.verified then ascii "true" else ascii "false")⟩]

/-- The fields behind these, which are written and not read. -/
def jsonKeyFields (r : IdentityRecord) : List Field :=
  [⟨ascii "public_key", .text r.publicKey⟩,
    ⟨ascii "private_key_encrypted", .text r.privateKeyEncrypted⟩, ⟨ascii "signature", .text r.signature⟩,
    ⟨ascii "salt_hex", .text r.saltHex⟩]

/-- `orca_identity_to_json`, in a `char[8192]`. -/
def orcaIdentityToJson (r : IdentityRecord) : CString :=
  cut 8192 (ascii "\x7b\n  " ++ FlatJson.print (jsonFields r ++ jsonKeyFields r) ++ ascii "\n\x7d")

/-- `strcpy` of a file into a field, if the file is there. -/
def readIntoField (files : IdentityFiles) (path : CString) (size : ℕ) : Option CString :=
  match readFileContent files path with
  | none => some []
  | some content => strcpyInto size content

/-- `orca_identity_from_json`; none where a `strcpy` leaves its field. -/
def orcaIdentityFromJson (files : IdentityFiles) (json : CString) : Option IdentityRecord := do
  let mode := readInt (ascii "mode") json
  let readSecure (path : CString) (size : ℕ) : Option CString :=
    if mode = OrcaIdentityMode.secure.code then readIntoField files path size else some []
  let publicKey ← readIntoField files orcaPublicKeyFile identityKeySize
  let privateKeyEncrypted ← readSecure orcaPrivateKeyFile identityKeySize
  let signature ← readSecure orcaSignatureFile identitySigSize
  let saltHex ← readSecure orcaSaltFile identitySaltSize
  return {
    id := readText idSize (ascii "id") json
    name := readText identityNameSize (ascii "name") json
    role := readText identityRoleSize (ascii "role") json
    mode := mode
    createdAt := readLong (ascii "created_at") json
    lastUsed := readLong (ascii "last_used") json
    verified := readBool (ascii "verified") json
    publicKey := publicKey
    privateKeyEncrypted := privateKeyEncrypted
    signature := signature
    saltHex := saltHex
    version := readText identityVersionSize (ascii "version") json }

/-! ## Saving -/

/-- What `orca_identity_save` writes, in this order. -/
def savedFiles (r : IdentityRecord) : List (CString × CString) :=
  [(orcaIdentityFile, orcaIdentityToJson r), (orcaPublicKeyFile, r.publicKey)] ++
    if r.mode = OrcaIdentityMode.secure.code then
      [(orcaPrivateKeyFile, r.privateKeyEncrypted), (orcaSignatureFile, r.signature),
        (orcaSaltFile, r.saltHex)]
    else []

/-- The writes, up to the first that fails. -/
def writeFiles (env : IdentityEnv) : List (CString × CString) → IdentityFiles → ℤ × IdentityFiles
  | [], files => (0, files)
  | (path, content) :: rest, files =>
    let r := writeFileContent env path content files
    if r.1 < 0 then (-1, r.2) else writeFiles env rest r.2

/-- `orca_identity_save` -/
def orcaIdentitySave (env : IdentityEnv) (r : IdentityRecord) (files : IdentityFiles) :
    ℤ × IdentityFiles :=
  if env.ensureDirectory then writeFiles env (savedFiles r) files else (-1, files)

/-! ## Loading -/

/-- How a load ends; `overflow` where a `strcpy` leaves its field. -/
inductive LoadResult where
  | overflow
  | error
  | ok (r : IdentityRecord)
  deriving DecidableEq

/-- What the two loads do with the JSON they have found. -/
def loadJson (env : IdentityEnv) (files : IdentityFiles) (json : CString) (passcode : Option CString) :
    LoadResult :=
  match orcaIdentityFromJson files json with
  | none => .overflow
  | some r =>
    if r.mode = OrcaIdentityMode.secure.code then
      match passcode with
      | none => .error
      | some passcode =>
        if orcaIdentityVerifyWithPasscode env.crypto r passcode then
          .ok { r with verified := true, lastUsed := env.now }
        else .error
    else .ok { r with verified := true, lastUsed := env.now }

/-- Reading the file at `path` and what follows. -/
def loadFile (env : IdentityEnv) (files : IdentityFiles) (path : CString) (passcode : Option CString) :
    LoadResult :=
  match readFileContent files path with
  | none => .error
  | some json => loadJson env files json passcode

/-- `orca_identity_load` -/
def orcaIdentityLoad (env : IdentityEnv) (files : IdentityFiles) (passcode : Option CString) :
    LoadResult :=
  loadFile env files orcaIdentityFile passcode

/-- `orca_identity_list`: the entries with an `identity.json` in them. -/
def orcaIdentityList (env : IdentityEnv) (files : IdentityFiles) : List CString :=
  env.readdir.filter fun name => (files (entryFile name)).isSome

local instance : LawfulBEq CString := inferInstanceAs (LawfulBEq (List UInt8))

/-- `orca_identity_load_by_id` -/
def orcaIdentityLoadById (env : IdentityEnv) (files : IdentityFiles) (id : CString)
    (passcode : Option CString) : LoadResult :=
  if id ∈ orcaIdentityList env files then loadFile env files (entryFile id) passcode else .error

/-! ## Changing the passcode -/

/-- `orca_identity_change_passcode`; none where a copy leaves its array. -/
def orcaIdentityChangePasscode (env : IdentityEnv) (id oldPasscode newPasscode : CString)
    (files : IdentityFiles) : Option (ℤ × IdentityFiles) :=
  if newPasscode.length < 8 then some (-1, files)
  else
    match orcaIdentityLoadById env files id (some oldPasscode) with
    | .overflow => none
    | .error => some (-1, files)
    | .ok r =>
      match env.salt with
      | none => some (-1, files)
      | some newSalt =>
        match deriveIntoKey env.crypto newPasscode (orcaBytesToHex newSalt) with
        | none => some (-1, files)
        | some newKey =>
          match splitColon r.privateKeyEncrypted with
          | none => some (-1, files)
          | some (oldIvHex, oldCipherB64) =>
            if 33 ≤ oldIvHex.length then none
            else
              -- the passcode itself is passed as the hexadecimal key
              match orcaAesCbcDecryptString env.crypto oldCipherB64 oldIvHex oldPasscode with
              | none => some (-1, files)
              | some privateKey =>
                match env.iv.bind (env.crypto.aesCbcEncrypt privateKey newKey.key) with
                | none => some (-1, files)
                | some newCiphertext =>
                  let saved := orcaIdentitySave env { r with
                    privateKeyEncrypted := combined env.crypto (env.iv.getD []) newCiphertext
                    saltHex := orcaBytesToHex newSalt } files
                  some (if saved.1 < 0 then -1 else 0, saved.2)

/-! ## Paths -/

/-- The `identity.json` of an entry is none of the files in the directory itself. -/
theorem entryFile_ne (name : CString) {file : CString} (flat : 47 ∉ file)
    (short : (orcaIdentityHome ++ file).length < 511) : entryFile name ≠ orcaIdentityHome ++ file := by
  intro same
  unfold entryFile cut at same
  have whole : (orcaIdentityHome ++ name ++ ascii "/identity.json").length ≤ 511 := by
    have length := congrArg List.length same
    rw [List.length_take] at length
    omega
  rw [List.take_of_length_le whole, List.append_assoc] at same
  have slash : (47 : UInt8) ∈ name ++ ascii "/identity.json" :=
    List.mem_append_right _ (by decide)
  exact flat (List.append_cancel_left same ▸ slash)

end Orcashi
