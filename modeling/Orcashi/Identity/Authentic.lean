import Orcashi.Identity.Store

/-!
# What a load checks

A load of a SECURE identity lets the passcode open the private key and compares that with the public key.
The stored signature, the only thing that binds the id, the name, the role and the time of creation to
the key, is read and not checked: what the JSON says besides the mode makes no difference.
-/

namespace Orcashi

open CMemory Stdio FlatJson

/-! ## Loads -/

/-- `orca_identity_load`, or `orca_identity_load_by_id` of an id. -/
def load (env : IdentityEnv) (files : IdentityFiles) (which passcode : Option CString) : LoadResult :=
  match which with
  | none => orcaIdentityLoad env files passcode
  | some id => orcaIdentityLoadById env files id passcode

/-- The file with the JSON. -/
def loadedFile : Option CString → CString
  | none => orcaIdentityFile
  | some id => entryFile id

/-- The fields that come from the other files. -/
structure KeyFields where
  publicKey : CString
  privateKeyEncrypted : CString
  signature : CString
  saltHex : CString

/-- The key files, as far as a record of this mode takes them; none where one does not fit. -/
def readKeyFiles (files : IdentityFiles) (mode : ℤ) : Option KeyFields := do
  let readSecure (path : CString) (size : ℕ) : Option CString :=
    if mode = OrcaIdentityMode.secure.code then readIntoField files path size else some []
  let publicKey ← readIntoField files orcaPublicKeyFile identityKeySize
  let privateKeyEncrypted ← readSecure orcaPrivateKeyFile identityKeySize
  let signature ← readSecure orcaSignatureFile identitySigSize
  let saltHex ← readSecure orcaSaltFile identitySaltSize
  return ⟨publicKey, privateKeyEncrypted, signature, saltHex⟩

/-- The record of a JSON text and the key files. -/
def jsonRecord (json : CString) (k : KeyFields) : IdentityRecord where
  id := readText idSize (ascii "id") json
  name := readText identityNameSize (ascii "name") json
  role := readText identityRoleSize (ascii "role") json
  mode := readInt (ascii "mode") json
  createdAt := readLong (ascii "created_at") json
  lastUsed := readLong (ascii "last_used") json
  verified := readBool (ascii "verified") json
  publicKey := k.publicKey
  privateKeyEncrypted := k.privateKeyEncrypted
  signature := k.signature
  saltHex := k.saltHex
  version := readText identityVersionSize (ascii "version") json

theorem fromJson_eq (files : IdentityFiles) (json : CString) :
    orcaIdentityFromJson files json =
      (readKeyFiles files (readInt (ascii "mode") json)).map (jsonRecord json) := by
  unfold orcaIdentityFromJson readKeyFiles
  dsimp only
  cases readIntoField files orcaPublicKeyFile identityKeySize with
  | none => rfl
  | some publicKey =>
    split_ifs
    · cases readIntoField files orcaPrivateKeyFile identityKeySize <;>
        cases readIntoField files orcaSignatureFile identitySigSize <;>
          cases readIntoField files orcaSaltFile identitySaltSize <;> rfl
    · rfl

/-- The passcode opens `private.enc` with `salt.hex` to a private key that fits `public.pem`. -/
def KeyFields.Open (k : KeyFields) (crypto : IdentityCrypto) (passcode : CString) : Prop :=
  orcaIdentityVerifyWithPasscode crypto
    { IdentityRecord.zero with
      publicKey := k.publicKey, privateKeyEncrypted := k.privateKeyEncrypted, saltHex := k.saltHex }
    passcode = true

/-- The files give a SECURE identity that the passcode opens. -/
structure Opens (env : IdentityEnv) (files : IdentityFiles) (which passcode : Option CString)
    (json : CString) (k : KeyFields) : Prop where
  listed : ∀ id ∈ which, id ∈ env.readdir
  file : readFileContent files (loadedFile which) = some json
  mode : readInt (ascii "mode") json = OrcaIdentityMode.secure.code
  keys : readKeyFiles files OrcaIdentityMode.secure.code = some k
  opened : ∃ p, passcode = some p ∧ k.Open env.crypto p

/-! ## What is asked for -/

/-- The fields that the signature covers. -/
def signedFields (json : CString) : CString × CString × CString × Time :=
  (normalizeId (readText idSize (ascii "id") json), readText identityNameSize (ascii "name") json,
    readText identityRoleSize (ascii "role") json, readLong (ascii "created_at") json)

/-- `signature.txt` verifies the fields of the JSON under `public.pem`. -/
def Signed (crypto : IdentityCrypto) (json : CString) (k : KeyFields) : Prop :=
  crypto.rsaVerifyString (jsonRecord json k).signedText k.signature k.publicKey = true

/-- A SECURE record that is loaded passes `orca_identity_verify`. -/
def LoadVerifies (env : IdentityEnv) (files : IdentityFiles) (which passcode : Option CString) : Prop :=
  ∀ r, load env files which passcode = .ok r → r.mode = OrcaIdentityMode.secure.code →
    r.verified = true → orcaIdentityVerify env.crypto r = true

/-- After an edit of a signed field in the file the load fails. -/
def EditsFail (env : IdentityEnv) (files : IdentityFiles) (which passcode : Option CString) : Prop :=
  ∀ json r, readFileContent files (loadedFile which) = some json →
    load env files which passcode = .ok r → r.mode = OrcaIdentityMode.secure.code →
    ∀ edited : Bytes, readInt (ascii "mode") (strAt edited 0) = readInt (ascii "mode") json →
      signedFields (strAt edited 0) ≠ signedFields json →
      ∀ r', load env (Function.update files (loadedFile which) (some edited)) which passcode ≠ .ok r'

/-- A load stays within the fields, and what it gives is authentic. -/
structure LoadAuthentic (env : IdentityEnv) (files : IdentityFiles) (which passcode : Option CString) :
    Prop where
  bounded : load env files which passcode ≠ .overflow
  verifies : LoadVerifies env files which passcode
  editsFail : EditsFail env files which passcode

/-- The key files fit the fields of a record that is loaded. -/
def KeyFilesFit (env : IdentityEnv) (files : IdentityFiles) (which : Option CString) : Prop :=
  ∀ json, readFileContent files (loadedFile which) = some json → (∀ id ∈ which, id ∈ env.readdir) →
    (readKeyFiles files (readInt (ascii "mode") json)).isSome = true

/-! ## What a load does -/

section Load

variable {env : IdentityEnv} {files : IdentityFiles} {which passcode : Option CString}

/-- Both loads come down to one of the file. -/
theorem load_eq :
    load env files which passcode =
      if ∀ id ∈ which, id ∈ env.readdir then loadFile env files (loadedFile which) passcode
      else .error := by
  cases which with
  | none => exact (if_pos (by simp)).symm
  | some id =>
    have listed : (∀ x ∈ some id, x ∈ env.readdir) ↔ id ∈ env.readdir := by simp
    show (if id ∈ env.readdir.filter (fun name => (files (entryFile name)).isSome) then
        loadFile env files (entryFile id) passcode else .error) =
      if ∀ x ∈ some id, x ∈ env.readdir then loadFile env files (entryFile id) passcode else .error
    by_cases found : id ∈ env.readdir.filter fun name => (files (entryFile name)).isSome
    · rw [if_pos found, if_pos (listed.2 (List.mem_filter.1 found).1)]
    rw [if_neg found]
    by_cases h : id ∈ env.readdir
    · have missing : files (entryFile id) = none := by simpa [h] using found
      rw [if_pos (listed.2 h)]
      unfold loadFile readFileContent
      rw [missing]
      rfl
    · rw [if_neg (mt listed.1 h)]

/-- The check with a passcode looks at three fields. -/
theorem verifyWithPasscode_jsonRecord {crypto : IdentityCrypto} {json p : CString} {k : KeyFields} :
    orcaIdentityVerifyWithPasscode crypto (jsonRecord json k) p = true ↔ k.Open crypto p :=
  Iff.rfl

/-- What a load gives for a SECURE identity, and when. -/
theorem load_secure_iff {r : IdentityRecord} :
    load env files which passcode = .ok r ∧ r.mode = OrcaIdentityMode.secure.code ↔
      ∃ json k, Opens env files which passcode json k ∧
        r = { jsonRecord json k with verified := true, lastUsed := env.now } := by
  rw [load_eq]
  constructor
  · rintro ⟨loaded, secure⟩
    split_ifs at loaded with listed
    unfold loadFile loadJson at loaded
    cases file : readFileContent files (loadedFile which) with
    | none =>
      rw [file] at loaded
      cases loaded
    | some json =>
      rw [file] at loaded
      dsimp only at loaded
      rw [fromJson_eq] at loaded
      cases keys : readKeyFiles files (readInt (ascii "mode") json) with
      | none =>
        rw [keys] at loaded
        cases loaded
      | some k =>
        rw [keys, Option.map_some] at loaded
        dsimp only at loaded
        split_ifs at loaded with mode
        · cases passcode with
          | none => cases loaded
          | some p =>
            dsimp only at loaded
            split_ifs at loaded with opened
            obtain rfl := LoadResult.ok.inj loaded
            have modeEq : readInt (ascii "mode") json = OrcaIdentityMode.secure.code := mode
            rw [modeEq] at keys
            exact ⟨json, k, ⟨listed, file, mode, keys, p, rfl, opened⟩, rfl⟩
        · obtain rfl := LoadResult.ok.inj loaded
          exact absurd secure mode
  · rintro ⟨json, k, ⟨listed, file, mode, keys, p, rfl, opened⟩, rfl⟩
    have modeEq : (jsonRecord json k).mode = OrcaIdentityMode.secure.code := mode
    refine ⟨?_, mode⟩
    unfold loadFile loadJson
    rw [if_pos listed, file]
    dsimp only
    rw [fromJson_eq, mode, keys, Option.map_some]
    dsimp only
    rw [if_pos modeEq, if_pos (verifyWithPasscode_jsonRecord.2 opened)]

theorem loadJson_bounded_iff {json : CString} :
    loadJson env files json passcode ≠ .overflow ↔
      (readKeyFiles files (readInt (ascii "mode") json)).isSome = true := by
  unfold loadJson
  rw [fromJson_eq]
  cases readKeyFiles files (readInt (ascii "mode") json) with
  | none => exact iff_of_false (fun h => h rfl) Bool.false_ne_true
  | some k =>
    refine iff_of_true ?_ rfl
    rw [Option.map_some]
    dsimp only
    split_ifs
    · cases passcode with
      | none => exact nofun
      | some p =>
        dsimp only
        split_ifs <;> exact nofun
    · exact nofun

/-- A load leaves no field exactly if the key files fit. -/
theorem load_bounded_iff : load env files which passcode ≠ .overflow ↔ KeyFilesFit env files which := by
  rw [load_eq]
  unfold KeyFilesFit
  split_ifs with listed
  · unfold loadFile
    cases readFileContent files (loadedFile which) with
    | none => exact iff_of_true nofun nofun
    | some json =>
      refine loadJson_bounded_iff.trans ⟨?_, fun h => h json rfl listed⟩
      rintro fit json' same -
      obtain rfl := Option.some.inj same
      exact fit
  · exact iff_of_true nofun fun _ _ h => absurd h listed

/-! ## Edits -/

theorem loadedFile_ne {file : CString} (flat : 47 ∉ file)
    (short : (orcaIdentityHome ++ file).length < 511) (other : file ≠ ascii "identity.json") :
    loadedFile which ≠ orcaIdentityHome ++ file := by
  cases which with
  | none => exact fun same => other (List.append_cancel_left same).symm
  | some id => exact entryFile_ne id flat short

theorem readIntoField_update {content : Bytes} {path path' : CString} (h : path' ≠ path) (size : ℕ) :
    readIntoField (Function.update files path' (some content)) path size =
      readIntoField files path size := by
  unfold readIntoField readFileContent
  rw [Function.update_of_ne (Ne.symm h)]

/-- The key files are not touched by an edit of the JSON. -/
theorem readKeyFiles_update (content : Bytes) (mode : ℤ) :
    readKeyFiles (Function.update files (loadedFile which) (some content)) mode =
      readKeyFiles files mode := by
  unfold readKeyFiles
  simp only [orcaPublicKeyFile, orcaPrivateKeyFile, orcaSignatureFile, orcaSaltFile]
  rw [readIntoField_update (loadedFile_ne (by decide) (by decide) (by decide)),
    readIntoField_update (loadedFile_ne (by decide) (by decide) (by decide)),
    readIntoField_update (loadedFile_ne (by decide) (by decide) (by decide)),
    readIntoField_update (loadedFile_ne (by decide) (by decide) (by decide))]

/-- An edit that leaves the mode alone does not keep the identity from being loaded. -/
theorem Opens.edit {json : CString} {k : KeyFields} (opens : Opens env files which passcode json k)
    (edited : Bytes) (mode : readInt (ascii "mode") (strAt edited 0) = readInt (ascii "mode") json) :
    Opens env (Function.update files (loadedFile which) (some edited)) which passcode
      (strAt edited 0) k := by
  refine ⟨opens.listed, ?_, mode.trans opens.mode, ?_, opens.opened⟩
  · unfold readFileContent
    rw [Function.update_self, Option.map_some]
  · rw [readKeyFiles_update]
    exact opens.keys

/-- A JSON text with nothing in it but an id and the mode SECURE. -/
def idAndMode (id : CString) : CString :=
  ascii "\x7b\"id\": \"" ++ id ++ ascii "\", \"mode\": 1\x7d"

/-- For every JSON text there is one that is signed differently. -/
theorem exists_edit (json : CString)
    (secure : readInt (ascii "mode") json = OrcaIdentityMode.secure.code) :
    ∃ edited : Bytes, readInt (ascii "mode") (strAt edited 0) = readInt (ascii "mode") json ∧
      signedFields (strAt edited 0) ≠ signedFields json := by
  have zero : readInt (ascii "mode") (strAt (idAndMode (ascii "0")) 0) = OrcaIdentityMode.secure.code := by
    decide
  have one : readInt (ascii "mode") (strAt (idAndMode (ascii "1")) 0) = OrcaIdentityMode.secure.code := by
    decide
  have differ : signedFields (strAt (idAndMode (ascii "0")) 0) ≠
      signedFields (strAt (idAndMode (ascii "1")) 0) := by decide
  by_cases same : signedFields (strAt (idAndMode (ascii "0")) 0) = signedFields json
  · exact ⟨idAndMode (ascii "1"), one.trans secure.symm, fun h => differ (same.trans h.symm)⟩
  · exact ⟨idAndMode (ascii "0"), zero.trans secure.symm, same⟩

/-! ## When a load is authentic -/

theorem verify_jsonRecord {json : CString} {k : KeyFields}
    (mode : readInt (ascii "mode") json = OrcaIdentityMode.secure.code) :
    orcaIdentityVerify env.crypto
        { jsonRecord json k with verified := true, lastUsed := env.now } = true ↔
      Signed env.crypto json k := by
  have secure : (jsonRecord json k).mode = OrcaIdentityMode.secure.code := mode
  unfold orcaIdentityVerify Signed
  rw [secure]
  exact Iff.rfl

/-- A load succeeds whatever the signature is a signature of: what it gives is authentic only where it
gives nothing. -/
theorem load_authentic_iff (env : IdentityEnv) (files : IdentityFiles)
    (which passcode : Option CString) :
    (LoadVerifies env files which passcode ↔
      ∀ json k, Opens env files which passcode json k → Signed env.crypto json k) ∧
    (LoadAuthentic env files which passcode ↔
      KeyFilesFit env files which ∧ ∀ json k, ¬ Opens env files which passcode json k) := by
  have verifies : LoadVerifies env files which passcode ↔
      ∀ json k, Opens env files which passcode json k → Signed env.crypto json k := by
    constructor
    · intro verifies json k opens
      obtain ⟨loaded, secure⟩ := load_secure_iff.2 ⟨json, k, opens, rfl⟩
      exact (verify_jsonRecord opens.mode).1 (verifies _ loaded secure rfl)
    · intro signed r loaded secure _
      obtain ⟨json, k, opens, rfl⟩ := load_secure_iff.1 ⟨loaded, secure⟩
      exact (verify_jsonRecord opens.mode).2 (signed json k opens)
  refine ⟨verifies, ?_⟩
  constructor
  · intro authentic
    refine ⟨load_bounded_iff.1 authentic.bounded, ?_⟩
    intro json k opens
    obtain ⟨loaded, secure⟩ := load_secure_iff.2 ⟨json, k, opens, rfl⟩
    obtain ⟨edited, mode, differ⟩ := exists_edit json opens.mode
    exact authentic.editsFail json _ opens.file loaded secure edited mode differ _
      (load_secure_iff.2 ⟨_, k, opens.edit edited mode, rfl⟩).1
  · rintro ⟨fit, closed⟩
    refine ⟨load_bounded_iff.2 fit, verifies.2 fun json k opens => absurd opens (closed json k), ?_⟩
    intro json r _ loaded secure
    obtain ⟨json', k, opens, -⟩ := load_secure_iff.1 ⟨loaded, secure⟩
    exact absurd opens (closed json' k)

end Load

set_option maxRecDepth 8000 in
/-- An identity that was created and saved, and whose name was changed in the file after that, is loaded
with its passcode and counts as verified; its signature is not one of the new name. -/
theorem edited_name_loads :
    ∃ r files r', orcaIdentityCreateSecure3digit .transparent (ascii "<075>") (ascii "passcode")
        (some (ascii "Ann")) none = some r ∧
      files = Function.update (orcaIdentitySave .transparent r fun _ => none).2 orcaIdentityFile
        (some (orcaIdentityToJson { r with name := ascii "Eve" })) ∧
      load .transparent files none (some (ascii "passcode")) = .ok r' ∧
      r'.mode = OrcaIdentityMode.secure.code ∧ r'.verified = true ∧ r'.name = ascii "Eve" ∧
      ¬ orcaIdentityVerify IdentityCrypto.transparent r' = true := by
  let r := (orcaIdentityCreateSecure3digit .transparent (ascii "<075>") (ascii "passcode")
    (some (ascii "Ann")) none).get (by decide)
  let files := Function.update (orcaIdentitySave .transparent r fun _ => none).2 orcaIdentityFile
    (some (orcaIdentityToJson { r with name := ascii "Eve" }))
  let json := orcaIdentityToJson { r with name := ascii "Eve" }
  let k : KeyFields := ⟨r.publicKey, r.privateKeyEncrypted, r.signature, r.saltHex⟩
  have opens : Opens .transparent files none (some (ascii "passcode")) json k :=
    ⟨by simp, by decide +kernel, by decide +kernel, by rfl, ascii "passcode", rfl,
      by unfold KeyFields.Open; decide +kernel⟩
  obtain ⟨loaded, secure⟩ := load_secure_iff.2 ⟨json, k, opens, rfl⟩
  refine ⟨r, files, _, (Option.some_get _).symm, rfl, loaded, secure, rfl, by decide, ?_⟩
  intro verified
  have signed := (verify_jsonRecord opens.mode).1 verified
  unfold Signed at signed
  exact absurd signed (by decide +kernel)

end Orcashi
