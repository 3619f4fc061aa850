import Orcashi.Identity.Store

/-!
# Reading back what was saved

`orca_identity_from_json` searches the text that `orca_identity_save` has written for one key after the
other.  What it finds is settled by `lookup` on the fields as long as no value has a quote in it; the
other files are read back as they were written.
-/

namespace Orcashi

open CMemory Stdio FlatJson

/-! ## The files that were saved -/

section Files

variable {env : IdentityEnv} {files : IdentityFiles} {path content : CString}
  {writes : List (CString × CString)}

/-- A write that is followed by others has succeeded. -/
theorem writeFiles_cons_zero (saved : (writeFiles env ((path, content) :: writes) files).1 = 0) :
    writeFiles env ((path, content) :: writes) files =
      writeFiles env writes (Function.update files path (some content)) := by
  rw [writeFiles] at saved ⊢
  unfold writeFileContent at saved ⊢
  by_cases opened : env.opens path = true
  · rw [if_pos opened]
    rfl
  · rw [if_neg opened] at saved
    cases saved

theorem writeFiles_frame (saved : (writeFiles env writes files).1 = 0)
    (other : path ∉ writes.map Prod.fst) : (writeFiles env writes files).2 path = files path := by
  induction writes generalizing files with
  | nil => rfl
  | cons w writes ih =>
    obtain ⟨p, c⟩ := w
    rw [List.map_cons, List.mem_cons, not_or] at other
    have first := writeFiles_cons_zero saved
    rw [first] at saved ⊢
    rw [ih saved other.2, Function.update_of_ne other.1]

/-- A file keeps what was written into it, if no later write goes to it. -/
theorem writeFiles_written (saved : (writeFiles env writes files).1 = 0)
    (distinct : (writes.map Prod.fst).Nodup) (written : (path, content) ∈ writes) :
    (writeFiles env writes files).2 path = some content := by
  induction writes generalizing files with
  | nil => cases written
  | cons w writes ih =>
    obtain ⟨p, c⟩ := w
    rw [List.map_cons, List.nodup_cons] at distinct
    have first := writeFiles_cons_zero saved
    rw [first] at saved ⊢
    rcases List.mem_cons.1 written with same | later
    · obtain ⟨rfl, rfl⟩ := Prod.mk.inj same
      rw [writeFiles_frame saved distinct.1, Function.update_self]
    · exact ih saved distinct.2 later

end Files

theorem nodup_savedFiles (r : IdentityRecord) : ((savedFiles r).map Prod.fst).Nodup := by
  unfold savedFiles
  split_ifs
  · simp only [List.map_append, List.map_cons, List.map_nil]
    decide
  · simp only [List.map_append, List.map_cons, List.map_nil]
    decide

theorem orcaIdentitySave_file {env : IdentityEnv} {r : IdentityRecord} {files : IdentityFiles}
    (saved : (orcaIdentitySave env r files).1 = 0) {path content : CString}
    (written : (path, content) ∈ savedFiles r) (text : 0 ∉ content) :
    readFileContent (orcaIdentitySave env r files).2 path = some content := by
  unfold orcaIdentitySave at saved ⊢
  split_ifs at saved ⊢ with dir
  · unfold readFileContent
    rw [writeFiles_written saved (nodup_savedFiles r) written, Option.map_some]
    congr 1
    unfold strAt
    rw [List.drop_zero]
    exact List.takeWhile_eq_self_iff.2 fun c hc => bne_iff_ne.2 fun e => text (e ▸ hc)
  · cases saved

/-! ## What is asked for -/

/-- The record that `orca_identity_from_json` makes of the file that was saved. -/
def reread (env : IdentityEnv) (r : IdentityRecord) (files : IdentityFiles) : Option IdentityRecord :=
  let saved := (orcaIdentitySave env r files).2
  (readFileContent saved orcaIdentityFile).bind (orcaIdentityFromJson saved)

/-- The fields that an identity has in its file are the same. -/
structure SameIdentity (r r' : IdentityRecord) : Prop where
  id : r'.id = r.id
  name : r'.name = r.name
  role : r'.role = r.role
  mode : r'.mode = r.mode
  version : r'.version = r.version
  createdAt : r'.createdAt = r.createdAt
  lastUsed : r'.lastUsed = r.lastUsed
  verified : r'.verified = r.verified
  publicKey : r'.publicKey = r.publicKey
  secure : r.mode = OrcaIdentityMode.secure.code →
    r'.privateKeyEncrypted = r.privateKeyEncrypted ∧ r'.signature = r.signature ∧ r'.saltHex = r.saltHex

/-- The identity that was saved is read again. -/
def RoundTrips (env : IdentityEnv) (r : IdentityRecord) (files : IdentityFiles) : Prop :=
  ∃ r', reread env r files = some r' ∧ SameIdentity r r'

/-! ## The text of the file -/

/-- What fits into the fields of a record, and is a text. -/
structure IdentityRecord.Fits (r : IdentityRecord) : Prop where
  id : r.id.length < idSize ∧ 0 ∉ r.id
  name : r.name.length < identityNameSize ∧ 0 ∉ r.name
  role : r.role.length < identityRoleSize ∧ 0 ∉ r.role
  version : r.version = identityVersion
  mode : r.mode = OrcaIdentityMode.normal.code ∨ r.mode = OrcaIdentityMode.secure.code
  createdAt : IsLong r.createdAt
  lastUsed : r.lastUsed = r.createdAt
  verified : r.verified = true
  publicKey : r.publicKey.length < identityKeySize ∧ 0 ∉ r.publicKey
  privateKeyEncrypted : r.privateKeyEncrypted.length < identityKeySize ∧ 0 ∉ r.privateKeyEncrypted
  signature : r.signature.length < identitySigSize ∧ 0 ∉ r.signature
  saltHex : r.saltHex.length < identitySaltSize ∧ 0 ∉ r.saltHex

variable {r : IdentityRecord}

theorem isLong_mode (fits : r.Fits) : IsInt r.mode := by
  rcases fits.mode with h | h <;> rw [h] <;> exact ⟨by decide, by decide⟩

theorem zero_not_mem_decimal (n : ℤ) : 0 ∉ decimal n := by
  intro h
  rcases mem_decimal h with h | h <;> exact absurd h (by decide)

/-- The fields up to `verified` leave room in the buffer. -/
theorem length_print_jsonFields (fits : r.Fits) : (FlatJson.print (jsonFields r)).length < 1000 := by
  have id := fits.id.1
  have name := fits.name.1
  have role := fits.role.1
  have mode := length_decimal_le (isLong_mode fits).isLong
  have created := length_decimal_le fits.createdAt
  have used := length_decimal_le (fits.lastUsed ▸ fits.createdAt : IsLong r.lastUsed)
  have version : r.version.length = 3 := by rw [fits.version]; rfl
  have keys : (ascii "id").length = 2 ∧ (ascii "name").length = 4 ∧ (ascii "role").length = 4 ∧
    (ascii "mode").length = 4 ∧ (ascii "version").length = 7 ∧ (ascii "created_at").length = 10 ∧
    (ascii "last_used").length = 9 ∧ (ascii "verified").length = 8 ∧ (ascii "true").length = 4 := by
    decide
  unfold idSize at id
  unfold identityNameSize at name
  unfold identityRoleSize at role
  refine Nat.lt_of_le_of_lt (length_print_le (jsonFields r)) ?_
  simp only [jsonFields, List.map_cons, List.map_nil, List.sum_cons, List.sum_nil, Value.raw,
    List.length_cons, List.length_append, List.length_nil, fits.verified, if_true]
  omega

theorem exists_toJson (fits : r.Fits) :
    ∃ tail, orcaIdentityToJson r = ascii "\x7b\n  " ++ (FlatJson.print (jsonFields r) ++ tail) ∧
      ∀ c ∈ tail.head?, isDigit c = false := by
  have room := length_print_jsonFields fits
  have opening : (ascii "\x7b\n  ").length = 4 := by decide
  have text : orcaIdentityToJson r = cut 8192 ((ascii "\x7b\n  " ++ FlatJson.print (jsonFields r)) ++
      (sep ++ (FlatJson.print (jsonKeyFields r) ++ ascii "\n\x7d"))) := by
    unfold orcaIdentityToJson
    have split := print_append (⟨ascii "id", .text r.id⟩ : Field)
      ⟨ascii "public_key", .text r.publicKey⟩ (jsonFields r).tail (jsonKeyFields r).tail
    rw [show jsonFields r ++ jsonKeyFields r = (⟨ascii "id", .text r.id⟩ :: (jsonFields r).tail) ++
      (⟨ascii "public_key", .text r.publicKey⟩ :: (jsonKeyFields r).tail) from rfl, split]
    simp only [List.append_assoc]
    rfl
  refine ⟨(sep ++ (FlatJson.print (jsonKeyFields r) ++ ascii "\n\x7d")).take
    (8191 - (ascii "\x7b\n  " ++ FlatJson.print (jsonFields r)).length), ?_, ?_⟩
  · rw [text, cut, List.take_append, List.take_of_length_le, List.append_assoc]
    rw [List.length_append]
    omega
  · intro c hc
    rw [List.head?_take] at hc
    split_ifs at hc
    · cases hc
    · obtain rfl := Option.some.inj hc
      rfl

theorem zero_not_mem_toJson (fits : r.Fits) : 0 ∉ orcaIdentityToJson r := by
  intro h
  have sepFree : (0 : UInt8) ∉ sep := by decide
  have edges : (0 : UInt8) ∉ ascii "\x7b\n  " ∧ (0 : UInt8) ∉ ascii "\n\x7d" := by decide
  have keys : ∀ f ∈ jsonFields r ++ jsonKeyFields r, (0 : UInt8) ∉ f.key := by
    simp only [jsonFields, jsonKeyFields, List.cons_append, List.nil_append, List.forall_mem_cons,
      List.not_mem_nil, false_implies, implies_true, and_true]
    decide
  have values : ∀ f ∈ jsonFields r ++ jsonKeyFields r, (0 : UInt8) ∉ f.value.raw := by
    have words : (0 : UInt8) ∉ ascii "true" ∧ (0 : UInt8) ∉ identityVersion := by decide
    simp [jsonFields, jsonKeyFields, Value.raw, fits.id.2, fits.name.2, fits.role.2, fits.version,
      fits.verified, fits.publicKey.2, fits.privateKeyEncrypted.2, fits.signature.2, fits.saltHex.2,
      zero_not_mem_decimal, words]
  unfold orcaIdentityToJson cut at h
  have inside := List.mem_of_mem_take h
  rw [List.mem_append, List.mem_append] at inside
  rcases inside with (h | h) | h
  · exact edges.1 h
  · exact not_mem_print ⟨sepFree, by decide, by decide, by decide⟩
      (fun f hf => ⟨keys f hf, values f hf⟩) h
  · exact edges.2 h

/-! ## The record that is read -/

theorem readIntoField_saved {env : IdentityEnv} {files : IdentityFiles}
    (saved : (orcaIdentitySave env r files).1 = 0) {path content : CString} {size : ℕ}
    (written : (path, content) ∈ savedFiles r) (fits : content.length < size ∧ 0 ∉ content) :
    readIntoField (orcaIdentitySave env r files).2 path size = some content := by
  unfold readIntoField
  rw [orcaIdentitySave_file saved written fits.2]
  exact if_pos fits.1

/-- The fields of the record come from the JSON. -/
theorem fromJson_fields {files : IdentityFiles} {json : CString} {r' : IdentityRecord}
    (h : orcaIdentityFromJson files json = some r') :
    r'.id = readText idSize (ascii "id") json ∧
      r'.name = readText identityNameSize (ascii "name") json ∧
      r'.role = readText identityRoleSize (ascii "role") json ∧ r'.mode = readInt (ascii "mode") json ∧
      r'.version = readText identityVersionSize (ascii "version") json ∧
      r'.createdAt = readLong (ascii "created_at") json ∧
      r'.lastUsed = readLong (ascii "last_used") json ∧
      r'.verified = readBool (ascii "verified") json := by
  unfold orcaIdentityFromJson at h
  simp only [Option.bind_eq_bind, Option.bind_eq_some_iff] at h
  obtain ⟨publicKey, -, privateKey, -, signature, -, saltHex, -, record⟩ := h
  obtain rfl := Option.some.inj record
  exact ⟨rfl, rfl, rfl, rfl, rfl, rfl, rfl, rfl⟩

/-- What the reader makes of the text. -/
structure ReadsAs (json : CString) (r : IdentityRecord) : Prop where
  id : readText idSize (ascii "id") json = r.id
  name : readText identityNameSize (ascii "name") json = r.name
  role : readText identityRoleSize (ascii "role") json = r.role
  mode : readInt (ascii "mode") json = r.mode
  version : readText identityVersionSize (ascii "version") json = r.version
  createdAt : readLong (ascii "created_at") json = r.createdAt
  lastUsed : readLong (ascii "last_used") json = r.lastUsed
  verified : readBool (ascii "verified") json = r.verified

/-- Only the JSON can fail to give the record back. -/
theorem roundTrips_iff {env : IdentityEnv} {files : IdentityFiles} (fits : r.Fits)
    (saved : (orcaIdentitySave env r files).1 = 0) :
    RoundTrips env r files ↔ ReadsAs (orcaIdentityToJson r) r := by
  have json : readFileContent (orcaIdentitySave env r files).2 orcaIdentityFile =
      some (orcaIdentityToJson r) :=
    orcaIdentitySave_file saved (List.mem_append_left _ List.mem_cons_self) (zero_not_mem_toJson fits)
  have file : reread env r files =
      orcaIdentityFromJson (orcaIdentitySave env r files).2 (orcaIdentityToJson r) := by
    unfold reread
    dsimp only
    rw [json, Option.bind_some]
  constructor
  · rintro ⟨r', read, same⟩
    rw [file] at read
    obtain ⟨id, name, role, mode, version, created, used, verified⟩ := fromJson_fields read
    exact ⟨id ▸ same.id, name ▸ same.name, role ▸ same.role, mode ▸ same.mode,
      version ▸ same.version, created ▸ same.createdAt, used ▸ same.lastUsed,
      verified ▸ same.verified⟩
  · intro reads
    have publicKey : readIntoField (orcaIdentitySave env r files).2 orcaPublicKeyFile identityKeySize =
        some r.publicKey :=
      readIntoField_saved saved
        (List.mem_append_left _ (List.mem_cons_of_mem _ List.mem_cons_self)) fits.publicKey
    unfold RoundTrips
    rw [file]
    unfold orcaIdentityFromJson
    dsimp only
    rw [reads.mode, publicKey]
    by_cases secure : r.mode = OrcaIdentityMode.secure.code
    · have inSecure {w : CString × CString}
          (h : w ∈ [(orcaPrivateKeyFile, r.privateKeyEncrypted), (orcaSignatureFile, r.signature),
            (orcaSaltFile, r.saltHex)]) : w ∈ savedFiles r := by
        unfold savedFiles
        rw [if_pos secure]
        exact List.mem_append_right _ h
      rw [if_pos secure, if_pos secure, if_pos secure,
        readIntoField_saved saved (inSecure (by simp)) fits.privateKeyEncrypted,
        readIntoField_saved saved (inSecure (by simp)) fits.signature,
        readIntoField_saved saved (inSecure (by simp)) fits.saltHex]
      exact ⟨_, rfl, reads.id, reads.name, reads.role, rfl, reads.version, reads.createdAt,
        reads.lastUsed, reads.verified, rfl, fun _ => ⟨rfl, rfl, rfl⟩⟩
    · rw [if_neg secure, if_neg secure, if_neg secure]
      exact ⟨_, rfl, reads.id, reads.name, reads.role, rfl, reads.version, reads.createdAt,
        reads.lastUsed, reads.verified, rfl, fun h => absurd h secure⟩

/-! ## What a search finds -/

/-- The keys that are looked for. -/
def jsonKeys : List CString :=
  [ascii "id", ascii "name", ascii "role", ascii "mode", ascii "version", ascii "created_at",
    ascii "last_used", ascii "verified"]

theorem isKey_of_mem {key : CString} (h : key ∈ jsonKeys) : IsKey key := by
  have keys : jsonKeys.all (fun k => !k.contains 34 && !k.contains 58 && k != sep) = true := by decide
  have this := List.all_eq_true.1 keys key h
  simp only [Bool.and_eq_true, Bool.not_eq_true', List.contains_eq_mem, decide_eq_false_iff_not,
    bne_iff_ne] at this
  exact ⟨this.1.1, this.1.2, this.2⟩

theorem plain_decimal (n : ℤ) : (Value.bare (decimal n)).Plain := by
  have digits : ∀ c ∈ decimal n, c ≠ 34 ∧ isBlank c = false := by
    intro c hc
    rcases mem_decimal hc with rfl | hd
    · exact ⟨by decide, by decide⟩
    · obtain ⟨space, -, -⟩ := not_space_of_isDigit hd
      constructor
      · rintro rfl
        exact absurd hd (by decide)
      · unfold isBlank
        rw [Bool.or_eq_false_iff, beq_eq_false_iff_ne, beq_eq_false_iff_ne]
        constructor <;> rintro rfl <;> exact absurd space (by decide)
  have ne : decimal n ≠ [] := by
    cases n with
    | ofNat n => exact digits_ne_nil n
    | negSucc n => exact List.cons_ne_nil _ _
  obtain ⟨c, t, hc⟩ := List.exists_cons_of_ne_nil ne
  exact ⟨fun h => (digits _ h).1 rfl, c, t, hc, (digits c (hc ▸ List.mem_cons_self)).2⟩

theorem plain_jsonFields (fits : r.Fits) (quotes : 34 ∉ r.id ∧ 34 ∉ r.name ∧ 34 ∉ r.role) :
    ∀ f ∈ jsonFields r, f.Plain := by
  intro f hf
  refine ⟨isKey_of_mem ?_, ?_⟩
  · have keys := List.mem_map_of_mem (f := Field.key) hf
    exact keys
  · simp only [jsonFields, List.mem_cons, List.not_mem_nil, or_false] at hf
    rcases hf with rfl | rfl | rfl | rfl | rfl | rfl | rfl | rfl
    · exact quotes.1
    · exact quotes.2.1
    · exact quotes.2.2
    · exact plain_decimal _
    · show 34 ∉ r.version
      rw [fits.version]
      decide
    · exact plain_decimal _
    · exact plain_decimal _
    · rw [fits.verified]
      exact ⟨by decide, _, _, rfl, rfl⟩

theorem lookup_id : lookup (ascii "id") (jsonFields r) = some (.text r.id) := if_pos rfl

theorem lookup_name : lookup (ascii "name") (jsonFields r) = some (.text r.name) := by
  unfold jsonFields
  simp +decide only [lookup, if_false, List.head?_cons, Option.map_some, Value.text.injEq, if_true,
    ite_self]

theorem lookup_role :
    lookup (ascii "role") (jsonFields r) =
      if r.id = ascii "role" then some (.text r.name) else some (.text r.role) := by
  unfold jsonFields
  simp +decide only [lookup, if_false, List.head?_cons, Option.map_some, Value.text.injEq, if_true,
    ite_self]

/-- The id, the name and the role can be taken for the keys behind them. -/
theorem lookup_behind_role {key : CString} (hkey : key ∈ jsonKeys.drop 3) :
    lookup key (jsonFields r) =
      if r.id = key then some (.text r.name)
      else if r.name = key then some (.text r.role)
      else if r.role = key then some (.bare (decimal r.mode))
      else lookup key ((jsonFields r).drop 3) := by
  have others : key ≠ ascii "id" ∧ key ≠ ascii "name" ∧ key ≠ ascii "role" := by
    have keys : (jsonKeys.drop 3).all
        (fun k => k != ascii "id" && k != ascii "name" && k != ascii "role") = true := by decide
    have this := List.all_eq_true.1 keys key hkey
    simp only [Bool.and_eq_true, bne_iff_ne] at this
    exact ⟨this.1.1, this.1.2, this.2⟩
  unfold jsonFields
  rw [lookup, if_neg (Ne.symm others.1), lookup, if_neg (Ne.symm others.2.1), lookup,
    if_neg (Ne.symm others.2.2)]
  simp only [List.head?_cons, Option.map_some, Value.text.injEq]
  rfl

theorem lookup_own (fits : r.Fits) :
    lookup (ascii "mode") ((jsonFields r).drop 3) = some (.bare (decimal r.mode)) ∧
      lookup (ascii "version") ((jsonFields r).drop 3) = some (.text r.version) ∧
      lookup (ascii "created_at") ((jsonFields r).drop 3) = some (.bare (decimal r.createdAt)) ∧
      lookup (ascii "last_used") ((jsonFields r).drop 3) = some (.bare (decimal r.lastUsed)) ∧
      lookup (ascii "verified") ((jsonFields r).drop 3) = some (.bare (ascii "true")) := by
  unfold jsonFields
  rw [fits.version, fits.verified]
  refine ⟨?_, ?_, ?_, ?_, ?_⟩ <;>
    simp +decide only [List.drop_succ_cons, List.drop_zero, lookup, if_false, if_true, reduceCtorEq]

/-! ## What is read -/

section Read

variable {key : CString} {v : Value}

theorem readText_json (fits : r.Fits) (quotes : 34 ∉ r.id ∧ 34 ∉ r.name ∧ 34 ∉ r.role)
    (hkey : key ∈ jsonKeys) (found : lookup key (jsonFields r) = some v) (size : ℕ) :
    readText size key (orcaIdentityToJson r) = v.asText size := by
  obtain ⟨tail, text, -⟩ := exists_toJson fits
  rw [text]
  exact readText_print (isKey_of_mem hkey) (plain_jsonFields fits quotes) found (by decide) size

theorem readInt_json (fits : r.Fits) (quotes : 34 ∉ r.id ∧ 34 ∉ r.name ∧ 34 ∉ r.role)
    (hkey : key ∈ jsonKeys) (found : lookup key (jsonFields r) = some v) {n : ℤ} (number : v.IsNumber n)
    (range : IsInt n) : readInt key (orcaIdentityToJson r) = n := by
  obtain ⟨tail, text, ends⟩ := exists_toJson fits
  rw [text]
  exact readInt_print (isKey_of_mem hkey) (plain_jsonFields fits quotes) found (by decide) ends number
    range

theorem readLong_json (fits : r.Fits) (quotes : 34 ∉ r.id ∧ 34 ∉ r.name ∧ 34 ∉ r.role)
    (hkey : key ∈ jsonKeys) (found : lookup key (jsonFields r) = some v) {n : ℤ} (number : v.IsNumber n)
    (range : IsLong n) : readLong key (orcaIdentityToJson r) = n := by
  obtain ⟨tail, text, ends⟩ := exists_toJson fits
  rw [text]
  exact readLong_print (isKey_of_mem hkey) (plain_jsonFields fits quotes) found (by decide) ends number
    range

/-- Whatever the key is taken for, a `true` stands behind it. -/
theorem readBool_verified (fits : r.Fits) (quotes : 34 ∉ r.id ∧ 34 ∉ r.name ∧ 34 ∉ r.role) :
    readBool (ascii "verified") (orcaIdentityToJson r) = true := by
  obtain ⟨tail, text, -⟩ := exists_toJson fits
  obtain ⟨v, found⟩ : ∃ v, lookup (ascii "verified") (jsonFields r) = some v := by
    rw [lookup_behind_role (by decide), (lookup_own fits).2.2.2.2]
    split_ifs <;> exact ⟨_, rfl⟩
  rw [text]
  refine readBool_print (isKey_of_mem (by decide)) (plain_jsonFields fits quotes) found (by decide)
    ⟨ascii "verified", .bare (ascii "true")⟩ ?_ rfl
  unfold jsonFields
  rw [fits.verified]
  rfl

end Read

/-- A quote in the id, in the name behind a plain id, or in the role behind both is not read back. -/
theorem quotes_of_readsAs (fits : r.Fits) (reads : ReadsAs (orcaIdentityToJson r) r)
    (hid : r.id ≠ ascii "role") : 34 ∉ r.id ∧ 34 ∉ r.name ∧ 34 ∉ r.role := by
  obtain ⟨tail, text, -⟩ := exists_toJson fits
  have idKey : IsKey (ascii "id") := isKey_of_mem (by decide)
  have nameKey : IsKey (ascii "name") := isKey_of_mem (by decide)
  have id : 34 ∉ r.id := by
    intro quote
    have cut := reads.id
    rw [text] at cut
    exact readText_ne_of_quote [] idKey (by simp) quote
      (fun a => if_pos rfl) (by decide) _ cut
  have name : 34 ∉ r.name := by
    intro quote
    have cut := reads.name
    rw [text] at cut
    refine readText_ne_of_quote [⟨ascii "id", .text r.id⟩] nameKey ?_ quote ?_ (by decide) _
      cut
    · intro f hf
      obtain rfl := List.mem_singleton.1 hf
      exact ⟨idKey, id⟩
    · intro a
      simp +decide only [List.cons_append, List.nil_append, lookup, if_false, List.head?_cons,
        Option.map_some, if_true, ite_self]
  have role : 34 ∉ r.role := by
    intro quote
    have cut := reads.role
    rw [text] at cut
    refine readText_ne_of_quote [⟨ascii "id", .text r.id⟩, ⟨ascii "name", .text r.name⟩]
      (isKey_of_mem (by decide)) ?_ quote ?_ (by decide) _ cut
    · intro f hf
      rcases List.mem_cons.1 hf with rfl | hf
      · exact ⟨idKey, id⟩
      · obtain rfl := List.mem_singleton.1 hf
        exact ⟨nameKey, name⟩
    · intro a
      simp +decide only [List.cons_append, List.nil_append, lookup, if_false, List.head?_cons,
        Option.map_some, if_true, ite_self, Value.text.injEq, hid]
  exact ⟨id, name, role⟩

/-! ## When the record is read back -/

theorem readText_role (fits : r.Fits) (quotes : 34 ∉ r.id ∧ 34 ∉ r.name ∧ 34 ∉ r.role) :
    readText identityRoleSize (ascii "role") (orcaIdentityToJson r) =
      if r.id = ascii "role" then (Value.text r.name).asText identityRoleSize else r.role := by
  have own : (Value.text r.role).asText identityRoleSize = r.role := if_pos fits.role.1
  have found := lookup_role (r := r)
  split_ifs at found ⊢
  · exact readText_json fits quotes (by decide) found _
  · rw [readText_json fits quotes (by decide) found, own]

theorem readInt_mode (fits : r.Fits) (quotes : 34 ∉ r.id ∧ 34 ∉ r.name ∧ 34 ∉ r.role) :
    readInt (ascii "mode") (orcaIdentityToJson r) =
      if r.id = ascii "mode" ∨ r.name = ascii "mode" then 0 else r.mode := by
  have zero : IsInt 0 := ⟨by decide, by decide⟩
  have found := @lookup_behind_role r (ascii "mode") (by decide)
  rw [(lookup_own fits).1] at found
  by_cases id : r.id = ascii "mode"
  · rw [if_pos id] at found
    rw [if_pos (Or.inl id)]
    exact readInt_json fits quotes (by decide) found rfl zero
  by_cases name : r.name = ascii "mode"
  · rw [if_neg id, if_pos name] at found
    rw [if_pos (Or.inr name)]
    exact readInt_json fits quotes (by decide) found rfl zero
  · rw [if_neg id, if_neg name, ite_self] at found
    rw [if_neg (not_or.2 ⟨id, name⟩)]
    exact readInt_json fits quotes (by decide) found rfl (isLong_mode fits)

theorem readText_version (fits : r.Fits) (quotes : 34 ∉ r.id ∧ 34 ∉ r.name ∧ 34 ∉ r.role) :
    readText identityVersionSize (ascii "version") (orcaIdentityToJson r) =
      if r.id = ascii "version" then (Value.text r.name).asText identityVersionSize
      else if r.name = ascii "version" then (Value.text r.role).asText identityVersionSize
      else if r.role = ascii "version" then []
      else r.version := by
  have own : (Value.text r.version).asText identityVersionSize = r.version := by
    rw [fits.version]
    rfl
  have found := @lookup_behind_role r (ascii "version") (by decide)
  rw [(lookup_own fits).2.1] at found
  split_ifs at found ⊢
  · exact readText_json fits quotes (by decide) found _
  · exact readText_json fits quotes (by decide) found _
  · exact readText_json fits quotes (by decide) found _
  · rw [readText_json fits quotes (by decide) found, own]

/-- The keys of the two times. -/
def timeKeys : List CString := [ascii "created_at", ascii "last_used"]

theorem readLong_time (fits : r.Fits) (quotes : 34 ∉ r.id ∧ 34 ∉ r.name ∧ 34 ∉ r.role) {key : CString}
    (hkey : key ∈ timeKeys) :
    readLong key (orcaIdentityToJson r) =
      if r.id = key ∨ r.name = key then 0 else if r.role = key then r.mode else r.createdAt := by
  have behind : key ∈ jsonKeys.drop 3 := by
    rcases List.mem_pair.1 hkey with rfl | rfl <;> decide
  have known : key ∈ jsonKeys := List.mem_of_mem_drop behind
  have own : lookup key ((jsonFields r).drop 3) = some (.bare (decimal r.createdAt)) := by
    rcases List.mem_pair.1 hkey with rfl | rfl
    · exact (lookup_own fits).2.2.1
    · rw [(lookup_own fits).2.2.2.1, fits.lastUsed]
  have zero : IsLong 0 := ⟨by decide, by decide⟩
  have found := lookup_behind_role (r := r) behind
  rw [own] at found
  by_cases id : r.id = key
  · rw [if_pos id] at found
    rw [if_pos (Or.inl id)]
    exact readLong_json fits quotes known found rfl zero
  by_cases name : r.name = key
  · rw [if_neg id, if_pos name] at found
    rw [if_pos (Or.inr name)]
    exact readLong_json fits quotes known found rfl zero
  rw [if_neg id, if_neg name] at found
  rw [if_neg (not_or.2 ⟨id, name⟩)]
  split_ifs at found ⊢
  · exact readLong_json fits quotes known found rfl (isLong_mode fits).isLong
  · exact readLong_json fits quotes known found rfl fits.createdAt

/-- The fields that can be read as something else. -/
theorem readsAs_iff (fits : r.Fits) (quotes : 34 ∉ r.id ∧ 34 ∉ r.name ∧ 34 ∉ r.role) :
    ReadsAs (orcaIdentityToJson r) r ↔
      readText identityRoleSize (ascii "role") (orcaIdentityToJson r) = r.role ∧
      readInt (ascii "mode") (orcaIdentityToJson r) = r.mode ∧
      readText identityVersionSize (ascii "version") (orcaIdentityToJson r) = r.version ∧
      ∀ key ∈ timeKeys, readLong key (orcaIdentityToJson r) = r.createdAt := by
  constructor
  · intro reads
    refine ⟨reads.role, reads.mode, reads.version, ?_⟩
    intro key hkey
    rcases List.mem_pair.1 hkey with rfl | rfl
    · exact reads.createdAt
    · rw [reads.lastUsed, fits.lastUsed]
  · rintro ⟨role, mode, version, times⟩
    have id : (Value.text r.id).asText idSize = r.id := if_pos fits.id.1
    have name : (Value.text r.name).asText identityNameSize = r.name := if_pos fits.name.1
    exact ⟨(readText_json fits quotes (by decide) lookup_id _).trans id,
      (readText_json fits quotes (by decide) lookup_name _).trans name, role, mode, version,
      times _ (by decide), (times _ (by decide)).trans fits.lastUsed.symm,
      (readBool_verified fits quotes).trans fits.verified.symm⟩

end Orcashi
