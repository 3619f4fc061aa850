import Orcashi.Identity.Reread

/-!
# Saving an identity and reading it back

The name and the role of an identity come from the user and go into the JSON as they are.  A quote in one
of them ends it early, and a name or role that is equal to a key is taken for this key.
-/

namespace Orcashi

open CMemory Stdio FlatJson

variable {r : IdentityRecord}

/-! ## Identities that are created -/

theorem fits_threeDigitId {id : CString} (h : isThreeDigitId id = true) :
    id.length < idSize ∧ 0 ∉ id := by
  obtain ⟨a, b, c, rfl, ha, hb, hc⟩ := threeDigitId h
  have digit {d : UInt8} (hd : isDigit d = true) : 0 ≠ d := by
    rintro rfl
    exact absurd hd (by decide)
  refine ⟨show 5 < 64 by decide, ?_⟩
  simp [digit ha, digit hb, digit hc]

/-- What OpenSSL hands out as a C string has no NUL in it. -/
structure TextOutputs (env : IdentityEnv) : Prop where
  publicKey : ∀ keypair ∈ env.rsaKeypair, 0 ∉ keypair.1
  signature : ∀ data key, ∀ signature ∈ env.crypto.rsaSignString data key, 0 ∉ signature
  base64 : ∀ bytes, 0 ∉ env.crypto.base64Encode bytes

/-- The identities that the two functions create from texts. -/
inductive Produced (env : IdentityEnv) : IdentityRecord → Prop
  | secure {id passcode : CString} {name role : Option CString} {r : IdentityRecord}
      (created : orcaIdentityCreateSecure3digit env id passcode name role = some r)
      (texts : (∀ s ∈ name, 0 ∉ s) ∧ ∀ s ∈ role, 0 ∉ s) : Produced env r
  | normal {id : CString} (text : 0 ∉ id) : Produced env (orcaIdentityCreateNormal env id)

theorem zero_not_mem_orcaBytesToHex (bytes : Bytes) : 0 ∉ orcaBytesToHex bytes := by
  have digits : ∀ n < 16, hexChar n ≠ 0 := by decide
  intro h
  obtain ⟨b, -, hb⟩ := List.mem_flatMap.1 h
  have small := b.toNat_lt
  unfold byteHex at hb
  rcases List.mem_pair.1 hb with hb | hb
  · exact digits _ (by omega) hb.symm
  · exact digits _ (by omega) hb.symm

theorem length_cut_lt {size : ℕ} (h : 0 < size) (s : CString) : (cut size s).length < size := by
  unfold cut
  rw [List.length_take]
  omega

theorem zero_not_mem_cut {size : ℕ} {s : CString} (h : 0 ∉ s) : 0 ∉ cut size s :=
  fun hc => h (List.mem_of_mem_take hc)

theorem zero_not_mem_getD {s : Option CString} {default : CString} (h : ∀ t ∈ s, 0 ∉ t)
    (hdefault : 0 ∉ default) : 0 ∉ s.getD default := by
  cases s with
  | none => exact hdefault
  | some t => exact h t rfl

/-- A salt that a key was derived with has sixteen bytes. -/
theorem length_of_deriveIntoKey {crypto : IdentityCrypto} {passcode saltHex : CString} {k : KeyUse}
    (h : deriveIntoKey crypto passcode saltHex = some k) : saltHex.length = saltLen * 2 := by
  unfold deriveIntoKey orcaDeriveKeyFromPasscodeHex orcaHexToBytes at h
  by_contra wrong
  rw [if_neg wrong] at h
  cases h

theorem Produced.fits {env : IdentityEnv} (outputs : TextOutputs env) (range : IsLong env.now)
    (produced : Produced env r) : r.Fits := by
  cases produced with
  | secure created texts =>
    obtain ⟨hid, p, given_, rfl⟩ := create_eq_some_iff.1 created
    have id := fits_threeDigitId hid
    have name := @zero_not_mem_getD _ (ascii "orcashi") texts.1 (by decide)
    have role := @zero_not_mem_getD _ (ascii "user") texts.2 (by decide)
    have salt := length_of_deriveIntoKey given_.derived
    exact
      { id := id
        name := ⟨length_cut_lt (by decide) _, zero_not_mem_cut name⟩
        role := ⟨length_cut_lt (by decide) _, zero_not_mem_cut role⟩
        version := rfl
        mode := Or.inr rfl
        createdAt := range
        lastUsed := rfl
        verified := rfl
        publicKey := ⟨given_.fitsKey, outputs.publicKey _ given_.keypair⟩
        privateKeyEncrypted := ⟨length_cut_lt (by decide) _, zero_not_mem_cut (by
          have hex := zero_not_mem_orcaBytesToHex p.iv
          simp [hex, outputs.base64])⟩
        signature := ⟨given_.fitsSig, outputs.signature _ _ _ given_.signs⟩
        saltHex := ⟨by
          show (orcaBytesToHex p.salt).length < _
          rw [salt]
          decide, zero_not_mem_orcaBytesToHex _⟩ }
  | normal text =>
    have empty {size : ℕ} (h : 0 < size) :
        ([] : CString).length < size ∧ (0 : UInt8) ∉ ([] : CString) :=
      ⟨h, List.not_mem_nil⟩
    have user : (ascii "user").length < identityRoleSize ∧ (0 : UInt8) ∉ ascii "user" := by decide
    exact
      { id := ⟨length_cut_lt (by decide) _, zero_not_mem_cut text⟩
        name := empty (by decide)
        role := user
        version := rfl
        mode := Or.inl rfl
        createdAt := range
        lastUsed := rfl
        verified := rfl
        publicKey := empty (by decide)
        privateKeyEncrypted := empty (by decide)
        signature := empty (by decide)
        saltHex := empty (by decide) }

/-! ## The condition -/

/-- The name and the role of a SECURE identity that comes back: no quotes, and no key but `name`, `role`
and `verified`, except where the value behind the key happens to be the right one. -/
structure SecureReadsBack (name role : CString) (now : Time) : Prop where
  quotes : 34 ∉ name ∧ 34 ∉ role
  mode : name ≠ ascii "mode"
  version : (name = ascii "version" → role = identityVersion) ∧ role ≠ ascii "version"
  times : ∀ key ∈ timeKeys, (name = key → now = 0) ∧ (role = key → name ≠ key → now = 1)

/-- The id of a NORMAL identity that comes back. -/
structure NormalReadsBack (id : CString) (now : Time) : Prop where
  quotes : 34 ∉ id
  role : id ≠ ascii "role"
  version : id ≠ ascii "version"
  times : ∀ key ∈ timeKeys, id = key → now = 0

/-- The condition for it, on the fields of the identity. -/
def ReadsBack (r : IdentityRecord) : Prop :=
  if r.mode = OrcaIdentityMode.secure.code then SecureReadsBack r.name r.role r.createdAt
  else NormalReadsBack r.id r.createdAt

theorem readsAs_secure_iff (fits : r.Fits) (secure : r.mode = OrcaIdentityMode.secure.code)
    (hid : ∀ key ∈ jsonKeys, r.id ≠ key) (quote : 34 ∉ r.id) :
    ReadsAs (orcaIdentityToJson r) r ↔ SecureReadsBack r.name r.role r.createdAt := by
  have notRole := hid (ascii "role") (by decide)
  have notMode := hid (ascii "mode") (by decide)
  have notVersion := hid (ascii "version") (by decide)
  have notTime : ∀ key ∈ timeKeys, r.id ≠ key := by
    intro key hkey
    refine hid key ?_
    rcases List.mem_pair.1 hkey with rfl | rfl <;> decide
  have one : r.mode = 1 := secure
  constructor
  · intro reads
    have quotes := quotes_of_readsAs fits reads notRole
    obtain ⟨-, mode, version, times⟩ := (readsAs_iff fits quotes).1 reads
    rw [readInt_mode fits quotes] at mode
    rw [readText_version fits quotes, if_neg notVersion, fits.version] at version
    refine ⟨quotes.2, ?_, ⟨?_, ?_⟩, ?_⟩
    · intro name
      rw [if_pos (Or.inr name), one] at mode
      cases mode
    · intro name
      rw [if_pos name] at version
      unfold Value.asText at version
      dsimp only at version
      split_ifs at version
      · exact version
      · cases version
    · intro role
      split_ifs at version
      · rw [role] at version
        exact absurd version (by decide)
      · exact absurd version (by decide)
    · intro key hkey
      have time := times key hkey
      rw [readLong_time fits quotes hkey, one] at time
      constructor
      · intro name
        rw [if_pos (Or.inr name)] at time
        exact time.symm
      · intro role name
        rw [if_neg (not_or.2 ⟨notTime key hkey, name⟩), if_pos role] at time
        exact time.symm
  · rintro ⟨⟨nameQuote, roleQuote⟩, mode, ⟨version, notRoleVersion⟩, times⟩
    have quotes : 34 ∉ r.id ∧ 34 ∉ r.name ∧ 34 ∉ r.role := ⟨quote, nameQuote, roleQuote⟩
    refine (readsAs_iff fits quotes).2 ⟨?_, ?_, ?_, ?_⟩
    · rw [readText_role fits quotes, if_neg notRole]
    · rw [readInt_mode fits quotes, if_neg (not_or.2 ⟨notMode, mode⟩)]
    · rw [readText_version fits quotes, if_neg notVersion, if_neg notRoleVersion]
      split_ifs with name
      · rw [version name, fits.version]
        rfl
      · rfl
    · intro key hkey
      obtain ⟨zero, shadowed⟩ := times key hkey
      rw [readLong_time fits quotes hkey, one]
      split_ifs with name role
      · exact (zero (name.resolve_left (notTime key hkey))).symm
      · exact (shadowed role fun h => name (Or.inr h)).symm
      · rfl

theorem readsAs_normal_iff (fits : r.Fits) (hname : r.name = []) (hrole : r.role = ascii "user")
    (normal : r.mode = OrcaIdentityMode.normal.code) :
    ReadsAs (orcaIdentityToJson r) r ↔ NormalReadsBack r.id r.createdAt := by
  have rest : 34 ∉ r.name ∧ 34 ∉ r.role := by
    rw [hname, hrole]
    decide
  have noTime : ∀ key ∈ timeKeys, r.name ≠ key ∧ r.role ≠ key := by
    intro key hkey
    rw [hname, hrole]
    rcases List.mem_pair.1 hkey with rfl | rfl <;> decide
  have noVersion : r.name ≠ ascii "version" ∧ r.role ≠ ascii "version" := by
    rw [hname, hrole]
    decide
  constructor
  · intro reads
    have notRole : r.id ≠ ascii "role" := by
      intro id
      have role := reads.role
      rw [readText_role fits ⟨by rw [id]; decide, rest⟩, if_pos id, hname, hrole] at role
      exact absurd role (by decide)
    have quotes := quotes_of_readsAs fits reads notRole
    obtain ⟨-, -, version, times⟩ := (readsAs_iff fits quotes).1 reads
    refine ⟨quotes.1, notRole, ?_, ?_⟩
    · intro id
      rw [readText_version fits quotes, if_pos id, hname, fits.version] at version
      exact absurd version (by decide)
    · intro key hkey id
      have time := times key hkey
      rw [readLong_time fits quotes hkey, if_pos (Or.inl id)] at time
      exact time.symm
  · rintro ⟨quote, notRole, notVersion, times⟩
    have quotes : 34 ∉ r.id ∧ 34 ∉ r.name ∧ 34 ∉ r.role := ⟨quote, rest⟩
    refine (readsAs_iff fits quotes).2 ⟨?_, ?_, ?_, ?_⟩
    · rw [readText_role fits quotes, if_neg notRole]
    · rw [readInt_mode fits quotes, normal]
      exact ite_self _
    · rw [readText_version fits quotes, if_neg notVersion, if_neg noVersion.1, if_neg noVersion.2]
    · intro key hkey
      rw [readLong_time fits quotes hkey]
      split_ifs with id role
      · exact (times key hkey (id.resolve_right (noTime key hkey).1)).symm
      · exact absurd role (noTime key hkey).2
      · rfl

/-- An identity that was created and saved is read back exactly if its texts are no quotes and no keys. -/
theorem identity_round_trip_iff {env disk : IdentityEnv} {files : IdentityFiles} {r : IdentityRecord}
    (outputs : TextOutputs env) (range : IsLong env.now) (produced : Produced env r)
    (saved : (orcaIdentitySave disk r files).1 = 0) : RoundTrips disk r files ↔ ReadsBack r := by
  have fits := produced.fits outputs range
  rw [roundTrips_iff fits saved]
  unfold ReadsBack
  cases produced with
  | secure created texts =>
    obtain ⟨hid, p, -, record⟩ := create_eq_some_iff.1 created
    have secure : r.mode = OrcaIdentityMode.secure.code := by rw [record]; rfl
    obtain ⟨a, b, c, id, ha, hb, hc⟩ := threeDigitId hid
    have digits : r.id = [60, a, b, c, 62] := by rw [record, ← id]; rfl
    rw [if_pos secure]
    refine readsAs_secure_iff fits secure ?_ ?_
    · intro key hkey same
      have first : jsonKeys.all (fun k => k.head? != some 60) = true := by decide
      have other := List.all_eq_true.1 first key hkey
      rw [← same, digits] at other
      exact absurd rfl (bne_iff_ne.1 other)
    · have digit {d : UInt8} (hd : isDigit d = true) : 34 ≠ d := by
        rintro rfl
        exact absurd hd (by decide)
      rw [digits]
      simp [digit ha, digit hb, digit hc]
  | normal text =>
    rw [if_neg (show (orcaIdentityCreateNormal env _).mode ≠ _ by
      show OrcaIdentityMode.normal.code ≠ _
      decide)]
    exact readsAs_normal_iff fits rfl rfl rfl

theorem textOutputs_transparent : TextOutputs .transparent where
  publicKey := by
    intro keypair h
    obtain rfl := Option.some.inj h
    decide
  signature := by
    intro data key signature h
    have signed : (if key = ascii "PRIVATE" then some (orcaBytesToHex data) else none) =
        some signature := h
    split_ifs at signed
    obtain rfl := Option.some.inj signed
    exact zero_not_mem_orcaBytesToHex data
  base64 := zero_not_mem_orcaBytesToHex

/-- A name that is no key comes back. -/
theorem plain_name_comes_back :
    ∃ r, orcaIdentityCreateSecure3digit .transparent (ascii "<075>") (ascii "passcode")
        (some (ascii "Ann")) none = some r ∧ RoundTrips .transparent r fun _ => none := by
  let r := (orcaIdentityCreateSecure3digit .transparent (ascii "<075>") (ascii "passcode")
    (some (ascii "Ann")) none).get (by decide)
  have created : orcaIdentityCreateSecure3digit .transparent (ascii "<075>") (ascii "passcode")
      (some (ascii "Ann")) none = some r := (Option.some_get _).symm
  have texts : (∀ s ∈ some (ascii "Ann"), 0 ∉ s) ∧ ∀ s ∈ (none : Option CString), 0 ∉ s := by
    simp only [Option.mem_some_iff, forall_eq', Option.not_mem_none, false_implies, implies_true,
      and_true]
    decide
  refine ⟨r, created, (identity_round_trip_iff textOutputs_transparent ⟨by decide, by decide⟩
    (.secure created texts) (by decide)).2 ?_⟩
  unfold ReadsBack
  rw [if_pos (by decide)]
  exact ⟨by decide, by decide, by decide, by decide⟩

/-- A name with a quote in it does not come back. -/
theorem quoted_name_lost :
    ∃ r, orcaIdentityCreateSecure3digit .transparent (ascii "<075>") (ascii "passcode")
        (some (ascii "a\"b")) none = some r ∧
      (orcaIdentitySave .transparent r fun _ => none).1 = 0 ∧
      ¬ RoundTrips .transparent r fun _ => none := by
  let r := (orcaIdentityCreateSecure3digit .transparent (ascii "<075>") (ascii "passcode")
    (some (ascii "a\"b")) none).get (by decide)
  have created : orcaIdentityCreateSecure3digit .transparent (ascii "<075>") (ascii "passcode")
      (some (ascii "a\"b")) none = some r := (Option.some_get _).symm
  have texts : (∀ s ∈ some (ascii "a\"b"), 0 ∉ s) ∧ ∀ s ∈ (none : Option CString), 0 ∉ s := by
    simp only [Option.mem_some_iff, forall_eq', Option.not_mem_none, false_implies, implies_true,
      and_true]
    decide
  have saved : (orcaIdentitySave .transparent r fun _ => none).1 = 0 := by decide
  have fits := Produced.fits textOutputs_transparent ⟨by decide, by decide⟩ (.secure created texts)
  refine ⟨r, created, saved, ?_⟩
  intro back
  exact absurd ((roundTrips_iff fits saved).1 back).name (by decide)

end Orcashi
