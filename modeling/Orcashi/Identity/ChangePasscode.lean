import Orcashi.Identity.Authentic
import Orcashi.Lib.History

/-!
# Changing the passcode

`orca_identity_change_passcode` loads the identity by its id, and so from a directory with the name of the
id.  No function makes such a directory: `orca_identity_save` writes all its files into the directory above.
The change fails for every identity that was saved, and leaves the files as they are.
-/

namespace Orcashi

open CMemory History

/-! ## The calls that change files -/

/-- `orca_identity_set_default` -/
def orcaIdentitySetDefault (env : IdentityEnv) (id : CString) (files : IdentityFiles) :
    ℤ × IdentityFiles :=
  if (files orcaIdentityFile).isSome ∧ env.ensureDirectory = true then
    writeFileContent env orcaMetadataFile
      (cut 256 (ascii "\x7b\"default_id\":\"" ++ id ++ ascii "\"\x7d")) files
  else (-1, files)

/-- A call that changes files. -/
inductive IdentityCall where
  | save (env : IdentityEnv) (r : IdentityRecord)
  | setDefault (env : IdentityEnv) (id : CString)
  /-- one of the files that `orca_identity_delete` and `orca_identity_reset` remove -/
  | unlink (path : CString)
  | changePasscode (env : IdentityEnv) (id oldPasscode newPasscode : CString)

/-- The files after a call; a change that leaves its arrays is not followed. -/
def identityStep (files : IdentityFiles) : IdentityCall → IdentityFiles
  | .save env r => (orcaIdentitySave env r files).2
  | .setDefault env id => (orcaIdentitySetDefault env id files).2
  | .unlink path => Function.update files path none
  | .changePasscode env id oldPasscode newPasscode =>
    ((orcaIdentityChangePasscode env id oldPasscode newPasscode files).map Prod.snd).getD files

/-! ## What is asked for -/

/-- The private key that a passcode opens. -/
def recoveredKey (crypto : IdentityCrypto) (r : IdentityRecord) (passcode : CString) : Option CString :=
  (deriveIntoKey crypto passcode r.saltHex).bind fun k =>
    privateKeyUnder crypto r (orcaBytesToHex k.key)

/-- The change succeeds; after it the new passcode opens the identity with the same private key, and
another one that did before does not. -/
def ChangeWorks (env : IdentityEnv) (id oldPasscode newPasscode : CString) (files : IdentityFiles) :
    Prop :=
  ∃ after r r', orcaIdentityChangePasscode env id oldPasscode newPasscode files = some (0, after) ∧
    orcaIdentityLoad env files (some oldPasscode) = .ok r ∧
    orcaIdentityLoad env after (some newPasscode) = .ok r' ∧
    recoveredKey env.crypto r' newPasscode = recoveredKey env.crypto r oldPasscode ∧
    (newPasscode ≠ oldPasscode → ∀ r₀, orcaIdentityLoad env after (some oldPasscode) ≠ .ok r₀)

/-! ## No directory of an identity -/

/-- No entry of the directory has an `identity.json` in it. -/
def NoEntries (files : IdentityFiles) : Prop := ∀ name, files (entryFile name) = none

variable {files : IdentityFiles}

theorem NoEntries.write (h : NoEntries files) (env : IdentityEnv) {path : CString}
    (other : ∀ name, entryFile name ≠ path) (content : CString) : NoEntries (writeFileContent env path content files).2 := by
  unfold writeFileContent
  split_ifs
  · intro name
    show Function.update files path (some content) (entryFile name) = none
    rw [Function.update_of_ne (other name)]
    exact h name
  · exact h

theorem NoEntries.writeFiles (h : NoEntries files) (env : IdentityEnv)
    {writes : List (CString × CString)} (others : ∀ w ∈ writes, ∀ name, entryFile name ≠ w.1) :
    NoEntries (Orcashi.writeFiles env writes files).2 := by
  induction writes generalizing files with
  | nil => exact h
  | cons w writes ih =>
    obtain ⟨path, content⟩ := w
    have first := h.write env (others _ List.mem_cons_self) content
    rw [Orcashi.writeFiles]
    split_ifs
    · exact first
    · exact ih first fun w hw => others w (List.mem_cons_of_mem _ hw)

theorem entryFile_ne_savedFiles (r : IdentityRecord) :
    ∀ w ∈ savedFiles r, ∀ name, entryFile name ≠ w.1 := by
  have paths : ∀ w ∈ savedFiles r, ∃ file, w.1 = orcaIdentityHome ++ file ∧ 47 ∉ file ∧
      (orcaIdentityHome ++ file).length < 511 := by
    intro w hw
    unfold savedFiles at hw
    rcases List.mem_append.1 hw with hw | hw
    · rcases List.mem_pair.1 hw with rfl | rfl
      · exact ⟨ascii "identity.json", rfl, by decide, by decide⟩
      · exact ⟨ascii "public.pem", rfl, by decide, by decide⟩
    · split_ifs at hw
      · simp only [List.mem_cons, List.not_mem_nil, or_false] at hw
        rcases hw with rfl | rfl | rfl
        · exact ⟨ascii "private.enc", rfl, by decide, by decide⟩
        · exact ⟨ascii "signature.txt", rfl, by decide, by decide⟩
        · exact ⟨ascii "salt.hex", rfl, by decide, by decide⟩
      · cases hw
  intro w hw name
  obtain ⟨file, path, flat, short⟩ := paths w hw
  rw [path]
  exact entryFile_ne name flat short

theorem NoEntries.save (h : NoEntries files) (env : IdentityEnv) (r : IdentityRecord) :
    NoEntries (orcaIdentitySave env r files).2 := by
  unfold orcaIdentitySave
  split_ifs
  · exact h.writeFiles env (entryFile_ne_savedFiles r)
  · exact h

/-- Without a directory of the identity the change fails, and nothing is written. -/
theorem changePasscode_of_noEntries (h : NoEntries files) (env : IdentityEnv)
    (id oldPasscode newPasscode : CString) :
    orcaIdentityChangePasscode env id oldPasscode newPasscode files = some (-1, files) := by
  have unlisted : orcaIdentityList env files = [] := by
    unfold orcaIdentityList
    refine List.filter_eq_nil_iff.2 fun name _ => ?_
    rw [h name]
    exact Bool.false_ne_true
  have load : orcaIdentityLoadById env files id (some oldPasscode) = .error := by
    unfold orcaIdentityLoadById
    rw [unlisted]
    exact if_neg List.not_mem_nil
  unfold orcaIdentityChangePasscode
  rw [load]
  exact ite_self _

/-- No call makes a directory of an identity. -/
theorem NoEntries.step (h : NoEntries files) (call : IdentityCall) :
    NoEntries (identityStep files call) := by
  cases call with
  | save env r => exact h.save env r
  | setDefault env id =>
    show NoEntries (orcaIdentitySetDefault env id files).2
    unfold orcaIdentitySetDefault
    split_ifs
    · exact h.write env (fun name => entryFile_ne name (by decide) (by decide)) _
    · exact h
  | unlink path =>
    intro name
    show Function.update files path none (entryFile name) = none
    by_cases same : entryFile name = path
    · rw [same, Function.update_self]
    · rw [Function.update_of_ne same]
      exact h name
  | changePasscode env id oldPasscode newPasscode =>
    have kept := changePasscode_of_noEntries h env id oldPasscode newPasscode
    show NoEntries ((orcaIdentityChangePasscode env id oldPasscode newPasscode files).map
      Prod.snd |>.getD files)
    rw [kept]
    exact h

/-- After every sequence of calls that begins without files, a change of a passcode fails, and leaves the
files as they are. -/
theorem passcode_never_changes (calls : List IdentityCall) (env : IdentityEnv)
    (id oldPasscode newPasscode : CString) :
    ¬ ChangeWorks env id oldPasscode newPasscode (run identityStep (fun _ => none) calls) ∧
      orcaIdentityChangePasscode env id oldPasscode newPasscode
          (run identityStep (fun _ => none) calls) =
        some (-1, run identityStep (fun _ => none) calls) := by
  have all : Meets identityStep (fun _ _ => True) (fun _ => none) calls :=
    meets_of_forall fun _ _ => trivial
  have reached : NoEntries (run identityStep (fun _ => none) calls) :=
    run_invariant NoEntries (fun _ call h _ => h.step call) (fun _ => rfl) all
  have fails := changePasscode_of_noEntries reached env id oldPasscode newPasscode
  refine ⟨?_, fails⟩
  rintro ⟨after, -, -, changed, -⟩
  rw [fails] at changed
  cases changed

set_option maxRecDepth 8000 in
/-- An identity that was created and saved, that its passcode opens, and that keeps this passcode. -/
theorem saved_passcode_kept :
    ∃ r files r', orcaIdentityCreateSecure3digit .transparent (ascii "<075>") (ascii "passcode")
        (some (ascii "Ann")) none = some r ∧
      orcaIdentitySave .transparent r (fun _ => none) = (0, files) ∧
      orcaIdentityLoad .transparent files (some (ascii "passcode")) = .ok r' ∧
      recoveredKey .transparent r' (ascii "passcode") = some (ascii "PRIVATE") ∧
      orcaIdentityChangePasscode
          { IdentityEnv.transparent with readdir := [ascii "identity.json", ascii "public.pem",
            ascii "private.enc", ascii "signature.txt", ascii "salt.hex"] }
          (ascii "<075>") (ascii "passcode") (ascii "new passcode") files = some (-1, files) := by
  let r := (orcaIdentityCreateSecure3digit .transparent (ascii "<075>") (ascii "passcode")
    (some (ascii "Ann")) none).get (by decide)
  let files := (orcaIdentitySave .transparent r fun _ => none).2
  let k : KeyFields := ⟨r.publicKey, r.privateKeyEncrypted, r.signature, r.saltHex⟩
  have opens : Opens .transparent files none (some (ascii "passcode")) (orcaIdentityToJson r) k :=
    ⟨by simp, by decide +kernel, by decide +kernel, by rfl, ascii "passcode", rfl,
      by unfold KeyFields.Open; decide +kernel⟩
  have empty : NoEntries fun _ => none := fun _ => rfl
  exact ⟨r, files, _, (Option.some_get _).symm, Prod.ext (by decide) rfl,
    (load_secure_iff.2 ⟨_, k, opens, rfl⟩).1, by decide,
    changePasscode_of_noEntries (empty.save .transparent r) _ _ _ _⟩

end Orcashi
