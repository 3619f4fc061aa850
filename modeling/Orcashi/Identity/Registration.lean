import Orcashi.Identity.Store

/-!
# Registration

`cmd_register` asks for a passcode twice with `get_hidden_input`, which returns a pointer to an array of its
own.  Both entries are in this array, the second one over the first: the comparison is of the array with
itself, and the identity is created with the second entry, which no policy was checked for.
-/

namespace Orcashi

open CMemory Stdio

/-! ## Hidden input -/

/-- `static char password[128]` -/
def PasswordBuffer := { b : Bytes // b.length = 128 }

namespace PasswordBuffer

/-- The array before anything is typed. -/
def zero : PasswordBuffer := ⟨List.replicate 128 0, rfl⟩

/-- A character is written. -/
def store (i : ℕ) (c : UInt8) (b : PasswordBuffer) : PasswordBuffer :=
  ⟨b.val.set i c, List.length_set.trans b.property⟩

/-- The C string the array holds. -/
def text (b : PasswordBuffer) : CString := strAt b.val 0

end PasswordBuffer

/-- The loop of `get_hidden_input` over what is typed: `i`, the array, and what is not yet read. -/
def hiddenInputLoop : Bytes → ℕ → PasswordBuffer → ℕ × PasswordBuffer × Bytes
  | [], i, password => (i, password, [])
  | c :: typed, i, password =>
    if 127 ≤ i then (i, password, c :: typed)
    else if c = 10 ∨ c = 13 then (i, password, typed)
    else if c = 8 ∨ c = 127 then hiddenInputLoop typed (i - 1) password
    else hiddenInputLoop typed (i + 1) (password.store i c)

/-- `get_hidden_input`: the array it leaves and what is not yet read. -/
def getHiddenInput (typed : Bytes) (password : PasswordBuffer) : PasswordBuffer × Bytes :=
  let (i, password, rest) := hiddenInputLoop typed 0 password
  (password.store i 0, rest)

/-- No write is outside the array. -/
theorem hiddenInputLoop_le {typed : Bytes} {i : ℕ} {password : PasswordBuffer} (le : i ≤ 127) :
    (hiddenInputLoop typed i password).1 ≤ 127 := by
  induction typed generalizing i password with
  | nil => exact le
  | cons c typed ih =>
    unfold hiddenInputLoop
    split_ifs with full
    · exact le
    · exact le
    · exact ih (by omega)
    · exact ih (by omega)

/-- What it returns is a string of the array. -/
theorem length_getHiddenInput_le (typed : Bytes) (password : PasswordBuffer) :
    (getHiddenInput typed password).1.text.length ≤ 127 := by
  have le : (hiddenInputLoop typed 0 password).1 ≤ 127 := hiddenInputLoop_le (Nat.zero_le _)
  have nul : (getHiddenInput typed password).1.val[(hiddenInputLoop typed 0 password).1]? = some 0 := by
    refine List.getElem?_set_self ?_
    rw [(hiddenInputLoop typed 0 password).2.1.property]
    omega
  have bound := length_strAt_le (Nat.zero_le _) nul
  exact bound.trans le

/-! ## The policy -/

/-- `isupper` -/
def isUpper (c : UInt8) : Bool := 65 ≤ c && c ≤ 90

/-- `islower` -/
def isLower (c : UInt8) : Bool := 97 ≤ c && c ≤ 122

/-- `special_chars` -/
def specialChars : CString := ascii "!@#$%^&*()_+-=[]\x7b\x7d|;:,.<>?"

/-- `has_upper`, `has_lower`, `has_digit` and `has_special` -/
structure PasscodeClasses where
  upper : Bool
  lower : Bool
  digit : Bool
  special : Bool
  deriving DecidableEq

/-- What a character adds. -/
def PasscodeClasses.add (k : PasscodeClasses) (c : UInt8) : PasscodeClasses :=
  if isUpper c then { k with upper := true }
  else if isLower c then { k with lower := true }
  else if isDigit c then { k with digit := true }
  else if c ∈ specialChars then { k with special := true }
  else k

/-- The two checks of `cmd_register`. -/
def passcodeAccepted (passcode : CString) : Bool :=
  let k := passcode.foldl PasscodeClasses.add ⟨false, false, false, false⟩
  decide (12 ≤ passcode.length) && (k.upper && k.lower && k.digit && k.special)

/-- The policy that is printed. -/
structure MeetsPolicy (passcode : CString) : Prop where
  length : 12 ≤ passcode.length
  upper : ∃ c ∈ passcode, isUpper c = true
  lower : ∃ c ∈ passcode, isLower c = true
  digit : ∃ c ∈ passcode, isDigit c = true
  special : ∃ c ∈ passcode, c ∈ specialChars

/-! ## `cmd_register` -/

/-- What a registration meets. -/
structure RegisterEnv where
  identity : IdentityEnv
  /-- `rand()` -/
  rand : ℕ
  /-- the line `fgets` leaves in `name` -/
  nameLine : Option Bytes
  /-- what is typed from the first hidden prompt on -/
  typed : Bytes

/-- `"<%03d>"` of a number from 1 to 999 -/
def registerId (rand : ℕ) : CString :=
  let num := rand % 999 + 1
  [60, (48 + num / 100).toUInt8, (48 + num / 10 % 10).toUInt8, (48 + num % 10).toUInt8, 62]

/-- The name that is typed, or the default one. -/
def displayName (line : Option Bytes) : CString :=
  let name := match line with
    | some line => (strAt line 0).takeWhile (· != 10)
    | none => ascii "orcashi"
  if name = [] then ascii "orcashi" else name

/-- What `cmd_register` returns and leaves, the passcode it gives to
`orca_identity_create_secure_3digit`, if it calls it, and the identity that is created. -/
structure Registered where
  ret : ℤ
  given : Option CString
  created : Option IdentityRecord
  files : IdentityFiles

/-- `cmd_register` -/
def cmdRegister (env : RegisterEnv) (files : IdentityFiles) : Registered :=
  if (files orcaIdentityFile).isSome then ⟨1, none, none, files⟩
  else
    let first := getHiddenInput env.typed .zero
    if !passcodeAccepted first.1.text then ⟨1, none, none, files⟩
    else
      let second := getHiddenInput first.2 first.1
      -- both pointers are to the one array, as it is now
      let passcode := second.1.text
      let passcode2 := second.1.text
      if passcode ≠ passcode2 then ⟨1, none, none, files⟩
      else
        match orcaIdentityCreateSecure3digit env.identity (registerId env.rand) passcode
          (some (displayName env.nameLine)) (some (ascii "user")) with
        | none => ⟨1, some passcode, none, files⟩
        | some r =>
          let saved := orcaIdentitySave env.identity r files
          if saved.1 < 0 then ⟨1, some passcode, some r, saved.2⟩
          else ⟨0, some passcode, some r, (writeFileContent env.identity orcaMetadataFile
            (cut 256 (ascii "\x7b\"default_id\":\"" ++ r.id ++ ascii "\"\x7d")) saved.2).2⟩

/-! ## What it should check -/

/-- What is entered at the first prompt. -/
def RegisterEnv.entry (env : RegisterEnv) : CString := (getHiddenInput env.typed .zero).1.text

/-- What is entered at the second one. -/
def RegisterEnv.confirmation (env : RegisterEnv) : CString :=
  let first := getHiddenInput env.typed .zero
  (getHiddenInput first.2 first.1).1.text

/-- An identity is created only from an entry that meets the policy and was repeated, and with this entry
as the passcode; where the second entry is another one, nothing is created. -/
structure ConfirmsPasscode (env : RegisterEnv) (files : IdentityFiles) : Prop where
  repeated : (cmdRegister env files).created.isSome → env.entry = env.confirmation
  policy : (cmdRegister env files).created.isSome → MeetsPolicy env.entry
  given : ∀ passcode, (cmdRegister env files).given = some passcode → passcode = env.entry
  nothing : env.entry ≠ env.confirmation →
    (cmdRegister env files).created = none ∧ (cmdRegister env files).files = files

section Policy

/-- A flag that is set where a class of characters occurs, and that the others leave alone. -/
theorem foldl_flag (flag : PasscodeClasses → Bool) (p : UInt8 → Bool)
    (add : ∀ k c, flag (k.add c) = (flag k || p c)) (s : CString) (k : PasscodeClasses) :
    flag (s.foldl PasscodeClasses.add k) = (flag k || s.any p) := by
  induction s generalizing k with
  | nil => exact (Bool.or_false _).symm
  | cons c s ih => rw [List.foldl_cons, ih, add, List.any_cons, Bool.or_assoc]

theorem isLower_of_isUpper {c : UInt8} (h : isUpper c = true) : isLower c = false := by
  unfold isUpper at h
  unfold isLower
  rw [Bool.and_eq_true, decide_eq_true_iff, decide_eq_true_iff] at h
  rw [Bool.and_eq_false_iff]
  exact Or.inl (decide_eq_false fun low => absurd (UInt8.le_trans low h.2) (by decide))

theorem isDigit_of_isLetter {c : UInt8} (h : isUpper c = true ∨ isLower c = true) :
    isDigit c = false := by
  unfold isUpper isLower at h
  unfold isDigit
  simp only [Bool.and_eq_true, decide_eq_true_iff] at h
  rw [Bool.and_eq_false_iff]
  refine Or.inr (decide_eq_false fun low => ?_)
  rcases h with h | h
  · exact absurd (UInt8.le_trans h.1 low) (by decide)
  · exact absurd (UInt8.le_trans h.1 low) (by decide)

theorem class_of_special {c : UInt8} (h : c ∈ specialChars) :
    isUpper c = false ∧ isLower c = false ∧ isDigit c = false := by
  have all : ∀ c ∈ specialChars, isUpper c = false ∧ isLower c = false ∧ isDigit c = false := by
    decide +kernel
  exact all c h

/-- The checks decide the policy: no character is in two of the classes. -/
theorem passcodeAccepted_iff (passcode : CString) :
    passcodeAccepted passcode = true ↔ MeetsPolicy passcode := by
  have upper := foldl_flag PasscodeClasses.upper isUpper (fun k c => by
    unfold PasscodeClasses.add
    split_ifs with up <;> simp [up]) passcode ⟨false, false, false, false⟩
  have lower := foldl_flag PasscodeClasses.lower isLower (fun k c => by
    unfold PasscodeClasses.add
    split_ifs with up low
    · rw [isLower_of_isUpper up, Bool.or_false]
    all_goals simp [low]) passcode ⟨false, false, false, false⟩
  have digit := foldl_flag PasscodeClasses.digit isDigit (fun k c => by
    unfold PasscodeClasses.add
    split_ifs with up low dig
    · rw [isDigit_of_isLetter (Or.inl up), Bool.or_false]
    · rw [isDigit_of_isLetter (Or.inr low), Bool.or_false]
    all_goals simp [dig]) passcode ⟨false, false, false, false⟩
  have special := foldl_flag PasscodeClasses.special (fun c => decide (c ∈ specialChars)) (fun k c => by
    unfold PasscodeClasses.add
    split_ifs with up low dig spec
    · rw [decide_eq_false fun h => Bool.false_ne_true ((class_of_special h).1.symm.trans up),
        Bool.or_false]
    · rw [decide_eq_false fun h => Bool.false_ne_true ((class_of_special h).2.1.symm.trans low),
        Bool.or_false]
    · rw [decide_eq_false fun h => Bool.false_ne_true ((class_of_special h).2.2.symm.trans dig),
        Bool.or_false]
    all_goals simp [spec]) passcode ⟨false, false, false, false⟩
  unfold passcodeAccepted
  dsimp only
  rw [upper, lower, digit, special]
  simp only [Bool.false_or, Bool.and_eq_true, decide_eq_true_iff, List.any_eq_true]
  exact ⟨fun h => ⟨h.1, h.2.1.1.1, h.2.1.1.2, h.2.1.2, h.2.2⟩,
    fun h => ⟨h.length, ⟨⟨h.upper, h.lower⟩, h.digit⟩, h.special⟩⟩

end Policy

section Register

variable {env : RegisterEnv} {files : IdentityFiles}

/-- Where there is an identity or the first entry is refused, the second one is not asked for. -/
theorem cmdRegister_refused
    (h : (files orcaIdentityFile).isSome ∨ ¬ MeetsPolicy env.entry) :
    cmdRegister env files = ⟨1, none, none, files⟩ := by
  unfold cmdRegister
  by_cases registered : (files orcaIdentityFile).isSome
  · rw [if_pos registered]
  · rw [if_neg registered]
    have refused : passcodeAccepted env.entry = false := by
      rw [← Bool.not_eq_true, passcodeAccepted_iff]
      exact h.resolve_left registered
    unfold RegisterEnv.entry at refused
    dsimp only
    rw [refused]
    rfl

/-- Otherwise it is what the identity is created with. -/
theorem cmdRegister_given (registered : ¬ (files orcaIdentityFile).isSome = true)
    (policy : MeetsPolicy env.entry) : (cmdRegister env files).given = some env.confirmation := by
  have accepted := (passcodeAccepted_iff _).2 policy
  unfold RegisterEnv.entry at accepted
  unfold cmdRegister
  rw [if_neg registered]
  dsimp only
  rw [accepted, if_neg (by decide), if_neg fun differ => differ rfl]
  split
  · rfl
  · split_ifs <;> rfl

/-- A registration confirms the passcode exactly if it is refused before the second prompt, or the same is
entered twice. -/
theorem confirms_passcode_iff (env : RegisterEnv) (files : IdentityFiles) :
    ConfirmsPasscode env files ↔
      (files orcaIdentityFile).isSome ∨ ¬ MeetsPolicy env.entry ∨ env.entry = env.confirmation := by
  by_cases refused : (files orcaIdentityFile).isSome ∨ ¬ MeetsPolicy env.entry
  · have nothing := cmdRegister_refused refused
    refine iff_of_true ⟨?_, ?_, ?_, ?_⟩ (by rwa [← or_assoc, or_iff_left_of_imp fun _ => refused])
    · rw [nothing]
      exact nofun
    · rw [nothing]
      exact nofun
    · rw [nothing]
      exact nofun
    · rw [nothing]
      exact fun _ => ⟨rfl, rfl⟩
  · rw [not_or, not_not] at refused
    have given := cmdRegister_given refused.1 refused.2
    rw [or_iff_right refused.1, or_iff_right (not_not.2 refused.2)]
    constructor
    · exact fun confirms => (confirms.given _ given).symm
    · intro same
      refine ⟨fun _ => same, fun _ => refused.2, fun passcode is => ?_, fun differ => absurd same differ⟩
      rw [given] at is
      rw [← Option.some.inj is, same]

end Register

/-- A good passcode is entered first, and another one of eight letters then. -/
def twoPasscodes : RegisterEnv where
  identity := .transparent
  rand := 74
  nameLine := none
  typed := ascii "Correct-Horse7\npassword\n"

set_option maxRecDepth 8000 in
/-- The identity is created with the second entry, which the first one should have been compared with and
which the policy refuses. -/
theorem second_passcode_taken :
    twoPasscodes.entry = ascii "Correct-Horse7" ∧ twoPasscodes.confirmation = ascii "password" ∧
      (cmdRegister twoPasscodes fun _ => none).ret = 0 ∧
      (cmdRegister twoPasscodes fun _ => none).given = some (ascii "password") ∧
      (cmdRegister twoPasscodes fun _ => none).created.isSome ∧
      ¬ ConfirmsPasscode twoPasscodes fun _ => none := by
  have entry : twoPasscodes.entry = ascii "Correct-Horse7" := by decide +kernel
  have given : (cmdRegister twoPasscodes fun _ => none).given = some (ascii "password") := by
    decide +kernel
  refine ⟨entry, by decide +kernel, by decide +kernel, given, by decide +kernel, fun confirms => ?_⟩
  have same := confirms.given _ given
  rw [entry] at same
  exact absurd same (by decide)

end Orcashi
