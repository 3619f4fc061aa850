import Orcashi.Ecdh.Agreement
import Orcashi.Lib.Stdio
import Orcashi.Lib.Stores

/-!
# Several keys of one secret

`orca_ecdh_derive_keys` derives one key for each number and has it stored `key_len` bytes behind the one
before.  Each derivation stores 32 bytes, whatever `key_len` is.
-/

namespace Orcashi

open CMemory Stdio Stores

/-! ## The source -/

/-- The four bytes of `info`. -/
def keyInfo (i : ℕ) : Bytes :=
  [(i >>> 24).toUInt8, (i >>> 16).toUInt8, (i >>> 8).toUInt8, i.toUInt8]

/-- What `orca_ecdh_derive_aes_key` returns, and what it stores at `aes_key_out`. -/
def deriveAesKeyStored (C : EcdhCrypto) (env : EcdhEnv) (sharedSecret : EcdhKey) (salt info : Bytes) :
    ℤ × Option EcdhKey :=
  match env.derivation with
  | .derived => (0, some (C.hkdf salt sharedSecret info))
  | .failed left => (-1, left)

theorem orcaEcdhDeriveAesKey_eq (C : EcdhCrypto) (env : EcdhEnv) (sharedSecret : EcdhKey)
    (salt info : Bytes) (aesKeyOut : EcdhKey) :
    orcaEcdhDeriveAesKey C env sharedSecret salt info aesKeyOut =
      ((deriveAesKeyStored C env sharedSecret salt info).1,
        (deriveAesKeyStored C env sharedSecret salt info).2.getD aesKeyOut) := by
  unfold orcaEcdhDeriveAesKey deriveAesKeyStored Derivation.result
  cases env.derivation <;> rfl

/-- The loop, with the number of keys that are left: what it returns and what is stored, by the distance
from `keys_out`. -/
def deriveKeysLoop (C : EcdhCrypto) (env : ℕ → EcdhEnv) (sharedSecret : EcdhKey) (salt : Bytes)
    (keyLen : UInt64) : ℕ → ℕ → ℤ × List (Store UInt8)
  | 0, _ => (0, [])
  | left + 1, i =>
    let keyOut := (i.toUInt64 * keyLen).toNat
    let derived := deriveAesKeyStored C (env i) sharedSecret salt (keyInfo i)
    let stored := derived.2.toList.map fun key => ⟨keyOut, key.val⟩
    if derived.1 < 0 then (-1, stored)
    else
      let rest := deriveKeysLoop C env sharedSecret salt keyLen left (i + 1)
      (rest.1, stored ++ rest.2)

/-- `orca_ecdh_derive_keys`, with what is written through the pointers. -/
def orcaEcdhDeriveKeys (C : EcdhCrypto) (env : ℕ → EcdhEnv) (sharedSecret : EcdhKey) (salt : Bytes)
    (keyCount : { n : ℤ // IsInt n }) (keyLen : UInt64) : ℤ × List (Store UInt8) :=
  if keyCount.val ≤ 0 ∨ keyLen = 0 then (-1, [])
  else deriveKeysLoop C env sharedSecret salt keyLen keyCount.val.toNat 0

/-! ## What it should fill -/

/-- HKDF-SHA256 with outputs of any length; OpenSSL is asked for 32 bytes. -/
structure HkdfSha256 (C : EcdhCrypto) where
  output : ℕ → Bytes → EcdhKey → Bytes → Bytes
  whole : ∀ salt sharedSecret info,
    output orcaEcdhPublicKeyLen salt sharedSecret info = (C.hkdf salt sharedSecret info).val

/-- The stores fill the array, each block holds its key, and no key reaches back into a block before
it. -/
structure FillsKeys {C : EcdhCrypto} (H : HkdfSha256 C) (sharedSecret : EcdhKey) (salt : Bytes)
    (keyCount keyLen : ℕ) (stores : List (Store UInt8)) : Prop where
  filled : ∀ a, (∃ w ∈ stores, w.Covers a) ↔ a < keyCount * keyLen
  keys : ∀ mem, ∀ i < keyCount, (List.range keyLen).map (fun j => after mem stores (i * keyLen + j)) =
    H.output keyLen salt sharedSecret (keyInfo i)
  apart : ∀ k w, stores[k]? = some w →
    ∀ i < k, ∀ a, i * keyLen ≤ a → a < (i + 1) * keyLen → ¬ w.Covers a

section Loop

variable {C : EcdhCrypto} {env : ℕ → EcdhEnv} {sharedSecret : EcdhKey} {salt : Bytes} {keyLen : UInt64}
  {left i : ℕ}

/-- Where every derivation succeeds, each key is stored at its place. -/
theorem deriveKeysLoop_of_derived (derived : ∀ k < left, (env (i + k)).derivation = .derived) :
    deriveKeysLoop C env sharedSecret salt keyLen left i = (0, (List.range left).map fun k =>
      ⟨((i + k).toUInt64 * keyLen).toNat, (C.hkdf salt sharedSecret (keyInfo (i + k))).val⟩) := by
  induction left generalizing i with
  | zero => rfl
  | succ left ih =>
    have first : (env i).derivation = .derived := derived 0 (Nat.succ_pos _)
    have rest := @ih (i + 1) fun k lt => by
      rw [Nat.add_assoc, Nat.add_comm 1 k]
      exact derived (k + 1) (Nat.succ_lt_succ lt)
    unfold deriveKeysLoop deriveAesKeyStored
    rw [first]
    dsimp only
    rw [if_neg (Int.lt_irrefl 0), rest, List.range_succ_eq_map, List.map_cons, List.map_map]
    refine congrArg (Prod.mk 0) (congrArg₂ List.cons rfl (List.map_congr_left fun k _ => ?_))
    dsimp only [Function.comp]
    rw [Nat.add_assoc, Nat.add_comm 1 k]

theorem deriveKeysLoop_of_failed (failed : ∃ k < left, (env (i + k)).derivation ≠ .derived) :
    (deriveKeysLoop C env sharedSecret salt keyLen left i).1 = -1 := by
  induction left generalizing i with
  | zero =>
    obtain ⟨k, lt, -⟩ := failed
    exact absurd lt (Nat.not_lt_zero k)
  | succ left ih =>
    obtain ⟨k, lt, failed⟩ := failed
    unfold deriveKeysLoop deriveAesKeyStored
    cases derivation : (env i).derivation with
    | failed => rfl
    | derived =>
      dsimp only
      rw [if_neg (Int.lt_irrefl 0)]
      cases k with
      | zero => exact absurd derivation failed
      | succ k =>
        refine ih ⟨k, Nat.lt_of_succ_lt_succ lt, ?_⟩
        rwa [Nat.add_assoc, Nat.add_comm 1 k]

end Loop

section Fill

variable {C : EcdhCrypto} {env : ℕ → EcdhEnv} {sharedSecret : EcdhKey} {salt : Bytes}
  {keyCount : { n : ℤ // IsInt n }} {keyLen : UInt64}

/-- The parameters pass the check and every derivation succeeds. -/
structure DerivesAll (env : ℕ → EcdhEnv) (keyCount : { n : ℤ // IsInt n }) (keyLen : UInt64) : Prop where
  count : 0 < keyCount.val
  length : keyLen ≠ 0
  derived : ∀ i < keyCount.val.toNat, (env i).derivation = .derived

theorem orcaEcdhDeriveKeys_of_derives (all : DerivesAll env keyCount keyLen) :
    orcaEcdhDeriveKeys C env sharedSecret salt keyCount keyLen =
      (0, (List.range keyCount.val.toNat).map fun k =>
        ⟨(k.toUInt64 * keyLen).toNat, (C.hkdf salt sharedSecret (keyInfo k)).val⟩) := by
  unfold orcaEcdhDeriveKeys
  rw [if_neg (not_or.2 ⟨Int.not_le.2 all.count, all.length⟩)]
  refine (deriveKeysLoop_of_derived fun k lt => ?_).trans ?_
  · rw [Nat.zero_add]
    exact all.derived k lt
  · simp only [Nat.zero_add]

/-- The call returns 0 only then. -/
theorem derives_of_orcaEcdhDeriveKeys
    (h : (orcaEcdhDeriveKeys C env sharedSecret salt keyCount keyLen).1 = 0) :
    DerivesAll env keyCount keyLen := by
  unfold orcaEcdhDeriveKeys at h
  split_ifs at h with refused
  · cases h
  · rw [not_or] at refused
    refine ⟨Int.not_le.1 refused.1, refused.2, ?_⟩
    by_contra failed
    simp only [not_forall] at failed
    obtain ⟨k, lt, failed⟩ := failed
    rw [deriveKeysLoop_of_failed ⟨k, lt, by rwa [Nat.zero_add]⟩] at h
    cases h

/-- Keys of 32 bytes are blocks one behind the other. -/
theorem stores_eq_blocks : ((List.range keyCount.val.toNat).map fun k =>
      (⟨(k.toUInt64 * 32).toNat, (C.hkdf salt sharedSecret (keyInfo k)).val⟩ : Store UInt8)) =
    blocks orcaEcdhPublicKeyLen (fun k => (C.hkdf salt sharedSecret (keyInfo k)).val)
      keyCount.val.toNat := by
  refine List.map_congr_left fun k mem => ?_
  have small := keyCount.property.2
  have lt := List.mem_range.1 mem
  have addr : (k.toUInt64 * 32).toNat = k * orcaEcdhPublicKeyLen := by
    rw [UInt64.toNat_mul, Nat.toUInt64_eq, UInt64.toNat_ofNat']
    show k % 2 ^ 64 * 32 % 2 ^ 64 = k * 32
    omega
  rw [addr]

theorem fillsKeys_blocks (H : HkdfSha256 C) (count : ℕ) :
    FillsKeys H sharedSecret salt count orcaEcdhPublicKeyLen
      (blocks orcaEcdhPublicKeyLen (fun k => (C.hkdf salt sharedSecret (keyInfo k)).val) count) := by
  have length (i : ℕ) := (C.hkdf salt sharedSecret (keyInfo i)).property
  refine ⟨fun a => covered_blocks_iff length (by decide), fun mem i lt => ?_, ?_⟩
  · rw [H.whole]
    refine List.ext_getElem (by rw [List.length_map, List.length_range, length]) fun j h h' => ?_
    rw [List.getElem_map, List.getElem_range]
    exact after_blocks length lt (List.getElem?_eq_getElem h')
  · intro k w at_ i lt a _ below
    obtain ⟨-, rfl⟩ := getElem?_blocks at_
    rw [covers_block_iff length]
    intro covers
    have next : (i + 1) * orcaEcdhPublicKeyLen ≤ k * orcaEcdhPublicKeyLen := Nat.mul_le_mul_right _ lt
    omega

/-- Shorter keys: the last derivation goes beyond the array.  Longer ones: nothing stores the byte behind
the first 32. -/
theorem length_of_fillsKeys (H : HkdfSha256 C) (all : DerivesAll env keyCount keyLen)
    (fills : FillsKeys H sharedSecret salt keyCount.val.toNat keyLen.toNat
      ((List.range keyCount.val.toNat).map fun k =>
        ⟨(k.toUInt64 * keyLen).toNat, (C.hkdf salt sharedSecret (keyInfo k)).val⟩)) :
    keyLen.toNat = orcaEcdhPublicKeyLen := by
  have length (i : ℕ) := (C.hkdf salt sharedSecret (keyInfo i)).property
  have small := keyCount.property.2
  have pos : 0 < keyCount.val.toNat := by
    have := all.count
    omega
  rcases Nat.lt_trichotomy keyLen.toNat orcaEcdhPublicKeyLen with short | same | long
  · obtain ⟨last, count⟩ := Nat.exists_eq_succ_of_ne_zero pos.ne'
    have addr : (last.toUInt64 * keyLen).toNat = last * keyLen.toNat := by
      have below : last < 2 ^ 64 := by omega
      rw [UInt64.toNat_mul, Nat.toUInt64_eq, UInt64.toNat_ofNat', Nat.mod_eq_of_lt below]
      refine Nat.mod_eq_of_lt ?_
      calc last * keyLen.toNat ≤ 2 ^ 31 * 32 :=
            Nat.mul_le_mul (by omega) (Nat.le_of_lt short)
        _ < 2 ^ 64 := by decide
    have covered := (fills.filled (last * keyLen.toNat + 31)).1 ⟨_, List.mem_map.2
      ⟨last, List.mem_range.2 (by omega), rfl⟩, by
        unfold Store.Covers
        dsimp only
        rw [addr, length]
        exact ⟨Nat.le_add_right _ _, Nat.add_lt_add_left (by decide) _⟩⟩
    rw [count, Nat.succ_mul] at covered
    unfold orcaEcdhPublicKeyLen at short
    omega
  · exact same
  · have inside : 32 < keyCount.val.toNat * keyLen.toNat :=
      Nat.lt_of_lt_of_le long (Nat.le_mul_of_pos_left _ pos)
    obtain ⟨w, mem, covers⟩ := (fills.filled 32).2 inside
    obtain ⟨k, at_⟩ := List.mem_iff_getElem?.1 mem
    cases k with
    | zero =>
      rw [List.getElem?_map, List.getElem?_range pos] at at_
      obtain rfl := Option.some.inj at_
      unfold Store.Covers at covers
      dsimp only at covers
      rw [length] at covers
      have start : ((0 : ℕ).toUInt64 * keyLen).toNat = 0 := by
        rw [UInt64.toNat_mul]
        exact (congrArg (· % 2 ^ 64) (Nat.zero_mul _)).trans rfl
      rw [start] at covers
      exact absurd covers.2 (by decide)
    | succ k =>
      refine absurd covers (fills.apart (k + 1) w at_ 0 (Nat.succ_pos k) 32 ?_ ?_)
      · rw [Nat.zero_mul]
        exact Nat.zero_le _
      · rw [Nat.zero_add, Nat.one_mul]
        exact long

/-- A call that returns 0 fills its output exactly if the keys are 32 bytes long, or it does not return 0:
its parameters are refused or a derivation fails. -/
theorem derive_keys_fills_iff (C : EcdhCrypto) (H : HkdfSha256 C) (env : ℕ → EcdhEnv)
    (sharedSecret : EcdhKey) (salt : Bytes) (keyCount : { n : ℤ // IsInt n }) (keyLen : UInt64) :
    ((orcaEcdhDeriveKeys C env sharedSecret salt keyCount keyLen).1 = 0 →
        FillsKeys H sharedSecret salt keyCount.val.toNat keyLen.toNat
          (orcaEcdhDeriveKeys C env sharedSecret salt keyCount keyLen).2) ↔
      keyLen = 32 ∨ keyCount.val ≤ 0 ∨ keyLen = 0 ∨
        ∃ i < keyCount.val.toNat, (env i).derivation ≠ .derived := by
  by_cases all : DerivesAll env keyCount keyLen
  · have succeeds : ¬ (keyCount.val ≤ 0 ∨ keyLen = 0 ∨
        ∃ i < keyCount.val.toNat, (env i).derivation ≠ .derived) := by
      rintro (none | zero | ⟨i, lt, failed⟩)
      · exact absurd all.count (Int.not_lt.2 none)
      · exact all.length zero
      · exact failed (all.derived i lt)
    rw [or_iff_left succeeds, orcaEcdhDeriveKeys_of_derives all, forall_prop_of_true rfl]
    constructor
    · intro fills
      exact UInt64.toNat_inj.1 (length_of_fillsKeys H all fills)
    · rintro rfl
      rw [stores_eq_blocks]
      exact fillsKeys_blocks H _
  · refine iff_of_true (fun h => absurd (derives_of_orcaEcdhDeriveKeys h) all) (Or.inr ?_)
    by_contra succeeds
    simp only [not_or, not_exists, not_and, not_not] at succeeds
    exact all ⟨Int.not_le.1 succeeds.1, succeeds.2.1, succeeds.2.2⟩

end Fill

/-- The outputs of a derivation that are the beginnings of one another. -/
def HkdfSha256.prefixes (C : EcdhCrypto) : HkdfSha256 C where
  output len salt sharedSecret info := (C.hkdf salt sharedSecret info).val.take len
  whole salt sharedSecret info := List.take_of_length_le (C.hkdf salt sharedSecret info).property.le

/-- One key of 16 bytes is asked for, and 32 bytes are stored. -/
theorem short_key_overruns :
    let call := orcaEcdhDeriveKeys .aliceBob (fun _ => .generating .zero) .zero []
      ⟨1, by decide, by decide⟩ 16
    call.1 = 0 ∧ (∃ w ∈ call.2, w.Covers 31) ∧
      ¬ (call.1 = 0 → FillsKeys (.prefixes .aliceBob) .zero [] 1 16 call.2) := by
  intro call
  have returned : call.1 = 0 := rfl
  have beyond : ∃ w ∈ call.2, w.Covers 31 := ⟨_, List.mem_cons_self, by decide⟩
  refine ⟨returned, beyond, fun fills => ?_⟩
  exact absurd (((fills returned).filled 31).1 beyond) (by decide)

end Orcashi
