import Orcashi.AesGcmMessage
import Orcashi.Lib.Counter

/-!
# Counting nonces

`orca_aes_gcm_nonce_increment` adds one to a nonce in place.  Its loop goes from the last byte to the
first and stops behind a byte that did not become 0.
-/

namespace Orcashi

open Counter

/-! ## The code -/

/-- The loop of `orca_aes_gcm_nonce_increment`, with `n` bytes left to go over. -/
def nonceIncrementLoop : ℕ → Bytes → Bytes
  | 0, nonce => nonce
  | i + 1, nonce =>
    let nonce := nonce.set i (nonce.getD i 0 + 1)
    if nonce.getD i 0 ≠ 0 then nonce else nonceIncrementLoop i nonce

theorem length_nonceIncrementLoop (n : ℕ) (nonce : Bytes) :
    (nonceIncrementLoop n nonce).length = nonce.length := by
  induction n generalizing nonce with
  | zero => rfl
  | succ i ih =>
    rw [nonceIncrementLoop]
    split_ifs
    · exact List.length_set
    · rw [ih, List.length_set]

/-- `orca_aes_gcm_nonce_increment`: the nonce, for 0, or the text that `set_aes_error` gets, for -1. -/
def orcaAesGcmNonceIncrement : Option AesGcmNonce → Except String AesGcmNonce
  | none => .error "NULL pointer in orca_aes_gcm_nonce_increment"
  | some nonce =>
    .ok ⟨nonceIncrementLoop orcaAesGcmNonceLen nonce.val,
      (length_nonceIncrementLoop _ _).trans nonce.property⟩

/-- The nonce after `k` calls, if all of them return 0. -/
def incremented (nonce : AesGcmNonce) : ℕ → Except String AesGcmNonce
  | 0 => .ok nonce
  | k + 1 => do orcaAesGcmNonceIncrement (some (← incremented nonce k))

/-- A nonce as a number. -/
def nonceNumber (nonce : AesGcmNonce) : ℕ := value nonce.val

/-! ## The loop -/

/-- The bytes in front become those of the next number; those behind stay. -/
theorem nonceIncrementLoop_eq (front behind : Bytes) :
    nonceIncrementLoop front.length (front ++ behind) = next front ++ behind := by
  induction front using List.reverseRecOn generalizing behind with
  | nil => rfl
  | append_singleton front d ih =>
    have stored : (front ++ [d] ++ behind).set front.length
        ((front ++ [d] ++ behind).getD front.length 0 + 1) = front ++ (d + 1) :: behind := by
      rw [List.append_assoc, List.getD_append_right _ _ _ _ (Nat.le_refl _), Nat.sub_self,
        List.set_append_right _ _ (Nat.le_refl _), Nat.sub_self]
      rfl
    have here : (front ++ (d + 1) :: behind).getD front.length 0 = d + 1 := by
      rw [List.getD_append_right _ _ _ _ (Nat.le_refl _), Nat.sub_self]
      rfl
    rw [List.length_append, List.length_singleton, nonceIncrementLoop]
    rw [stored, here, next, List.reverse_append, List.reverse_singleton, List.singleton_append, succ]
    by_cases carry : d + 1 = 0
    · rw [if_neg (not_not.2 carry), if_pos carry, carry, ih, List.reverse_cons, List.append_assoc]
      rfl
    · rw [if_pos carry, if_neg carry, List.reverse_cons, List.reverse_reverse, List.append_assoc]
      rfl

theorem nonceIncrementLoop_whole (nonce : AesGcmNonce) :
    nonceIncrementLoop orcaAesGcmNonceLen nonce.val = next nonce.val := by
  have whole := nonceIncrementLoop_eq nonce.val []
  rwa [nonce.property, List.append_nil, List.append_nil] at whole

/-! ## The numbers -/

/-- The next nonce. -/
def nextNonce (nonce : AesGcmNonce) : AesGcmNonce :=
  ⟨next nonce.val, (length_next _).trans nonce.property⟩

theorem orcaAesGcmNonceIncrement_some (nonce : AesGcmNonce) :
    orcaAesGcmNonceIncrement (some nonce) = .ok (nextNonce nonce) :=
  congrArg Except.ok (Subtype.ext (nonceIncrementLoop_whole nonce))

theorem nonceNumber_nextNonce (nonce : AesGcmNonce) :
    nonceNumber (nextNonce nonce) = (nonceNumber nonce + 1) % 2 ^ 96 := by
  have number := value_next nonce.val
  rwa [nonce.property, show 256 ^ orcaAesGcmNonceLen = 2 ^ 96 from rfl] at number

theorem incremented_eq (nonce : AesGcmNonce) (k : ℕ) :
    incremented nonce k = .ok (nextNonce^[k] nonce) := by
  induction k with
  | zero => rfl
  | succ k ih =>
    rw [incremented, ih, Function.iterate_succ_apply']
    exact orcaAesGcmNonceIncrement_some _

/-- A nonce is incremented as a number modulo `2 ^ 96`, and fewer than `2 ^ 96` increments give no nonce a
second time. -/
theorem nonces_count_up :
    (∀ nonce, ∃ next, orcaAesGcmNonceIncrement (some nonce) = .ok next ∧
      nonceNumber next = (nonceNumber nonce + 1) % 2 ^ 96) ∧
    ∀ nonce, ∃ nonces : ℕ → AesGcmNonce, (∀ k, incremented nonce k = .ok (nonces k)) ∧
      Set.InjOn nonces {k | k < 2 ^ 96} := by
  constructor
  · intro nonce
    exact ⟨nextNonce nonce, orcaAesGcmNonceIncrement_some nonce, nonceNumber_nextNonce nonce⟩
  · intro nonce
    refine ⟨fun k => nextNonce^[k] nonce, incremented_eq nonce, ?_⟩
    exact injOn_iterate nonceNumber_nextNonce nonce

/-- After `2 ^ 96` increments the first nonce is used again. -/
theorem incremented_wraps (nonce : AesGcmNonce) : incremented nonce (2 ^ 96) = .ok nonce := by
  have small (nonce : AesGcmNonce) : nonceNumber nonce < 2 ^ 96 := by
    have h := value_lt nonce.val
    rwa [nonce.property, show 256 ^ orcaAesGcmNonceLen = 2 ^ 96 from rfl] at h
  have inj : Function.Injective nonceNumber := fun nonce nonce' same =>
    Subtype.ext ((value_inj (nonce.property.trans nonce'.property.symm)).1 same)
  rw [incremented_eq, iterate_eq_self nonceNumber_nextNonce small inj]

end Orcashi
