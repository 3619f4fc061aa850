import Orcashi.Ecdh.Session
import Orcashi.Lib.History

/-!
# Agreement of two sessions

An initiator and a responder that exchange their public keys hold the same secret: each computes it from
its own private key and the public key of the other, and X25519 is commutative.  Nothing else reads a
secret out of a session, and what is called in the wrong role or before a key was agreed on gives none.
-/

namespace Orcashi

open CMemory

variable {C : EcdhCrypto} {s : OrcaECDSession}

/-! ## What is asked for -/

/-- Two key pairs have one secret. -/
def EcdhCrypto.Commutes (C : EcdhCrypto) : Prop :=
  ∀ a b, C.x25519 a (C.publicKey b) = C.x25519 b (C.publicKey a)

/-- The sessions of an initiator and a responder after the calls of an exchange, each of which returns 0. -/
inductive EcdhExchange (C : EcdhCrypto) : OrcaECDSession → OrcaECDSession → Prop
  | exchanged {env₁ env₂ env₃ env₄ : EcdhEnv} {peer₁ peer₂ : Option EcdhKey} {out₁ out₂ sent answer : EcdhKey}
      {i i' r r' : OrcaECDSession}
      (initiator : orcaEcdhSessionInit C env₁ true peer₁ = (0, i))
      (responder : orcaEcdhSessionInit C env₂ false peer₂ = (0, r))
      (initiate : orcaEcdhSessionInitiate i out₁ = (0, sent))
      (respond : orcaEcdhSessionRespond C env₃ sent r out₂ = (0, r', answer))
      (complete : orcaEcdhSessionComplete C env₄ answer i = (0, i')) : EcdhExchange C i' r'

/-- Both sessions give one secret, and this gives one key for every salt and info. -/
structure SecretsAgree (C : EcdhCrypto) (i r : OrcaECDSession) : Prop where
  initiator : i.established = true
  responder : r.established = true
  secret : ∃ secret, ∀ out, orcaEcdhSessionGetSharedSecret i out = (0, secret) ∧
    orcaEcdhSessionGetSharedSecret r out = (0, secret)
  key : ∀ env env' salt info out out' key key' keyOut keyOut',
    orcaEcdhSessionGetSharedSecret i out = (0, key) → orcaEcdhSessionGetSharedSecret r out' = (0, key') →
    (orcaEcdhDeriveAesKey C env key salt info keyOut).1 = 0 →
    (orcaEcdhDeriveAesKey C env' key' salt info keyOut').1 = 0 →
    (orcaEcdhDeriveAesKey C env key salt info keyOut).2 = (orcaEcdhDeriveAesKey C env' key' salt info keyOut').2

/-- A call in the wrong role fails, and leaves the session and the buffer. -/
structure RefusesWrongRole (C : EcdhCrypto) (s : OrcaECDSession) : Prop where
  initiate : s.isInitiator = false → ∀ out, orcaEcdhSessionInitiate s out = (-1, out)
  respond : s.isInitiator = true →
    ∀ env peer out, orcaEcdhSessionRespond C env peer s out = (-1, s, out)
  complete : s.isInitiator = false → ∀ env peer, orcaEcdhSessionComplete C env peer s = (-1, s)

/-- A call that agrees on a key. -/
def EcdhCall.Agrees (C : EcdhCrypto) (s : OrcaECDSession) (call : EcdhCall) : Prop :=
  call.derives s ≠ none ∧ (call.result C s).1 = 0

/-! ## Roles -/

theorem refusesWrongRole (C : EcdhCrypto) (s : OrcaECDSession) : RefusesWrongRole C s := by
  refine ⟨?_, ?_, ?_⟩
  · intro role out
    unfold orcaEcdhSessionInitiate
    rw [role]
    rfl
  · intro role env peer out
    unfold orcaEcdhSessionRespond
    rw [role]
    rfl
  · intro role env peer
    unfold orcaEcdhSessionComplete
    rw [role]
    rfl

/-! ## Before a key is agreed on -/

theorem not_established_init (C : EcdhCrypto) (env : EcdhEnv) (isInitiator : Bool) (peer : Option EcdhKey) :
    (orcaEcdhSessionInit C env isInitiator peer).2.established = false := by
  unfold orcaEcdhSessionInit
  dsimp only
  split_ifs <;> rfl

/-- Only a call that agrees on a key makes a session established. -/
theorem established_ecdhStep {call : EcdhCall} (h : (ecdhStep C s call).established = true) :
    s.established = true ∨ call.Agrees C s := by
  rcases ecdhCall_cases C s call with ⟨-, same⟩ | ⟨env, peer, derives, result⟩
  · rw [same] at h
    exact Or.inl h
  · unfold ecdhStep at h
    rw [result] at h
    cases derivation : env.derivation with
    | derived =>
      refine Or.inr ⟨by rw [derives]; exact Option.some_ne_none _, ?_⟩
      rw [result, agree_derived derivation]
    | failed left =>
      rw [agree_failed derivation] at h
      exact Or.inl h

theorem getSharedSecret_of_not_established (h : s.established = false) (out : EcdhKey) :
    orcaEcdhSessionGetSharedSecret s out = (-1, out) := by
  unfold orcaEcdhSessionGetSharedSecret
  rw [h]
  rfl

/-- Before any call agreed on a key there is no secret to be had. -/
theorem no_secret_before {start : OrcaECDSession} (fresh : start.established = false) {calls : List EcdhCall}
    (before : History.Meets (ecdhStep C) (fun s call => ¬ call.Agrees C s) start calls) (out : EcdhKey) :
    orcaEcdhSessionGetSharedSecret (History.run (ecdhStep C) start calls) out = (-1, out) := by
  apply getSharedSecret_of_not_established
  refine History.run_invariant (fun s => s.established = false) ?_ fresh before
  intro s call unestablished disagrees
  by_contra established
  rw [Bool.not_eq_false] at established
  rcases established_ecdhStep established with h | h
  · rw [unestablished] at h
    cases h
  · exact disagrees h

/-! ## The exchange -/

/-- The public key of a session that was made is that of its private key. -/
theorem publicKey_of_init {env : EcdhEnv} {isInitiator : Bool} {peer : Option EcdhKey}
    (h : orcaEcdhSessionInit C env isInitiator peer = (0, s)) :
    s.ephemeralKeypair.publicKey = C.publicKey s.ephemeralKeypair.privateKey := by
  unfold orcaEcdhSessionInit orcaEcdhGenerateKeypair at h
  cases generation : env.generation with
  | failed =>
    rw [generation] at h
    exact absurd (Prod.mk.inj h).1 (by decide)
  | publicOnly privateKey =>
    rw [generation] at h
    exact absurd (Prod.mk.inj h).1 (by decide)
  | generated privateKey =>
    rw [generation] at h
    obtain rfl := (Prod.mk.inj h).2
    rfl

theorem initiate_eq_zero {out sent : EcdhKey} (h : orcaEcdhSessionInitiate s out = (0, sent)) :
    sent = s.ephemeralKeypair.publicKey := by
  unfold orcaEcdhSessionInitiate at h
  split_ifs at h
  · exact absurd (Prod.mk.inj h).1 (by decide)
  · exact (Prod.mk.inj h).2.symm

theorem respond_eq_zero {env : EcdhEnv} {peer out answer : EcdhKey} {s' : OrcaECDSession}
    (h : orcaEcdhSessionRespond C env peer s out = (0, s', answer)) :
    s.agree C env peer = (0, s') ∧ answer = s'.ephemeralKeypair.publicKey := by
  unfold orcaEcdhSessionRespond at h
  split_ifs at h with role
  · exact absurd (Prod.mk.inj h).1 (by decide)
  · dsimp only at h
    split_ifs at h with failed
    · exact absurd (Prod.mk.inj h).1 (by decide)
    · obtain ⟨-, rfl, rfl⟩ := (Prod.mk.injEq ..).mp h |>.imp_right Prod.mk.inj
      refine ⟨Prod.ext ?_ rfl, rfl⟩
      rcases agree_eq_or C env peer s with ret | ret
      · exact ret
      · rw [ret] at failed
        exact absurd (by decide) failed

theorem complete_eq_zero {env : EcdhEnv} {peer : EcdhKey} {s' : OrcaECDSession}
    (h : orcaEcdhSessionComplete C env peer s = (0, s')) : s.agree C env peer = (0, s') := by
  unfold orcaEcdhSessionComplete at h
  split_ifs at h
  · exact absurd (Prod.mk.inj h).1 (by decide)
  · exact h

theorem getSharedSecret_of_established (h : s.established = true) (out : EcdhKey) :
    orcaEcdhSessionGetSharedSecret s out = (0, s.sharedSecret) := by
  unfold orcaEcdhSessionGetSharedSecret
  rw [h]
  rfl

/-- A key that is derived is the one of its secret, salt and info. -/
theorem deriveAesKey_eq_zero {env : EcdhEnv} {secret out : EcdhKey} {salt info : Bytes}
    (h : (orcaEcdhDeriveAesKey C env secret salt info out).1 = 0) :
    (orcaEcdhDeriveAesKey C env secret salt info out).2 = C.hkdf salt secret info := by
  unfold orcaEcdhDeriveAesKey Derivation.result at h ⊢
  split at h
  · rfl
  · simp at h

/-- Two established sessions with one secret agree. -/
theorem secretsAgree_of_eq {i r : OrcaECDSession} (initiator : i.established = true)
    (responder : r.established = true) (same : i.sharedSecret = r.sharedSecret) : SecretsAgree C i r := by
  refine ⟨initiator, responder, ⟨i.sharedSecret, fun out => ?_⟩, ?_⟩
  · constructor
    · exact getSharedSecret_of_established initiator out
    · rw [same]
      exact getSharedSecret_of_established responder out
  · intro env env' salt info out out' key key' keyOut keyOut' held held' derived derived'
    rw [getSharedSecret_of_established initiator] at held
    rw [getSharedSecret_of_established responder] at held'
    obtain rfl := (Prod.mk.inj held).2
    obtain rfl := (Prod.mk.inj held').2
    rw [deriveAesKey_eq_zero derived, deriveAesKey_eq_zero derived', same]

theorem secretsAgree_of_exchange (commutes : C.Commutes) {i r : OrcaECDSession} (h : EcdhExchange C i r) :
    SecretsAgree C i r := by
  obtain ⟨initiator, responder, initiate, respond, complete⟩ := h
  obtain ⟨agreed, rfl⟩ := respond_eq_zero respond
  obtain rfl := agree_eq_zero agreed
  obtain rfl := initiate_eq_zero initiate
  obtain rfl := agree_eq_zero (complete_eq_zero complete)
  refine secretsAgree_of_eq rfl rfl ?_
  dsimp only
  rw [publicKey_of_init initiator, publicKey_of_init responder]
  exact commutes _ _

/-- Two sessions that exchanged their keys agree, and no secret is given out otherwise. -/
theorem exchanged_secrets_agree (C : EcdhCrypto) (commutes : C.Commutes) :
    (∀ i r, EcdhExchange C i r → SecretsAgree C i r) ∧
      (∀ s, RefusesWrongRole C s) ∧
      ∀ env isInitiator peer calls,
        let start := (orcaEcdhSessionInit C env isInitiator peer).2
        History.Meets (ecdhStep C) (fun s call => ¬ call.Agrees C s) start calls →
        ∀ out, orcaEcdhSessionGetSharedSecret (History.run (ecdhStep C) start calls) out = (-1, out) := by
  refine ⟨fun i r => secretsAgree_of_exchange commutes, refusesWrongRole C, ?_⟩
  intro env isInitiator peer calls start before out
  exact no_secret_before (not_established_init C env isInitiator peer) before out

/-! ## The exchange of Alice and Bob -/

/-- The private key of the first pair of known keys. -/
def alicePrivateKey : EcdhKey :=
  ⟨[0xA5, 0x46, 0xE3, 0x6B, 0xF0, 0x52, 0x7C, 0x9D, 0x3B, 0x16, 0x15, 0x4B, 0x82, 0x46, 0x5E, 0xDD,
    0x62, 0x14, 0x4C, 0x0A, 0xC1, 0xFC, 0x5A, 0x18, 0x50, 0x6A, 0x22, 0x44, 0xBA, 0x44, 0x9A, 0xC4], rfl⟩

/-- Its public key. -/
def alicePublicKey : EcdhKey :=
  ⟨[0x1C, 0x9F, 0xD8, 0x8F, 0x45, 0x60, 0x6D, 0x93, 0x2A, 0x80, 0xC7, 0x18, 0x24, 0xAE, 0x15, 0x1D,
    0x15, 0xD7, 0x3E, 0x77, 0xDE, 0x38, 0xE8, 0xE0, 0x00, 0x85, 0x2E, 0x61, 0x4F, 0xAE, 0x70, 0x19], rfl⟩

/-- The private key of the second pair. -/
def bobPrivateKey : EcdhKey :=
  ⟨[0x4B, 0x66, 0xE9, 0xD4, 0xD1, 0xB4, 0x67, 0x3C, 0x5A, 0xD2, 0x26, 0x91, 0x95, 0x7D, 0x6A, 0xF5,
    0xC1, 0x1B, 0x64, 0x21, 0xE0, 0xEA, 0x01, 0xD4, 0x2C, 0xA4, 0x16, 0x9E, 0x79, 0x18, 0xBA, 0x0D], rfl⟩

/-- Its public key. -/
def bobPublicKey : EcdhKey :=
  ⟨[0xFF, 0x63, 0xFE, 0x57, 0xBF, 0xBF, 0x43, 0xFA, 0x3F, 0x56, 0x36, 0x28, 0xB1, 0x49, 0xAF, 0x70,
    0x4D, 0x3D, 0xB6, 0x25, 0x36, 0x9C, 0x49, 0x98, 0x36, 0x50, 0x34, 0x7A, 0x6A, 0x71, 0xE0, 0x0E], rfl⟩

/-- The secret of both. -/
def aliceBobSecret : EcdhKey :=
  ⟨[0x73, 0x93, 0x11, 0xD3, 0x5D, 0x8D, 0x3C, 0x41, 0xDA, 0x40, 0x62, 0xC7, 0x99, 0xA6, 0xC7, 0x48,
    0x80, 0x8A, 0x31, 0x34, 0x3F, 0xAC, 0xAA, 0xA7, 0xAA, 0x7E, 0x31, 0x19, 0x08, 0xC1, 0x84, 0x6E], rfl⟩

/-- X25519 on the keys of Alice and Bob. -/
def EcdhCrypto.aliceBob : EcdhCrypto where
  publicKey a :=
    if a = alicePrivateKey then alicePublicKey
    else if a = bobPrivateKey then bobPublicKey
    else .zero
  x25519 a p :=
    if a = alicePrivateKey ∧ p = bobPublicKey ∨ a = bobPrivateKey ∧ p = alicePublicKey then aliceBobSecret
    else .zero
  hkdf _ _ _ := .zero
  sha256 _ := .zero

/-- Surroundings in which this key is generated and every derivation succeeds. -/
def EcdhEnv.generating (privateKey : EcdhKey) : EcdhEnv where
  now := 0
  generation := .generated privateKey
  hashFailed := some .zero
  derivation := .derived

theorem aliceBob_commutes : EcdhCrypto.aliceBob.Commutes := by
  have alice (b : EcdhKey) : EcdhCrypto.aliceBob.publicKey b = alicePublicKey ↔ b = alicePrivateKey := by
    unfold EcdhCrypto.aliceBob
    dsimp only
    split_ifs with isAlice isBob
    · exact iff_of_true rfl isAlice
    · exact iff_of_false (by decide) isAlice
    · exact iff_of_false (by decide) isAlice
  have bob (b : EcdhKey) : EcdhCrypto.aliceBob.publicKey b = bobPublicKey ↔ b = bobPrivateKey := by
    unfold EcdhCrypto.aliceBob
    dsimp only
    split_ifs with isAlice isBob
    · rw [isAlice]
      exact iff_of_false (by decide) (by decide)
    · exact iff_of_true rfl isBob
    · exact iff_of_false (by decide) isBob
  intro a b
  show (if _ then _ else _) = if _ then _ else _
  simp only [alice, bob]
  congr 1
  rw [or_comm, and_comm, @and_comm (a = _)]

/-- The sessions of Alice and Bob. -/
theorem alice_and_bob_agree :
    let C := EcdhCrypto.aliceBob
    let alice := EcdhEnv.generating alicePrivateKey
    let bob := EcdhEnv.generating bobPrivateKey
    let i := (orcaEcdhSessionInit C alice true none).2
    let r := (orcaEcdhSessionInit C bob false none).2
    SecretsAgree C (i.agree C alice bobPublicKey).2 (r.agree C bob alicePublicKey).2 ∧
      RefusesWrongRole C r ∧ orcaEcdhSessionGetSharedSecret i .zero = (-1, .zero) := by
  intro C alice bob i r
  obtain ⟨exchange, roles, before⟩ := exchanged_secrets_agree C aliceBob_commutes
  refine ⟨exchange _ _ ?_, roles r, before alice true none [] trivial .zero⟩
  exact @EcdhExchange.exchanged C alice bob bob alice none none .zero .zero alicePublicKey bobPublicKey
    i _ r _ rfl rfl rfl rfl rfl

end Orcashi
