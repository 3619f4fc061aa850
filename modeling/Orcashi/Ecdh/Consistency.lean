import Orcashi.Ecdh.Agreement

/-!
# The secret and the key of the peer

The secret of an established session is that of its private key and the stored key of the peer.  `respond`
and `complete` store the key of the peer before they derive the secret, and return without undoing this
when the derivation fails; what was established before stays established.
-/

namespace Orcashi

open CMemory

variable {C : EcdhCrypto} {s : OrcaECDSession} {call : EcdhCall}

/-! ## What is asked for -/

/-- The secret of an established session is that of the key it stores. -/
def SecretCurrent (C : EcdhCrypto) (s : OrcaECDSession) : Prop :=
  s.established = true → s.sharedSecret = C.x25519 s.ephemeralKeypair.privateKey s.peerPublicKey

/-- What a call that fails leaves as it was. -/
structure SameAgreement (s s' : OrcaECDSession) : Prop where
  established : s'.established = s.established
  peerPublicKey : s'.peerPublicKey = s.peerPublicKey
  sharedSecret : s'.sharedSecret = s.sharedSecret

/-- The session after a call is consistent, and a call that fails leaves what was agreed on. -/
structure CallConsistent (C : EcdhCrypto) (s : OrcaECDSession) (call : EcdhCall) : Prop where
  current : SecretCurrent C (ecdhStep C s call)
  failed : (call.result C s).1 = -1 → SameAgreement s (ecdhStep C s call)

/-- Where a call comes to a derivation that fails, the key it was given is stored already and the derivation
leaves the secret in the buffer as it is. -/
def FailsHarmlessly (s : OrcaECDSession) (call : EcdhCall) : Prop :=
  ∀ env peer left, call.derives s = some (env, peer) → env.derivation = .failed left →
    peer = s.peerPublicKey ∧ left.getD s.sharedSecret = s.sharedSecret

/-! ## One call -/

theorem secretCurrent_init (C : EcdhCrypto) (env : EcdhEnv) (isInitiator : Bool) (peer : Option EcdhKey) :
    SecretCurrent C (orcaEcdhSessionInit C env isInitiator peer).2 := by
  intro established
  rw [not_established_init] at established
  cases established

/-- A call is consistent exactly if it fails harmlessly. -/
theorem callConsistent_iff (current : SecretCurrent C s) : CallConsistent C s call ↔ FailsHarmlessly s call := by
  rcases ecdhCall_cases C s call with ⟨derives, same⟩ | ⟨env, peer, derives, result⟩
  · refine iff_of_true ⟨?_, fun _ => ?_⟩ ?_
    · rw [same]
      exact current
    · rw [same]
      exact ⟨rfl, rfl, rfl⟩
    · intro env peer left derives'
      rw [derives] at derives'
      cases derives'
  · have after : ecdhStep C s call = (s.agree C env peer).2 := congrArg Prod.snd result
    cases derivation : env.derivation with
    | derived =>
      rw [agree_derived derivation] at after result
      refine iff_of_true ⟨?_, fun ret => ?_⟩ ?_
      · rw [after]
        exact fun _ => rfl
      · rw [result] at ret
        simp at ret
      · intro env' peer' left derives' derivation'
        rw [derives] at derives'
        obtain ⟨rfl, rfl⟩ := Prod.mk.inj (Option.some.inj derives')
        rw [derivation] at derivation'
        cases derivation'
    | failed left =>
      rw [agree_failed derivation] at after result
      constructor
      · intro consistent env' peer' left' derives' derivation'
        rw [derives] at derives'
        obtain ⟨rfl, rfl⟩ := Prod.mk.inj (Option.some.inj derives')
        rw [derivation] at derivation'
        cases derivation'
        have kept := consistent.failed (by rw [result])
        rw [after] at kept
        exact ⟨kept.peerPublicKey, kept.sharedSecret⟩
      · intro harmless
        obtain ⟨stored, kept⟩ := harmless env peer left derives derivation
        refine ⟨?_, fun _ => ?_⟩
        · rw [after]
          intro established
          dsimp only
          rw [kept, stored]
          exact current established
        · rw [after]
          exact ⟨rfl, stored, kept⟩

/-! ## Every run -/

/-- Every call of a run is consistent exactly if every call that fails does so harmlessly. -/
theorem session_consistent_iff (C : EcdhCrypto) (env : EcdhEnv) (isInitiator : Bool) (peer : Option EcdhKey)
    (calls : List EcdhCall) :
    let start := (orcaEcdhSessionInit C env isInitiator peer).2
    SecretCurrent C start ∧ History.Meets (ecdhStep C) (CallConsistent C) start calls ↔
      History.Meets (ecdhStep C) FailsHarmlessly start calls := by
  intro start
  have current := secretCurrent_init C env isInitiator peer
  rw [and_iff_right current]
  exact History.meets_iff_of_invariant (SecretCurrent C) (fun _ => True)
    (fun s call current _ => callConsistent_iff current) (fun s call _ _ consistent => consistent.current)
    current fun _ _ => trivial

/-- Bob, who has a secret with Alice, is given the key 0, which OpenSSL refuses after it has written the
secret of zeros; or the derivation fails before, for want of memory. -/
theorem zero_key_stored :
    let C := EcdhCrypto.aliceBob
    let env := EcdhEnv.generating bobPrivateKey
    let bob := (orcaEcdhSessionInit C env false none).2
    let s := ecdhStep C bob (.respond env alicePublicKey .zero)
    let refused := { env with derivation := .failed (some .zero) }
    let early := { env with derivation := .failed none }
    s.sharedSecret = aliceBobSecret ∧ ¬ CallConsistent C s (.respond refused .zero .zero) ∧
      ¬ SecretCurrent C (ecdhStep C s (.respond early .zero .zero)) := by
  intro C env bob s refused early
  refine ⟨by decide, fun consistent => ?_, fun current => ?_⟩
  · have kept := (consistent.failed rfl).peerPublicKey
    exact absurd kept (by decide)
  · exact absurd (current rfl) (by decide)

end Orcashi
