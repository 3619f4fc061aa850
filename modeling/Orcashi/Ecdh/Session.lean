import Orcashi.PeerId

/-!
# ECDH sessions

A session has a key pair of its own, the public key of its peer and the secret that both give.  The
initiator sends its public key (`orca_ecdh_session_initiate`), the responder computes the secret from it
and answers with its own (`respond`), and with that one the initiator computes the secret (`complete`).

Every key is 32 bytes.  A buffer that a function may write is passed with what is in it, and comes back
with what is in it then.
-/

namespace Orcashi

open CMemory

/-- Private keys and secrets have the same length. -/
def orcaEcdhPublicKeyLen : ℕ := 32

/-- A key or a secret. -/
abbrev EcdhKey := { b : Bytes // b.length = orcaEcdhPublicKeyLen }

/-- What `memset` leaves. -/
def EcdhKey.zero : EcdhKey := ⟨List.replicate orcaEcdhPublicKeyLen 0, List.length_replicate⟩

/-- `OrcaECDHKeypair` -/
structure OrcaECDHKeypair where
  publicKey : EcdhKey
  privateKey : EcdhKey
  deriving DecidableEq

/-! ## OpenSSL -/

/-- The functions that OpenSSL computes. -/
structure EcdhCrypto where
  /-- the public key of a private key -/
  publicKey : EcdhKey → EcdhKey
  /-- X25519 of a private key and the public key of a peer -/
  x25519 : EcdhKey → EcdhKey → EcdhKey
  /-- HKDF-SHA256 of a salt, a key and an info, 32 bytes long; an argument that is not set is empty -/
  hkdf : Bytes → EcdhKey → Bytes → EcdhKey
  sha256 : EcdhKey → EcdhKey

/-- What `EVP_PKEY_keygen` and the two extractions come to. -/
inductive KeyGeneration where
  | failed
  /-- the public key of this private key is extracted, itself it is not -/
  | publicOnly (privateKey : EcdhKey)
  | generated (privateKey : EcdhKey)

/-- What the calls behind a derivation come to.  Where it fails they may have left something in the
buffer: OpenSSL refuses a secret of zeros after it has written it. -/
inductive Derivation where
  | derived
  | failed (left : Option EcdhKey)

/-- What one call asks of its surroundings. -/
structure EcdhEnv where
  /-- `time(NULL)` -/
  now : Time
  generation : KeyGeneration
  /-- what `hash` has in it where `orca_hash` fails -/
  hashFailed : Option EcdhKey
  derivation : Derivation

/-- `orca_ecdh_generate_keypair` and `orca_ecdh_generate_ephemeral`. -/
def orcaEcdhGenerateKeypair (C : EcdhCrypto) (env : EcdhEnv) (keypair : OrcaECDHKeypair) :
    ℤ × OrcaECDHKeypair :=
  match env.generation with
  | .failed => (-1, keypair)
  | .publicOnly privateKey => (-1, { keypair with publicKey := C.publicKey privateKey })
  | .generated privateKey => (0, ⟨C.publicKey privateKey, privateKey⟩)

/-- What a derivation of `key` returns and leaves in its buffer. -/
def Derivation.result (d : Derivation) (key buffer : EcdhKey) : ℤ × EcdhKey :=
  match d with
  | .derived => (0, key)
  | .failed left => (-1, left.getD buffer)

/-- `orca_ecdh_compute_shared_secret` -/
def orcaEcdhComputeSharedSecret (C : EcdhCrypto) (env : EcdhEnv) (privateKey peerPublicKey : EcdhKey)
    (sharedSecretOut : EcdhKey) : ℤ × EcdhKey :=
  env.derivation.result (C.x25519 privateKey peerPublicKey) sharedSecretOut

/-- `orca_ecdh_compute_shared_secret_keypair` -/
def orcaEcdhComputeSharedSecretKeypair (C : EcdhCrypto) (env : EcdhEnv) (keypair : OrcaECDHKeypair)
    (peerPublicKey sharedSecretOut : EcdhKey) : ℤ × EcdhKey :=
  orcaEcdhComputeSharedSecret C env keypair.privateKey peerPublicKey sharedSecretOut

/-- `orca_ecdh_derive_aes_key` -/
def orcaEcdhDeriveAesKey (C : EcdhCrypto) (env : EcdhEnv) (sharedSecret : EcdhKey) (salt info : Bytes)
    (aesKeyOut : EcdhKey) : ℤ × EcdhKey :=
  env.derivation.result (C.hkdf salt sharedSecret info) aesKeyOut

/-! ## Sessions -/

/-- `OrcaECDSession` -/
structure OrcaECDSession where
  sessionId : EcdhKey
  sharedSecret : EcdhKey
  ephemeralKeypair : OrcaECDHKeypair
  peerPublicKey : EcdhKey
  createdAt : Time
  expiresAt : Time
  isInitiator : Bool
  established : Bool
  deriving DecidableEq

/-- `memset(session, 0, sizeof(OrcaECDSession))` -/
def OrcaECDSession.zero : OrcaECDSession where
  sessionId := .zero
  sharedSecret := .zero
  ephemeralKeypair := ⟨.zero, .zero⟩
  peerPublicKey := .zero
  createdAt := 0
  expiresAt := 0
  isInitiator := false
  established := false

/-- `orca_ecdh_session_init` -/
def orcaEcdhSessionInit (C : EcdhCrypto) (env : EcdhEnv) (isInitiator : Bool)
    (peerPublicKey : Option EcdhKey) : ℤ × OrcaECDSession :=
  let s : OrcaECDSession :=
    { OrcaECDSession.zero with
      isInitiator := isInitiator
      createdAt := env.now
      expiresAt := env.now + 3600 }
  let (ret, keypair) := orcaEcdhGenerateKeypair C env s.ephemeralKeypair
  let s := { s with ephemeralKeypair := keypair }
  if ret < 0 then (-1, s)
  else
    let s := { s with peerPublicKey := peerPublicKey.getD s.peerPublicKey }
    (0, { s with sessionId := env.hashFailed.getD (C.sha256 s.ephemeralKeypair.publicKey) })

/-- The session is not written. -/
def orcaEcdhSessionInitiate (s : OrcaECDSession) (publicKeyOut : EcdhKey) : ℤ × EcdhKey :=
  if !s.isInitiator then (-1, publicKeyOut) else (0, s.ephemeralKeypair.publicKey)

/-- What `respond` and `complete` both do with the key of the peer. -/
def OrcaECDSession.agree (C : EcdhCrypto) (env : EcdhEnv) (peerPublicKey : EcdhKey)
    (s : OrcaECDSession) : ℤ × OrcaECDSession :=
  let s := { s with peerPublicKey := peerPublicKey }
  let (ret, secret) :=
    orcaEcdhComputeSharedSecretKeypair C env s.ephemeralKeypair peerPublicKey s.sharedSecret
  let s := { s with sharedSecret := secret }
  if ret < 0 then (-1, s) else (0, { s with established := true })

/-- `orca_ecdh_session_respond`, with the array for the public key. -/
def orcaEcdhSessionRespond (C : EcdhCrypto) (env : EcdhEnv) (peerPublicKey : EcdhKey)
    (s : OrcaECDSession) (publicKeyOut : EcdhKey) : ℤ × OrcaECDSession × EcdhKey :=
  if s.isInitiator then (-1, s, publicKeyOut)
  else
    let (ret, s) := s.agree C env peerPublicKey
    if ret < 0 then (-1, s, publicKeyOut) else (0, s, s.ephemeralKeypair.publicKey)

/-- `orca_ecdh_session_complete` -/
def orcaEcdhSessionComplete (C : EcdhCrypto) (env : EcdhEnv) (peerPublicKey : EcdhKey)
    (s : OrcaECDSession) : ℤ × OrcaECDSession :=
  if !s.isInitiator then (-1, s) else s.agree C env peerPublicKey

/-- `orca_ecdh_session_get_shared_secret`, with the array for the secret. -/
def orcaEcdhSessionGetSharedSecret (s : OrcaECDSession) (secretOut : EcdhKey) : ℤ × EcdhKey :=
  if !s.established then (-1, secretOut) else (0, s.sharedSecret)

/-! ## What a call does -/

section Agree

variable {C : EcdhCrypto} {env : EcdhEnv} {peer out : EcdhKey} {s : OrcaECDSession}

theorem agree_derived (derived : env.derivation = .derived) :
    s.agree C env peer = (0, { s with
      peerPublicKey := peer
      sharedSecret := C.x25519 s.ephemeralKeypair.privateKey peer
      established := true }) := by
  unfold OrcaECDSession.agree orcaEcdhComputeSharedSecretKeypair orcaEcdhComputeSharedSecret
  rw [derived]
  rfl

/-- The key of the peer is stored before the derivation, and stays where this fails. -/
theorem agree_failed {left : Option EcdhKey} (failed : env.derivation = .failed left) :
    s.agree C env peer = (-1, { s with
      peerPublicKey := peer
      sharedSecret := left.getD s.sharedSecret }) := by
  unfold OrcaECDSession.agree orcaEcdhComputeSharedSecretKeypair orcaEcdhComputeSharedSecret
  rw [failed]
  rfl

/-- Where the key of the peer is agreed on, the secret is that of both keys. -/
theorem agree_eq_zero {s' : OrcaECDSession} (h : s.agree C env peer = (0, s')) :
    s' = { s with
      peerPublicKey := peer
      sharedSecret := C.x25519 s.ephemeralKeypair.privateKey peer
      established := true } := by
  cases derivation : env.derivation with
  | derived =>
    rw [agree_derived derivation] at h
    exact (Prod.mk.inj h).2.symm
  | failed left =>
    rw [agree_failed derivation] at h
    exact absurd (Prod.mk.inj h).1 (by decide)

theorem agree_eq_or (C : EcdhCrypto) (env : EcdhEnv) (peer : EcdhKey) (s : OrcaECDSession) :
    (s.agree C env peer).1 = 0 ∨ (s.agree C env peer).1 = -1 := by
  cases derivation : env.derivation with
  | derived => exact Or.inl (congrArg Prod.fst (agree_derived derivation))
  | failed left => exact Or.inr (congrArg Prod.fst (agree_failed derivation))

theorem respond_of_responder (responder : s.isInitiator = false) :
    (orcaEcdhSessionRespond C env peer s out).1 = (s.agree C env peer).1 ∧
      (orcaEcdhSessionRespond C env peer s out).2.1 = (s.agree C env peer).2 := by
  unfold orcaEcdhSessionRespond
  rw [responder]
  rcases agree_eq_or C env peer s with ret | ret
  · dsimp only
    rw [ret]
    exact ⟨rfl, rfl⟩
  · dsimp only
    rw [ret]
    exact ⟨rfl, rfl⟩

end Agree

/-! ## Calls on a session -/

/-- A call on a session after its `init`. -/
inductive EcdhCall where
  | initiate (publicKeyOut : EcdhKey)
  | respond (env : EcdhEnv) (peerPublicKey publicKeyOut : EcdhKey)
  | complete (env : EcdhEnv) (peerPublicKey : EcdhKey)

/-- What it returns, and the session after it. -/
def EcdhCall.result (C : EcdhCrypto) (s : OrcaECDSession) : EcdhCall → ℤ × OrcaECDSession
  | .initiate publicKeyOut => ((orcaEcdhSessionInitiate s publicKeyOut).1, s)
  | .respond env peer publicKeyOut =>
    let (ret, s, _) := orcaEcdhSessionRespond C env peer s publicKeyOut
    (ret, s)
  | .complete env peer => orcaEcdhSessionComplete C env peer s

/-- The session after a call. -/
def ecdhStep (C : EcdhCrypto) (s : OrcaECDSession) (call : EcdhCall) : OrcaECDSession := (call.result C s).2

/-- The surroundings and the key with which a call comes to the derivation. -/
def EcdhCall.derives (s : OrcaECDSession) : EcdhCall → Option (EcdhEnv × EcdhKey)
  | .initiate _ => none
  | .respond env peer _ => if s.isInitiator then none else some (env, peer)
  | .complete env peer => if s.isInitiator then some (env, peer) else none

/-- A call that comes to no derivation leaves the session. -/
theorem ecdhStep_of_derives_none {C : EcdhCrypto} {s : OrcaECDSession} {call : EcdhCall}
    (h : call.derives s = none) : ecdhStep C s call = s := by
  cases call with
  | initiate publicKeyOut => rfl
  | respond env peer out =>
    cases role : s.isInitiator with
    | false => simp [EcdhCall.derives, role] at h
    | true => simp [ecdhStep, EcdhCall.result, orcaEcdhSessionRespond, role]
  | complete env peer =>
    cases role : s.isInitiator with
    | false => simp [ecdhStep, EcdhCall.result, orcaEcdhSessionComplete, role]
    | true => simp [EcdhCall.derives, role] at h

theorem result_of_derives {C : EcdhCrypto} {s : OrcaECDSession} {call : EcdhCall} {env : EcdhEnv}
    {peer : EcdhKey} (h : call.derives s = some (env, peer)) : call.result C s = s.agree C env peer := by
  cases call with
  | initiate publicKeyOut => cases h
  | respond env' peer' out =>
    cases role : s.isInitiator with
    | false =>
      simp only [EcdhCall.derives, role, Bool.false_eq_true, if_false, Option.some.injEq, Prod.mk.injEq] at h
      obtain ⟨rfl, rfl⟩ := h
      obtain ⟨ret, after⟩ := @respond_of_responder C env' peer' out s role
      exact Prod.ext ret after
    | true => simp [EcdhCall.derives, role] at h
  | complete env' peer' =>
    cases role : s.isInitiator with
    | false => simp [EcdhCall.derives, role] at h
    | true =>
      simp only [EcdhCall.derives, role, if_true, Option.some.injEq, Prod.mk.injEq] at h
      obtain ⟨rfl, rfl⟩ := h
      unfold EcdhCall.result orcaEcdhSessionComplete
      rw [role]
      rfl

/-- What a call does: nothing to the session, or what the derivation comes to. -/
theorem ecdhCall_cases (C : EcdhCrypto) (s : OrcaECDSession) (call : EcdhCall) :
    call.derives s = none ∧ ecdhStep C s call = s ∨
      ∃ env peer, call.derives s = some (env, peer) ∧ call.result C s = s.agree C env peer := by
  cases h : call.derives s with
  | none => exact Or.inl ⟨rfl, ecdhStep_of_derives_none h⟩
  | some d => exact Or.inr ⟨d.1, d.2, rfl, result_of_derives h⟩

end Orcashi
