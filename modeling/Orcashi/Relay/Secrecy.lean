import Orcashi.Relay.Data

/-!
# What a secure relay session keeps secret

A session is secure once it has drawn its secret.  `relay_send` and `relay_process_packet` ask the first
byte of the secret whether data are encrypted, `relay_recv` asks nothing.
-/

namespace Orcashi

open CMemory

/-- Every packet that `relay_send` sends carries nonce, tag and ciphertext of the data. -/
def SendsSealed (mgr : RelayManager) (peerId : CString) (s : RelaySession) : Prop :=
  ∀ (env : RelayEnv) (data : Bytes) (out : RelaySent RelayManager),
    relaySend env peerId data mgr = some out → ∀ datagram ∈ out.sent, ∃ tag ciphertext,
      env.crypto.aesGcmEncrypt data s.sharedSecret.val env.nonce = some (tag, ciphertext) ∧
        datagram = (RelayPacket.make env s relayPktData (env.nonce ++ tag ++ ciphertext)).toBytes env.heap

/-- `relay_process_packet` takes no data for plaintext. -/
def ProcessesSealed (s : RelaySession) : Prop :=
  ∀ (env : RelayEnv) (packet : RelayPacket) (n : ℕ) (payload : Bytes),
    (relayProcessPacket env packet n s).2.1 ≠ .plain payload

/-- What is behind nonce and tag in a payload of `len` bytes, decrypted. -/
def openedPayload (crypto : Crypto) (secret : Secret) (payload : Bytes) (len : ℕ) : Option Bytes :=
  if 28 ≤ len then
    crypto.aesGcmDecrypt ((payload.drop 28).take (len - 28)) secret.val (payload.take 12)
      ((payload.drop 12).take 16)
  else none

/-- What `relay_recv` hands out is decrypted. -/
def HandsOutOpened (mgr : RelayManager) (peerId : CString) (s : RelaySession) : Prop :=
  ∀ (env : RelayEnv) (maxLen : ℕ) (datagram stale : Bytes),
    (relayRecv env peerId maxLen (.datagram datagram) stale mgr).2.1 ≠ [] →
      ∃ plaintext,
        let packet := RelayPacket.ofBuffer (datagram.take relayBufferSize ++ stale)
        openedPayload env.crypto s.sharedSecret packet.payload packet.payloadLen.toNat = some plaintext ∧
          (relayRecv env peerId maxLen (.datagram datagram) stale mgr).2.1 = plaintext.take maxLen

/-- No plaintext is sent or taken in the session. -/
def NeverPlain (mgr : RelayManager) (peerId : CString) (s : RelaySession) : Prop :=
  SendsSealed mgr peerId s ∧ ProcessesSealed s ∧ HandsOutOpened mgr peerId s

/-- Surroundings in which every packet leaves. -/
def RelayEnv.sending : RelayEnv := { RelayEnv.failing with sendto := fun _ _ _ => true }

section Secure

variable {mgr : RelayManager} {peerId : CString} {c : Cursor RelaySession}

theorem encrypts_iff (secure : c.val.isSecure = true) :
    c.val.encrypts = true ↔ c.val.sharedSecret.first ≠ 0 := by
  unfold RelaySession.encrypts
  rw [secure, Bool.true_and, bne_iff_ne]

/-- The payload with which the session sends the data. -/
def RelayCarries (env : RelayEnv) (s : RelaySession) (data payload : Bytes) : Prop :=
  if s.encrypts then
    ∃ tag ciphertext, env.crypto.aesGcmEncrypt data s.sharedSecret.val env.nonce =
      some (tag, ciphertext) ∧ payload = env.nonce ++ tag ++ ciphertext
  else payload = data

/-- What `relay_send` sends leaves an established session through its socket. -/
theorem relaySend_sent (found : relayFindSession peerId mgr = some c) {env : RelayEnv} {data : Bytes}
    {out : RelaySent RelayManager} (sent : relaySend env peerId data mgr = some out) {datagram : Bytes}
    (left : datagram ∈ out.sent) :
    c.val.state = .established ∧ 0 < c.val.socketFd ∧ ∃ payload,
      datagram = (RelayPacket.make env c.val relayPktData payload).toBytes env.heap ∧
        RelayCarries env c.val data payload := by
  have packet {payload : Bytes} (sent : (relaySendPacket env relayPktData payload c.val).map (fun r =>
        (⟨r.ret, mgr.write c r.left, r.sent⟩ : RelaySent RelayManager)) = some out) :
      0 < c.val.socketFd ∧
        datagram = (RelayPacket.make env c.val relayPktData payload).toBytes env.heap := by
    rw [relaySendPacket_eq] at sent
    split_ifs at sent with socket leaves
    · cases sent
      exact ⟨socket, List.mem_singleton.1 left⟩
    · cases sent
      cases left
    · cases sent
  by_cases empty : data = []
  · unfold relaySend at sent
    rw [if_pos empty] at sent
    cases sent
    cases left
  by_cases established : c.val.state = .established
  swap
  · unfold relaySend at sent
    rw [if_neg empty, found] at sent
    dsimp only at sent
    rw [if_pos established] at sent
    cases sent
    cases left
  refine ⟨established, ?_⟩
  rw [relaySend_established found established empty] at sent
  by_cases encrypts : c.val.encrypts = true
  · rw [if_pos encrypts] at sent
    cases sealed_ : env.crypto.aesGcmEncrypt data c.val.sharedSecret.val env.nonce with
    | none =>
      rw [sealed_] at sent
      cases sent
      cases left
    | some r =>
      rw [sealed_] at sent
      obtain ⟨socket, same⟩ := packet sent
      exact ⟨socket, _, same, (if_pos encrypts).mpr ⟨r.1, r.2, sealed_, rfl⟩⟩
  · rw [if_neg encrypts] at sent
    obtain ⟨socket, same⟩ := packet sent
    exact ⟨socket, _, same, (if_neg encrypts).mpr rfl⟩

/-- `relay_send` sends plaintext exactly from an established session with a socket whose secret begins
with zero. -/
theorem sendsSealed_iff (found : relayFindSession peerId mgr = some c) (secure : c.val.isSecure = true) :
    SendsSealed mgr peerId c.val ↔
      c.val.state ≠ .established ∨ c.val.socketFd ≤ 0 ∨ c.val.sharedSecret.first ≠ 0 := by
  constructor
  · intro sends
    by_contra plain
    rw [not_or, not_or, not_not, not_not, Int.not_le] at plain
    obtain ⟨established, socket, zero⟩ := plain
    have sent : ∃ left datagram, relaySend .sending peerId [0] mgr = some ⟨0, left, [datagram]⟩ := by
      rw [relaySend_established found established (List.cons_ne_nil 0 []),
        if_neg (mt (encrypts_iff secure).1 (not_not_intro zero)), relaySendPacket_eq, if_pos socket]
      exact ⟨_, _, rfl⟩
    obtain ⟨_, _, sent⟩ := sent
    obtain ⟨tag, ciphertext, sealed_, -⟩ := sends _ _ _ sent _ (List.mem_singleton_self _)
    cases sealed_
  · intro safe env data out sent datagram left
    obtain ⟨established, socket, payload, same, carried⟩ := relaySend_sent found sent left
    have notZero : c.val.sharedSecret.first ≠ 0 := by
      rcases safe with h | h | h
      · exact absurd established h
      · exact absurd socket (Int.not_lt.2 h)
      · exact h
    rw [RelayCarries, if_pos ((encrypts_iff secure).2 notZero)] at carried
    obtain ⟨tag, ciphertext, sealed_, rfl⟩ := carried
    exact ⟨tag, ciphertext, sealed_, same⟩

/-- `relay_process_packet` takes data for plaintext exactly if the secret begins with zero. -/
theorem processesSealed_iff (secure : c.val.isSecure = true) :
    ProcessesSealed c.val ↔ c.val.sharedSecret.first ≠ 0 := by
  rw [← encrypts_iff secure]
  constructor
  · intro processes
    by_contra plain
    refine processes .failing ⟨relayMagic, relayProtocolVersion, relayPktData, 0, 0, 0, 1, [0]⟩
      relayPacketSize [0] ?_
    have plain' : ({ c.val with lastActivity := RelayEnv.failing.now } : RelaySession).encrypts ≠ true :=
      plain
    unfold relayProcessPacket
    rw [if_neg (by decide)]
    dsimp only
    rw [if_neg (by decide), if_pos (by decide), if_neg plain']
    rfl
  · intro encrypts env packet n payload plain
    have encrypts' : ({ c.val with lastActivity := env.now } : RelaySession).encrypts = true := encrypts
    unfold relayProcessPacket at plain
    dsimp only at plain
    rw [if_pos encrypts'] at plain
    split_ifs at plain
    split at plain
    · cases plain
    · cases plain

/-- `relay_recv` hands out what it received exactly in an established session. -/
theorem handsOutOpened_iff (found : relayFindSession peerId mgr = some c) :
    HandsOutOpened mgr peerId c.val ↔ c.val.state ≠ .established := by
  constructor
  · intro opens established
    have received := @relayRecv_data .failing .failing peerId mgr c found established c.val rfl [0]
      (by decide) 1 (by decide) []
    obtain ⟨plaintext, opened, -⟩ := opens .failing 1 _ []
      (by rw [received]; exact List.cons_ne_nil 0 [])
    -- one byte is too short for a seal
    have short : (RelayPacket.ofBuffer (((RelayPacket.make .failing c.val relayPktData [0]).toBytes
        RelayEnv.failing.heap).take relayBufferSize ++ [])).payloadLen = 1 := by
      rw [List.take_of_length_le (by rw [RelayPacket.length_toBytes]; exact of_decide_eq_true rfl),
        RelayPacket.ofBuffer_toBytes]
      rfl
    rw [openedPayload, short, if_neg (by decide)] at opened
    cases opened
  · intro closed env maxLen datagram stale given
    refine absurd ?_ given
    unfold relayRecv
    by_cases empty : maxLen = 0
    · rw [if_pos empty]
    · rw [if_neg empty, found]
      dsimp only
      rw [if_pos closed]

/-- A secure session never sends or takes plaintext exactly if it is not established and its secret does
not begin with zero. -/
theorem relay_never_plain_iff (found : relayFindSession peerId mgr = some c)
    (secure : c.val.isSecure = true) :
    NeverPlain mgr peerId c.val ↔
      c.val.state ≠ .established ∧ c.val.sharedSecret.first ≠ 0 := by
  unfold NeverPlain
  rw [sendsSealed_iff found secure, processesSealed_iff secure, handsOutOpened_iff found]
  tauto

end Secure

/-- A closed session whose secret does not begin with zero. -/
theorem closed_session_never_plain :
    NeverPlain ⟨[{ sessionOfAlice .one with state := .closed }], .empty, 3⟩ (ascii "alice")
      { sessionOfAlice .one with state := .closed } :=
  (@relay_never_plain_iff ⟨[{ sessionOfAlice .one with state := .closed }], .empty, 3⟩ (ascii "alice")
    ⟨[], { sessionOfAlice .one with state := .closed }, []⟩ rfl rfl).2 (by decide)

/-- A session that was just accepted is secure and takes plaintext. -/
theorem accepted_session_takes_plain :
    ∃ mgr c, relayAccept (.plainCipher .zero) (ascii "alice") none (.init .empty 3) = some (0, mgr) ∧
      relayFindSession (ascii "alice") mgr = some c ∧ c.val.isSecure = true ∧
        ¬ NeverPlain mgr (ascii "alice") c.val := by
  refine ⟨_, ⟨[], _, []⟩, rfl, rfl, rfl, ?_⟩
  rintro ⟨-, processes, -⟩
  exact processes .failing ⟨relayMagic, relayProtocolVersion, relayPktData, 0, 0, 0, 1, [0]⟩
    relayPacketSize [0] rfl

end Orcashi
