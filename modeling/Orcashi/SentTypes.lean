import Orcashi.HandshakeExchange

/-!
# What types of messages leave

`p2p_connect` sends nothing but a HANDSHAKE and `p2p_accept` nothing but a HANDSHAKE_RESPONSE.  A text
or a request that should have left with one of them would be a message of another type.
-/

namespace Orcashi

/-! ## Types -/

/-- A datagram of `send_message` shows its type. -/
theorem type_of_toBytes_make {now : Time} {t t' : P2PMessageType} {payload payload' : Bytes}
    (h : (P2PMessage.make now t payload).toBytes = (P2PMessage.make now t' payload').toBytes) :
    t = t' := by
  have same := congrArg P2PMessage.ofBuffer h
  rw [P2PMessage.ofBuffer_toBytes, P2PMessage.ofBuffer_toBytes] at same
  have code : t.code = t'.code := congrArg P2PMessage.type same
  have decoded := congrArg P2PMessageType.ofCode code
  rw [P2PMessageType.ofCode_code, P2PMessageType.ofCode_code] at decoded
  exact Option.some.inj decoded

theorem mem_datagramsTo {addr : SockAddrIn} {es : List Effect} {datagram : Bytes} :
    datagram ∈ datagramsTo addr es ↔ ∃ fd, Effect.sendto fd datagram addr ∈ es := by
  unfold datagramsTo
  rw [List.mem_filterMap]
  constructor
  · rintro ⟨e, there, taken⟩
    split at taken
    · split_ifs at taken with here
      cases taken
      exact ⟨_, here ▸ there⟩
    · cases taken
  · rintro ⟨fd, there⟩
    exact ⟨_, there, if_pos rfl⟩

/-! ## Histories -/

/-- The history is extended, and what leaves on the way are messages of the type. -/
def SendsOnly (env : Env) (type : P2PMessageType) (sh sh' : Shared) : Prop :=
  ∃ es, sh'.trace = sh.trace ++ es ∧
    ∀ fd datagram addr, Effect.sendto fd datagram addr ∈ es →
      ∃ payload, datagram = (P2PMessage.make env.now type payload).toBytes

namespace SendsOnly

variable {env : Env} {type : P2PMessageType} {a b c : Shared}

theorem of_trace (same : b.trace = a.trace) : SendsOnly env type a b :=
  ⟨[], by rw [same, List.append_nil], by simp⟩

theorem trans (hab : SendsOnly env type a b) (hbc : SendsOnly env type b c) :
    SendsOnly env type a c := by
  obtain ⟨es, extended, sends⟩ := hab
  obtain ⟨fs, extended', sends'⟩ := hbc
  refine ⟨es ++ fs, by rw [extended', extended, List.append_assoc], ?_⟩
  intro fd datagram addr there
  rcases List.mem_append.1 there with first | second
  · exact sends fd datagram addr first
  · exact sends' fd datagram addr second

/-- An effect that is no send may come in between. -/
theorem record (h : SendsOnly env type a b) {es : List Effect}
    (silent : ∀ fd datagram addr, Effect.sendto fd datagram addr ∉ es) :
    SendsOnly env type a (b.record es) :=
  h.trans ⟨es, rfl, fun fd datagram addr there => absurd there (silent fd datagram addr)⟩

/-- A message of another type is not among what left. -/
theorem not_mem {before after : Node} (h : SendsOnly env type before.shared after.shared)
    {other : P2PMessageType} (different : other ≠ type) (payload : Bytes) (addr : SockAddrIn) :
    (P2PMessage.make env.now other payload).toBytes ∉ datagramsTo addr (news before after) := by
  obtain ⟨es, extended, sends⟩ := h
  unfold news
  rw [extended, List.drop_left, mem_datagramsTo]
  rintro ⟨fd, there⟩
  obtain ⟨payload', same⟩ := sends fd _ addr there
  exact different (type_of_toBytes_make same)

end SendsOnly

/-! ## Calls -/

variable (env : Env)

theorem sendMessage_sendsOnly (peer : P2PPeer) (type : P2PMessageType) (payload : Bytes) (sh : Shared) :
    SendsOnly env type sh (sendMessage env peer type payload sh).shared := by
  rcases sendMessage_cases env peer type payload sh with h | ⟨-, h⟩ <;> rw [h]
  · exact .of_trace rfl
  · refine ⟨_, rfl, fun fd datagram addr there => ?_⟩
    rcases List.mem_cons.1 there with sent | noted
    · cases sent
      exact ⟨payload, rfl⟩
    · cases List.mem_singleton.1 noted

theorem sendHandshake_sendsOnly (peer : P2PPeer) (sh : Shared) :
    SendsOnly env .handshake sh (sendHandshake env peer sh).shared := by
  unfold sendHandshake
  cases env.identity with
  | none => exact .of_trace rfl
  | some identity =>
    dsimp only
    cases env.crypto.rsaSignString
      (handshakeData identity.id identity.name identity.publicKey env.now)
      identity.privateKeyEncrypted with
    | none => exact .of_trace rfl
    | some signature => exact sendMessage_sendsOnly env peer .handshake _ sh

theorem connectPeer_sendsOnly (ip : IpText) (port : ℤ) (peer : P2PPeer) (sh : Shared) :
    SendsOnly env .handshake sh (connectPeer env ip port peer sh).shared := by
  have start : SendsOnly env .handshake sh sh := .of_trace rfl
  unfold connectPeer abandonConnect
  dsimp only
  split_ifs
  · exact start.record (by simp)
  · exact (start.record (by simp)).record (by simp)
  · exact ((start.record (by simp)).trans (sendHandshake_sendsOnly env _ _)).record (by simp)
  · exact (start.record (by simp)).trans (sendHandshake_sendsOnly env _ _)

theorem p2pConnect_sendsOnly (peerId : CString) (node : Node) :
    SendsOnly env .handshake node.shared (p2pConnect env peerId node).2.shared := by
  unfold p2pConnect
  split_ifs
  · exact .of_trace rfl
  · exact .of_trace rfl
  cases env.dhtNodeLookup.bind fun lookup => lookup (normalizeId peerId) with
  | none => exact .of_trace rfl
  | some place =>
    dsimp only
    cases added : addPeer env peerId node.peers node.shared with
    | none => exact .of_trace rfl
    | some r =>
      have made : SendsOnly env .handshake node.shared r.2 := by
        rcases addPeer_cases added with ⟨-, same⟩ | ⟨-, -, same⟩ <;> rw [same]
        · exact .of_trace rfl
        · exact SendsOnly.record (.of_trace rfl) (by simp)
      exact made.trans (connectPeer_sendsOnly env _ _ _ _)

theorem establishSecureChannel_sendsOnly (peer : P2PPeer) (sh : Shared) :
    SendsOnly env .handshakeResponse sh (establishSecureChannel env peer sh).shared := by
  unfold establishSecureChannel
  rcases generateSessionKeys_cases env peer sh with ⟨-, h⟩ | ⟨sharedSecret, aesKey, -, h⟩ <;> rw [h]
  · exact .of_trace rfl
  · have keyed : SendsOnly env .handshakeResponse sh (sh.record [.keyed peer.id aesKey]) :=
      SendsOnly.record (.of_trace rfl) (by simp)
    dsimp only
    rw [if_neg (by decide)]
    exact keyed.trans (sendMessage_sendsOnly env _ .handshakeResponse _ _)

theorem acceptPeer_sendsOnly (peer : P2PPeer) (sh : Shared) :
    SendsOnly env .handshakeResponse sh (acceptPeer env peer sh).shared := by
  have channel := establishSecureChannel_sendsOnly env peer sh
  unfold acceptPeer
  dsimp only
  split_ifs
  · exact .of_trace rfl
  · exact channel
  · exact channel.trans (.of_trace rfl)

theorem p2pAccept_sendsOnly (peerId : CString) (node : Node) :
    SendsOnly env .handshakeResponse node.shared (p2pAccept env peerId node).2.shared := by
  unfold p2pAccept
  cases findPeer peerId node.peers with
  | none => exact .of_trace rfl
  | some c => exact acceptPeer_sendsOnly env c.val node.shared

end Orcashi
