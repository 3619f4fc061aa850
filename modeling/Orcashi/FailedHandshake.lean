import Orcashi.ReceiveGate

/-!
# Handshakes that fail

A HANDSHAKE that ends with -1 should leave every record as it was.  What is written before the
failure is the public key, the secure flag and the session keys of a record whose signature
verifies, and, for an unknown address, the address, the socket and the state of the record the
payload names.
-/

namespace Orcashi

open CMemory

/-! ## An unknown address -/

/-- The listener stores its NUL over the separator `handle_handshake` looks for, so a handshake from
an unknown address always fails there. -/
theorem handleHandshake_after_split {env : Env} {peer : P2PPeer} {msg : P2PMessage} {sh : Shared}
    {bar : ℕ} (split : strchr msg.payload 0 separator = some bar) :
    handleHandshake env peer { msg with payload := msg.payload.set bar 0 } sh =
      ⟨-1, peer, sh.record [loadField (msg.payload.set bar 0) 0]⟩ := by
  have gone : strchr (msg.payload.set bar 0) 0 separator = none :=
    strchr_set_eq_none split (by decide)
  unfold handleHandshake
  dsimp only
  rw [gone]

/-- What `process_message` does with that handshake: at most one search for the separator. -/
theorem processMessage_after_split (env : Env) (peer : P2PPeer) {msg : P2PMessage} (n : ℕ)
    (sh : Shared) {bar : ℕ} (type : msg.type = P2PMessageType.handshake.code)
    (split : strchr msg.payload 0 separator = some bar) :
    processMessage env peer { msg with payload := msg.payload.set bar 0 } n sh = ⟨-1, peer, sh⟩ ∨
      processMessage env peer { msg with payload := msg.payload.set bar 0 } n sh =
        ⟨-1, peer, sh.record [loadField (msg.payload.set bar 0) 0]⟩ := by
  have cut : ({ msg with payload := msg.payload.set bar 0 } : P2PMessage).type =
      P2PMessageType.handshake.code := type
  rcases processMessage_handshake cut env peer n sh with h | h <;> rw [h]
  · exact Or.inl rfl
  · exact Or.inr (handleHandshake_after_split split)

/-- What the listener does with a HANDSHAKE from an unknown address: nothing, or it rewrites the
record under the pointer of `add_peer`. -/
theorem listenerHandshake_cases (env : Env) (sender : SockAddrIn) {msg : P2PMessage} (n : ℕ)
    (node : Node) (type : msg.type = P2PMessageType.handshake.code) :
    ((listenerHandshake env sender msg n node).1 = none ∧
      (listenerHandshake env sender msg n node).2.peers = node.peers) ∨
    ((listenerHandshake env sender msg n node).1 = some (-1) ∧
      ∃ bar c sh sh', strchr msg.payload 0 separator = some bar ∧
        addPeer env (strAt (msg.payload.set bar 0) 0) node.peers sh = some (c, sh') ∧
        (listenerHandshake env sender msg n node).2.peers =
          (c.set (handshakeFrom env sender c.val)).toList) := by
  unfold listenerHandshake
  cases split : strchr msg.payload 0 separator with
  | none => exact Or.inl ⟨rfl, rfl⟩
  | some bar =>
    dsimp only
    cases added : addPeer env (strAt (msg.payload.set bar 0) 0) node.peers
        ((node.shared.record [loadField msg.payload 0]).record
          [.store bar, loadStr (msg.payload.set bar 0) 0]) with
    | none => exact Or.inl ⟨rfl, rfl⟩
    | some r =>
      obtain ⟨c, sh⟩ := r
      dsimp only
      -- the separator is gone, so the handler finds the fields of no handshake
      have fails : ∃ sh', processMessage env (handshakeFrom env sender c.val)
          { msg with payload := msg.payload.set bar 0 } n
          (sh.record [.copy inetAddrStrLen sender.ip.val.length]) =
            ⟨-1, handshakeFrom env sender c.val, sh'⟩ := by
        rcases processMessage_after_split env (handshakeFrom env sender c.val) n
          (sh.record [.copy inetAddrStrLen sender.ip.val.length]) type split with h | h
        · exact ⟨_, h⟩
        · exact ⟨_, h⟩
      obtain ⟨sh', hfail⟩ := fails
      rw [hfail]
      exact Or.inr ⟨rfl, bar, c, _, sh, rfl, added, rfl⟩

/-- A record that is rewritten for an unknown address was not the record of that address. -/
theorem handshakeFrom_ne {env : Env} {sender : SockAddrIn} {peers : List P2PPeer} {peer : P2PPeer}
    (unknown : findAddr sender peers = none) (hp : peer ∈ peers) :
    handshakeFrom env sender peer ≠ peer := by
  intro h
  have hport : sender.port = peer.port := congrArg P2PPeer.port h
  have hip : sender.ip = peer.ip := congrArg P2PPeer.ip h
  have := Cursor.find_eq_none_iff.1 unknown peer hp
  simp [hport, hip] at this

/-! ## A known address -/

/-- The handshake of a known peer writes nothing into its record that is not there already: the
signature does not verify, or the record is secure with the same public key and no other session
keys are generated. -/
def WritesNothing (env : Env) (peer : P2PPeer) (msg : P2PMessage) : Prop :=
  ∀ id pubkey signature identity,
    handshakeFields msg.payload = some (id, pubkey, signature) → env.identity = some identity →
    env.crypto.rsaVerifyString (handshakeData id identity.name identity.publicKey env.now)
      signature pubkey = true →
    peer.isSecure = true ∧ peer.publicKey = pubkey ∧
      ∀ keys, sessionKeys env pubkey = some keys → keys = (peer.sharedSecret, peer.aesKey)

theorem secured_eq_self_iff (peer : P2PPeer) (pubkey : CString) :
    { peer with publicKey := pubkey, isSecure := true } = peer ↔
      peer.isSecure = true ∧ peer.publicKey = pubkey := by
  constructor
  · intro h
    exact ⟨(congrArg P2PPeer.isSecure h).symm, (congrArg P2PPeer.publicKey h).symm⟩
  · rintro ⟨hsec, rfl⟩
    rw [← hsec]

theorem keyed_eq_self_iff (peer : P2PPeer) (pubkey : CString) (sharedSecret aesKey : Bytes) :
    { peer with
        publicKey := pubkey, isSecure := true, sharedSecret := sharedSecret, aesKey := aesKey } =
      peer ↔
    peer.isSecure = true ∧ peer.publicKey = pubkey ∧
      (sharedSecret, aesKey) = (peer.sharedSecret, peer.aesKey) := by
  constructor
  · intro h
    refine ⟨(congrArg P2PPeer.isSecure h).symm, (congrArg P2PPeer.publicKey h).symm, ?_⟩
    exact Prod.ext (congrArg P2PPeer.sharedSecret h) (congrArg P2PPeer.aesKey h)
  · rintro ⟨hsec, rfl, hkeys⟩
    obtain ⟨rfl, rfl⟩ := Prod.mk.inj hkeys
    rw [← hsec]

theorem handleHandshake_keeps_iff {env : Env} {peer : P2PPeer} {msg : P2PMessage} {sh : Shared}
    (fails : (handleHandshake env peer msg sh).ret = -1) :
    (handleHandshake env peer msg sh).peer = peer ↔ WritesNothing env peer msg := by
  obtain ⟨es, -, ⟨parse, h⟩ | ⟨id, pubkey, signature, identity, parse, load, h⟩⟩ :=
    handleHandshake_cases env peer msg sh
  · rw [h]
    refine iff_of_true rfl ?_
    intro id pubkey signature identity fields loaded
    rcases parse with parse | parse
    · rw [parse] at fields
      cases fields
    · rw [parse] at loaded
      cases loaded
  · have only : WritesNothing env peer msg ↔
        (env.crypto.rsaVerifyString (handshakeData id identity.name identity.publicKey env.now)
            signature pubkey = true →
          peer.isSecure = true ∧ peer.publicKey = pubkey ∧
            ∀ keys, sessionKeys env pubkey = some keys →
              keys = (peer.sharedSecret, peer.aesKey)) := by
      constructor
      · intro hw
        exact hw id pubkey signature identity parse load
      · intro hw id' pubkey' signature' identity' fields loaded
        rw [parse] at fields
        rw [load] at loaded
        obtain ⟨rfl, rfl, rfl⟩ : id = id' ∧ pubkey = pubkey' ∧ signature = signature' := by
          simpa using fields
        obtain rfl := Option.some.inj loaded
        exact hw
    rw [only]
    rw [h] at fails ⊢
    rcases acceptHandshake_cases env peer identity id pubkey signature (sh.record es) with
      ⟨hv, h⟩ | ⟨hv, ⟨hk, h⟩ | ⟨sharedSecret, aesKey, hk, h | ⟨datagram, h⟩⟩⟩ <;>
      rw [h] at fails ⊢ <;> rw [hv]
    · simp
    · simp only [secured_eq_self_iff, hk, reduceCtorEq, false_implies, implies_true, and_true,
        true_implies]
    · simp only [keyed_eq_self_iff, hk, Option.some.injEq, forall_eq', true_implies]
    · exact absurd fails (show ¬ (0 : ℤ) = -1 by decide)

/-! ## Failed handshakes -/

/-- What a failing handshake has to be so that it leaves the records alone: from a known address it
writes nothing new, and from an unknown one it names no record. -/
def Harmless (env : Env) (sender : SockAddrIn) (msg : P2PMessage) (node : Node) : Prop :=
  match findAddr sender node.peers with
  | some c => WritesNothing env c.val msg
  | none =>
    ∀ bar, strchr msg.payload 0 separator = some bar →
      findPeer (strAt (msg.payload.set bar 0) 0) node.peers = none

/-- A handshake that `handle_handshake` refuses leaves every record that was there as it was exactly
if it is harmless. -/
theorem handshake_refused_iff {env : Env} {sender : SockAddrIn} {buffer : Bytes} {n : ℕ}
    {node : Node} (type : (P2PMessage.ofBuffer buffer).type = P2PMessageType.handshake.code)
    (version : (P2PMessage.ofBuffer buffer).version = p2pProtocolVersion)
    (refused : (listenerReceive env sender buffer n node).1 = some (-1)) :
    node.peers <+: (listenerReceive env sender buffer n node).2.peers ↔
      Harmless env sender (P2PMessage.ofBuffer buffer) node := by
  unfold listenerReceive at refused ⊢
  unfold Harmless
  dsimp only at refused ⊢
  by_cases short : n < headerSize
  · simp [short] at refused
  by_cases magic : (P2PMessage.ofBuffer buffer).magic ≠ p2pMagic
  · simp [short, magic] at refused
  rw [if_neg short, if_neg magic] at refused ⊢
  have header : headerOk (P2PMessage.ofBuffer buffer) n = true := by
    unfold headerOk
    simp only [ne_eq, not_not] at magic
    simp [magic, version, Nat.le_of_not_lt short]
  cases found : findAddr sender node.peers with
  | some c =>
    simp only [found] at refused ⊢
    rw [processMessage_accepted header, dispatch_handshake type] at refused ⊢
    have list : c.toList = node.peers := Cursor.toList_of_find found
    show node.peers <+: (c.set _).toList ↔ _
    rw [← list, Cursor.toList_prefix_set_iff]
    exact handleHandshake_keeps_iff (Option.some.inj refused)
  | none =>
    simp only [found, if_pos type] at refused ⊢
    rcases listenerHandshake_cases env sender n node type with
      ⟨h, -⟩ | ⟨-, bar, c, sh, sh', split, added, hpeers⟩
    · rw [h] at refused
      cases refused
    rcases addPeer_cases added with ⟨hc, -⟩ | ⟨hnone, rfl, -⟩
    · have list : c.toList = node.peers := Cursor.toList_of_find hc
      refine iff_of_false ?_ ?_
      · rw [hpeers, ← list, Cursor.toList_prefix_set_iff]
        exact handshakeFrom_ne found (list ▸ c.val_mem_toList)
      · intro h
        rw [h bar split] at hc
        cases hc
    · refine iff_of_true ?_ ?_
      · rw [hpeers]
        exact List.prefix_append _ _
      · intro bar' split'
        obtain rfl : bar = bar' := Option.some.inj (split.symm.trans split')
        exact hnone

/-! ## A record taken over by a failed handshake -/

/-- Another address. -/
def malloryAddr : SockAddrIn := ⟨(6, 6, 6, 6), 6666⟩

/-- A handshake in the name of `bob`, signed by nobody. -/
def forgedHandshake : Bytes := (P2PMessage.make 0 .handshake (ascii "bob|key|signature")).toBytes

/-- The node after `bob` has connected. -/
def bobConnected : Node :=
  History.run p2pStep .init
    [(reachesBob, .connect (ascii "bob")), (reachesBob, datagramOf .handshakeResponse [1])]

theorem handshake_refused_iff_forged :
    bobConnected.peers <+:
        (listenerReceive reachesBob malloryAddr forgedHandshake 37 bobConnected).2.peers ↔
      Harmless reachesBob malloryAddr (P2PMessage.ofBuffer forgedHandshake) bobConnected :=
  handshake_refused_iff (by decide) (by decide) (by decide)

/-- The forged handshake is refused, and the ESTABLISHED record of `bob` is now that of the forger:
its address, its port, its state and its socket have changed. -/
theorem forged_handshake_rewrites_record :
    let r := listenerReceive reachesBob malloryAddr forgedHandshake 37 bobConnected
    r.1 = some (-1) ∧
      bobConnected.peers.map (fun p => (p.id.val, p.state, p.port, p.udpSocket)) =
        [(ascii "bob", .established, 9000, 3)] ∧
      r.2.peers.map (fun p => (p.id.val, p.state, p.port, p.udpSocket)) =
        [(ascii "bob", .handshake, 6666, -1)] := by
  decide

end Orcashi
