import Orcashi.SessionKey

/-!
# Two parties

What a handshake between two nodes comes to.  `handshakeExchange` lets one party send its handshake,
hands every datagram to the listener at the address it was sent to, and hands the replies back.
Then the keys the two sides generate for each other are compared.
-/

namespace Orcashi

open CMemory

/-! ## The network -/

/-- One of two parties. -/
structure Party where
  env : Env
  /-- the address its datagrams carry -/
  source : SockAddrIn
  /-- the address its listener reads from -/
  listen : SockAddrIn
  /-- what its receive buffer holds -/
  buffer : Bytes
  node : Node

/-- The datagrams that were sent to an address. -/
def datagramsTo (addr : SockAddrIn) (es : List Effect) : List Bytes :=
  es.filterMap fun e =>
    match e with
    | .sendto _ datagram dest => if dest = addr then some datagram else none
    | _ => none

/-- The listener takes datagrams in turn, each over what the earlier ones left in the buffer. -/
def receiveAll (env : Env) (sender : SockAddrIn) : List Bytes → Bytes → Node → List (Option ℤ) × Node
  | [], _, node => ([], node)
  | datagram :: ds, buffer, node =>
    let received := datagram.take bufferSize
    let buffer := received ++ buffer.drop received.length
    let r := listenerReceive env sender buffer received.length node
    let rest := receiveAll env sender ds buffer r.2
    (r.1 :: rest.1, rest.2)

/-- What comes of a connection attempt. -/
structure Exchange where
  /-- what `process_message` returned to the listener of `b` -/
  returned : List (Option ℤ)
  /-- the datagrams `b` sent to the listener of `a` -/
  replies : List Bytes
  a : Node
  b : Node

/-- `a` runs `send_handshake` to the record under its pointer, and the two listeners process what
arrives. -/
def handshakeExchange (a b : Party) (c : Cursor P2PPeer) : Exchange :=
  let a₁ := a.node.write c (sendHandshake a.env c.val a.node.shared)
  let r := receiveAll b.env a.source (datagramsTo b.listen (news a.node a₁)) b.buffer b.node
  let replies := datagramsTo a.listen (news b.node r.2)
  let s := receiveAll a.env b.source replies a.buffer a₁
  ⟨r.1, replies, s.2, r.2⟩

/-- A table has an ESTABLISHED and secure record of the peer. -/
def Connected (id : CString) (node : Node) : Prop :=
  ∃ p ∈ node.peers, p.id = .of id ∧ p.state = .established ∧ p.isSecure = true

/-- `handle_handshake` accepted the handshake, the response was sent and both records are
connected. -/
def Completed (idA idB : CString) (x : Exchange) : Prop :=
  x.returned = [some 0] ∧
    (∃ d ∈ x.replies, (P2PMessage.ofBuffer d).type = P2PMessageType.handshakeResponse.code) ∧
    Connected idB x.a ∧ Connected idA x.b

/-! ## No handshake is accepted -/

/-- RSA verification reads its public key as PEM, which begins with this text. -/
def Crypto.ReadsPem (crypto : Crypto) : Prop :=
  ∀ data signature pubkey, crypto.rsaVerifyString data signature pubkey = true →
    ascii "-----BEGIN" <:+: pubkey

/-- A PEM text is not the hexadecimal text of a key. -/
theorem orcaX25519HexToPublicKey_pem {pubkey : CString} (pem : ascii "-----BEGIN" <:+: pubkey) :
    orcaX25519HexToPublicKey pubkey = none := by
  obtain ⟨before, after, rfl⟩ := pem
  unfold orcaX25519HexToPublicKey
  split_ifs with hlen
  swap
  · rfl
  cases parsed : hexPairs (before ++ ascii "-----BEGIN" ++ after) with
  | none => rfl
  | some bs =>
    -- one of the first two dashes is at an odd position
    have dash : ∀ k < 2, (before ++ ascii "-----BEGIN" ++ after)[before.length + k]? = some 45 := by
      intro k hk
      rw [List.append_assoc, List.getElem?_append_right (Nat.le_add_right _ _),
        Nat.add_sub_cancel_left]
      have : k = 0 ∨ k = 1 := by omega
      rcases this with rfl | rfl <;> rfl
    have odd : ∃ i, ∃ k < 2, before.length + k = 2 * i + 1 := by
      rcases Nat.mod_two_eq_zero_or_one before.length with h | h
      · exact ⟨before.length / 2, 1, by decide, by omega⟩
      · exact ⟨before.length / 2, 0, by decide, by omega⟩
    obtain ⟨i, k, hk, position⟩ := odd
    have digit := dash k hk
    rw [position] at digit
    obtain ⟨y, hy⟩ := hexDigit_of_hexPairs parsed digit
    have not_digit : hexDigit 45 = none := by decide
    rw [not_digit] at hy
    cases hy

/-- The key that a signature verifies with is not one that session keys are generated with. -/
theorem sessionKeys_pem (env : Env) {pubkey : CString} (pem : ascii "-----BEGIN" <:+: pubkey) :
    sessionKeys env pubkey = none := by
  unfold sessionKeys
  rw [orcaX25519HexToPublicKey_pem pem]
  cases env.identity <;> cases env.keypair <;> rfl

theorem handleHandshake_fails {env : Env} (pem : env.crypto.ReadsPem) (peer : P2PPeer)
    (msg : P2PMessage) (sh : Shared) : (handleHandshake env peer msg sh).ret = -1 := by
  obtain ⟨es, -, ⟨-, h⟩ | ⟨id, pubkey, signature, identity, -, -, h⟩⟩ :=
    handleHandshake_cases env peer msg sh
  · rw [h]
  · rw [h]
    rcases acceptHandshake_cases env peer identity id pubkey signature (sh.record es) with
      ⟨-, h⟩ | ⟨verified, ⟨-, h⟩ | ⟨sharedSecret, aesKey, keys, -⟩⟩
    · rw [h]
    · rw [h]
    · rw [sessionKeys_pem env (pem _ _ _ verified)] at keys
      cases keys

/-- No HANDSHAKE makes `process_message` return 0. -/
theorem listenerReceive_handshake {env : Env} (pem : env.crypto.ReadsPem) (sender : SockAddrIn)
    {buffer : Bytes} (n : ℕ) (node : Node)
    (type : (P2PMessage.ofBuffer buffer).type = P2PMessageType.handshake.code) :
    (listenerReceive env sender buffer n node).1 ≠ some 0 := by
  rcases listenerReceive_cases env sender buffer n node with
    h | ⟨c, -, h⟩ | ⟨-, -, h⟩ <;> rw [h]
  · simp
  · rcases processMessage_handshake type env c.val n node.shared with h | h <;> rw [h]
    · simp
    · simp [handleHandshake_fails pem]
  · rcases listenerHandshake_cases env sender n node type with ⟨h, -⟩ | ⟨h, -⟩ <;> rw [h] <;> decide

/-- What `send_handshake` sends is one HANDSHAKE at most. -/
theorem news_sendHandshake (env : Env) (c : Cursor P2PPeer) (node : Node) :
    news node (node.write c (sendHandshake env c.val node.shared)) = [] ∨
      ∃ payload, news node (node.write c (sendHandshake env c.val node.shared)) =
        [.sendto c.val.udpSocket (P2PMessage.make env.now .handshake payload).toBytes c.val.addr,
          .sent c.val.id.val payload] := by
  have unchanged : news node (node.write c ⟨-1, c.val, node.shared⟩) = [] := by
    simp [news, Node.write]
  unfold sendHandshake
  cases env.identity with
  | none => exact Or.inl unchanged
  | some identity =>
    dsimp only
    cases env.crypto.rsaSignString (handshakeData identity.id identity.name identity.publicKey env.now)
      identity.privateKeyEncrypted with
    | none => exact Or.inl unchanged
    | some signature =>
      dsimp only
      rcases sendMessage_cases env c.val .handshake
        (identity.id ++ separator :: identity.publicKey ++ separator :: signature) node.shared with
        h | ⟨-, h⟩ <;> rw [h]
      · exact Or.inl unchanged
      · refine Or.inr ⟨identity.id ++ separator :: identity.publicKey ++ separator :: signature, ?_⟩
        simp only [news, Node.write, Shared.record_trace, List.drop_left]

/-- The listener sees the type of a message at the start of its buffer. -/
theorem type_received (m : P2PMessage) (rest : Bytes) :
    (P2PMessage.ofBuffer (m.toBytes.take bufferSize ++ rest)).type = m.type := rfl

/-- Whoever sends a handshake to whomever, it is not completed. -/
theorem handshakeExchange_not_completed {a b : Party} (pem : b.env.crypto.ReadsPem)
    (c : Cursor P2PPeer) (idA idB : CString) : ¬ Completed idA idB (handshakeExchange a b c) := by
  rintro ⟨accepted, -⟩
  unfold handshakeExchange at accepted
  dsimp only at accepted
  rcases news_sendHandshake a.env c a.node with h | ⟨payload, h⟩
  · rw [h] at accepted
    cases accepted
  · rw [h] at accepted
    by_cases arrives : c.val.addr = b.listen
    · have sent : datagramsTo b.listen
          [.sendto c.val.udpSocket (P2PMessage.make a.env.now .handshake payload).toBytes c.val.addr,
            .sent c.val.id.val payload] =
          [(P2PMessage.make a.env.now .handshake payload).toBytes] := by
        simp [datagramsTo, arrives]
      rw [sent] at accepted
      exact listenerReceive_handshake pem a.source _ b.node (type_received _ _)
        (List.cons.inj accepted).1
    · have lost : datagramsTo b.listen
          [.sendto c.val.udpSocket (P2PMessage.make a.env.now .handshake payload).toBytes c.val.addr,
            .sent c.val.id.val payload] = [] := by
        simp [datagramsTo, arrives]
      rw [lost] at accepted
      cases accepted

/-! ## Two honest parties -/

/-- Signatures that are the signed text under the key of the signer, in a text without
separators. -/
def textSignature (key data : CString) : CString :=
  key ++ data.map fun c => if c = separator then 47 else c

/-- Signatures that verify with the PEM text of the key that made them, and with no other. -/
def Crypto.signing : Crypto :=
  { Crypto.failing with
    rsaSignString := fun data key => some (textSignature key data)
    rsaVerifyString := fun data signature pubkey =>
      decide (pubkey.take 10 = ascii "-----BEGIN" ∧ signature = textSignature (pubkey.drop 10) data) }

theorem signing_readsPem : Crypto.signing.ReadsPem := by
  intro data signature pubkey verified
  have h := of_decide_eq_true verified
  rw [← h.1]
  exact (List.take_prefix 10 pubkey).isInfix

/-- A registered identity. -/
def registered (id key : CString) : OrcaIdentity :=
  ⟨id, id, .normal, ascii "-----BEGIN" ++ key, key, []⟩

theorem signing_verifies (id key data : CString) :
    ∃ signature, Crypto.signing.rsaSignString data (registered id key).privateKeyEncrypted =
        some signature ∧
      Crypto.signing.rsaVerifyString data signature (registered id key).publicKey = true := by
  refine ⟨textSignature key data, rfl, ?_⟩
  simp [Crypto.signing, registered, ascii]

/-- A node that knows the address of one peer. -/
def knows (id : CString) (addr : SockAddrIn) : Node :=
  { Node.init with
    peers := [{ P2PPeer.fresh .failing (.of id) with
      ip := addr.ip, port := addr.port, addr := addr, state := .handshake, udpSocket := 3 }] }

/-- An honest party that knows the other one. -/
def party (id key : CString) (addr : SockAddrIn) (other : CString) (otherAddr : SockAddrIn) : Party where
  env :=
    { Env.failing with
      crypto := .signing
      identity := some (registered id key)
      keypair := some (key, key)
      sendto := fun _ _ _ => true }
  source := addr
  listen := addr
  buffer := []
  node := knows other otherAddr

/-- The address of `amy`. -/
def amyAddr : SockAddrIn := ⟨(10, 0, 0, 1), 9000⟩

/-- One side. -/
def amy : Party := party (ascii "amy") (ascii "A") amyAddr (ascii "bob") bobAddr

/-- The other side. -/
def bob : Party := party (ascii "bob") (ascii "B") bobAddr (ascii "amy") amyAddr

/-- The pointer of `amy` to her record of `bob`. -/
def amyToBob : Cursor P2PPeer :=
  ⟨[], { P2PPeer.fresh .failing (.of (ascii "bob")) with
    ip := bobAddr.ip, port := bobAddr.port, addr := bobAddr, state := .handshake, udpSocket := 3 }, []⟩

theorem handshakeExchange_not_completed_amy :
    ¬ Completed (ascii "amy") (ascii "bob") (handshakeExchange amy bob amyToBob) :=
  handshakeExchange_not_completed signing_readsPem amyToBob _ _

/-- Signatures verify with the key of their signer, but `bob`, who knows `amy`, refuses her handshake:
what he verifies is not what she signed. -/
theorem honest_handshake_refused :
    (∀ data, ∃ signature,
      Crypto.signing.rsaSignString data (registered (ascii "amy") (ascii "A")).privateKeyEncrypted =
          some signature ∧
        Crypto.signing.rsaVerifyString data signature
          (registered (ascii "amy") (ascii "A")).publicKey = true) ∧
      findPeer (ascii "bob") amy.node.peers = some amyToBob ∧
      (handshakeExchange amy bob amyToBob).returned = [some (-1)] ∧
      (handshakeExchange amy bob amyToBob).replies = [] ∧
      (handshakeExchange amy bob amyToBob).a.peers.map P2PPeer.state = [.handshake] ∧
      (handshakeExchange amy bob amyToBob).b.peers.map P2PPeer.state = [.handshake] := by
  refine ⟨signing_verifies (ascii "amy") (ascii "A"), rfl, ?_⟩
  decide

/-! ## The keys of the two sides -/

/-- The same surroundings with another key derivation. -/
def Env.withKdf (env : Env) (pbkdf2 : Bytes → Bytes → Option Bytes) : Env :=
  { env with crypto := { env.crypto with pbkdf2 := pbkdf2 } }

/-- X25519 of the private key that is drawn and the public key in the record. -/
def ecdhSecret (env : Env) (publicKey : CString) : Option Bytes := do
  let _ ← env.identity
  let (_, ecdhPriv) ← env.keypair
  let peerPub ← orcaX25519HexToPublicKey publicKey
  env.crypto.x25519ComputeSharedSecret ecdhPriv peerPub

theorem sessionKeys_withKdf (env : Env) (pbkdf2 : Bytes → Bytes → Option Bytes)
    (publicKey : CString) :
    sessionKeys (env.withKdf pbkdf2) publicKey =
      (ecdhSecret env publicKey).bind fun secret =>
        (pbkdf2 secret (env.salt ++ (ascii "orcashi-p2p").take 10)).map fun key => (secret, key) := by
  unfold sessionKeys ecdhSecret Env.withKdf orcaAesGcmDeriveKey
  cases env.identity with
  | none => rfl
  | some identity =>
    cases env.keypair with
    | none => rfl
    | some keypair =>
      cases parsed : orcaX25519HexToPublicKey publicKey with
      | none => simp
      | some peerPub =>
        cases secret : env.crypto.x25519ComputeSharedSecret keypair.2 peerPub with
        | none => simp [secret]
        | some sharedSecret =>
          cases key : pbkdf2 sharedSecret (env.salt ++ (ascii "orcashi-p2p").take 10) with
          | none => simp [secret, key]
          | some aesKey => simp [secret, key]

/-- `generate_session_keys` returns 0 with a key exactly if there is a secret to derive it from. -/
theorem generateSessionKeys_key (env : Env) (pbkdf2 : Bytes → Bytes → Option Bytes) (p : P2PPeer)
    (sh : Shared) (key : Bytes) :
    ((generateSessionKeys (env.withKdf pbkdf2) p sh).ret = 0 ∧
        (generateSessionKeys (env.withKdf pbkdf2) p sh).peer.aesKey = key) ↔
      ∃ secret, ecdhSecret env p.publicKey = some secret ∧
        pbkdf2 secret (env.salt ++ (ascii "orcashi-p2p").take 10) = some key := by
  have computed := sessionKeys_withKdf env pbkdf2 p.publicKey
  rcases generateSessionKeys_cases (env.withKdf pbkdf2) p sh with
    ⟨hk, h⟩ | ⟨sharedSecret, aesKey, hk, h⟩ <;> rw [h] <;> rw [hk] at computed
  · refine iff_of_false (by simp) ?_
    rintro ⟨secret, hs, hp⟩
    rw [hs, Option.bind_some, hp] at computed
    cases computed
  · obtain ⟨secret, hs, hm⟩ := Option.bind_eq_some_iff.1 computed.symm
    obtain ⟨key', hp, he⟩ := Option.map_eq_some_iff.1 hm
    obtain ⟨rfl, rfl⟩ := Prod.mk.inj he
    constructor
    · rintro ⟨-, rfl⟩
      exact ⟨secret, hs, hp⟩
    · rintro ⟨secret', hs', hp'⟩
      obtain rfl : secret = secret' := Option.some.inj (hs.symm.trans hs')
      exact ⟨rfl, Option.some.inj (hp.symm.trans hp')⟩

/-- Whenever both sides generate session keys, whatever the key derivation, they are the same. -/
def KeysAgree (envA envB : Env) (ofB ofA : P2PPeer) (shA shB : Shared) : Prop :=
  ∀ pbkdf2,
    (generateSessionKeys (envA.withKdf pbkdf2) ofB shA).ret = 0 →
    (generateSessionKeys (envB.withKdf pbkdf2) ofA shB).ret = 0 →
    (generateSessionKeys (envA.withKdf pbkdf2) ofB shA).peer.aesKey =
      (generateSessionKeys (envB.withKdf pbkdf2) ofA shB).peer.aesKey

/-- The two sides agree on a key exactly if they draw the same salt and their draws and records give
the same secret, unless one side has no secret. -/
theorem keysAgree_iff (envA envB : Env) (ofB ofA : P2PPeer) (shA shB : Shared) :
    KeysAgree envA envB ofB ofA shA shB ↔
      ∀ secretA secretB, ecdhSecret envA ofB.publicKey = some secretA →
        ecdhSecret envB ofA.publicKey = some secretB →
        envA.salt = envB.salt ∧ secretA = secretB := by
  constructor
  · intro agree secretA secretB hA hB
    -- a derivation that tells the inputs of `a` from all others
    let info := (ascii "orcashi-p2p").take 10
    let probe : Bytes → Bytes → Option Bytes := fun secret salt =>
      some (List.replicate 32 (if secret = secretA ∧ salt = envA.salt ++ info then 1 else 0))
    have keyA := (generateSessionKeys_key envA probe ofB shA (List.replicate 32 1)).2
      ⟨secretA, hA, by simp [probe, info]⟩
    have keyB := (generateSessionKeys_key envB probe ofA shB _).2 ⟨secretB, hB, rfl⟩
    have same := agree probe keyA.1 keyB.1
    rw [keyA.2, keyB.2] at same
    by_cases inputs : secretB = secretA ∧ envB.salt ++ info = envA.salt ++ info
    · exact ⟨(List.append_cancel_right inputs.2).symm, inputs.1.symm⟩
    · rw [if_neg inputs] at same
      exact absurd same (by decide)
  · intro draws pbkdf2 hA hB
    obtain ⟨secretA, hsA, hkA⟩ := (generateSessionKeys_key envA pbkdf2 ofB shA _).1 ⟨hA, rfl⟩
    obtain ⟨secretB, hsB, hkB⟩ := (generateSessionKeys_key envB pbkdf2 ofA shB _).1 ⟨hB, rfl⟩
    obtain ⟨salt, rfl⟩ := draws secretA secretB hsA hsB
    rw [salt, hkB] at hkA
    exact (Option.some.inj hkA).symm

/-! ## A key each -/

/-- Surroundings with a commutative exchange whose public keys are the private ones. -/
def exchanging (priv salt : UInt8) : Env :=
  { Env.failing with
    crypto :=
      { Crypto.failing with
        x25519ComputeSharedSecret := fun u v => some (List.zipWith (· + ·) u v)
        pbkdf2 := fun secret salt => some ((salt ++ secret).take 32) }
    identity := some (registered (ascii "amy") (ascii "A"))
    keypair := some (List.replicate 32 priv, List.replicate 32 priv)
    salt := List.replicate 16 salt }

/-- A record with the public key of 32 equal bytes. -/
def withPublicKey (id : CString) (digits : CString) : P2PPeer :=
  { P2PPeer.fresh .failing (.of id) with publicKey := (List.replicate 32 digits).flatten }

/-- Each side has the public key the other one drew, and both find the same secret, but the salts and
with them the keys differ. -/
theorem salts_differ :
    let a := generateSessionKeys (exchanging 1 17) (withPublicKey (ascii "bob") (ascii "02")) .init
    let b := generateSessionKeys (exchanging 2 34) (withPublicKey (ascii "amy") (ascii "01")) .init
    a.ret = 0 ∧ b.ret = 0 ∧ a.peer.sharedSecret = b.peer.sharedSecret ∧
      a.peer.aesKey ≠ b.peer.aesKey := by
  decide

end Orcashi
