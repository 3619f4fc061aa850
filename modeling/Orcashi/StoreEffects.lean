import Orcashi.ChatLog
import Orcashi.FailedHandshake
import Orcashi.PeerRecord

/-!
# What the P2P manager does to the state manager

Each step of the P2P manager, told by what it does to the state manager and to the event queue:
nothing, or one of a few sequences of writes that end with an event.
-/

namespace Orcashi

open CMemory

/-! ## Messages -/

/-- An accepted text. -/
def hearText (env : Env) (peer : P2PPeer) (text : CString) (s : Store) : Store :=
  s |>.push (textEvent env peer text) |>.call (stateAddMessage peer.id.val text)

/-- The event of a friend request. -/
def requestEvent (env : Env) (peer : P2PPeer) (fromId : CString) : Event :=
  { eventCreate env.now .addRequest fromId with
    fromId := fromId
    ip := peer.ip.val
    port := peer.port }

/-- What a message with a friend request does. -/
def requestFriend (env : Env) (peer : P2PPeer) (fromId : CString) (s : Store) : Store :=
  s |>.call (stateUpdatePeer env.now fromId .requestReceived)
    |>.call (stateSetIp fromId peer.ip.val)
    |>.call (stateSetPort fromId peer.port)
    |>.push (requestEvent env peer fromId)

/-- What a message that accepts one does. -/
def confirmFriend (env : Env) (peer : P2PPeer) (fromId : CString) (s : Store) : Store :=
  s |>.call (stateUpdatePeer env.now fromId .friend)
    |>.call (stateSetOnline env.now fromId true)
    |>.call (stateSetIp fromId peer.ip.val)
    |>.call (stateSetPort fromId peer.port)
    |>.deliver env.now fromId
    |>.push (eventCreate env.now .acceptConfirm fromId)

/-- What a message that refuses one does. -/
def dropPeer (env : Env) (fromId : CString) (s : Store) : Store :=
  s |>.call (stateRemovePeer fromId) |>.push (eventCreate env.now .rejectConfirm fromId)

/-- What an accepted message of a type and a text does. -/
def messageEffect (env : Env) (peer : P2PPeer) (text : CString) (s : Store) :
    P2PMessageType → Store
  | .handshake => announceFriend env peer s
  | .data => hearText env peer text s
  | .addRequest => requestFriend env peer text s
  | .acceptConfirm => confirmFriend env peer text s
  | .rejectConfirm => dropPeer env text s
  | .handshakeResponse | .keepalive | .close => s

/-- The text of a message: that of a payload, opened where it has to be. -/
def messageText (env : Env) (peer : P2PPeer) (msg : P2PMessage) : P2PMessageType → CString
  | .data => (acceptedText env peer msg).getD []
  | _ => payloadText msg

/-- `process_message` rejects a message and leaves the store alone, or accepts it and does what
messages of its type do. -/
theorem processMessage_store (env : Env) (peer : P2PPeer) (msg : P2PMessage) (n : ℕ) (sh : Shared) :
    ((processMessage env peer msg n sh).ret = -1 ∧
      (processMessage env peer msg n sh).shared.toStore = sh.toStore) ∨
    ∃ type, headerOk msg n = true ∧ msg.type = P2PMessageType.code type ∧
      (processMessage env peer msg n sh).ret = 0 ∧
      (processMessage env peer msg n sh).shared.toStore =
        messageEffect env peer (messageText env peer msg type) sh.toStore type := by
  by_cases header : headerOk msg n = true
  swap
  · rw [processMessage_rejected header]
    exact Or.inl ⟨rfl, rfl⟩
  rw [processMessage_accepted header, header]
  unfold dispatch
  cases code : P2PMessageType.ofCode msg.type with
  | none => exact Or.inl ⟨rfl, rfl⟩
  | some type =>
    have same := P2PMessageType.code_of_ofCode code
    cases type with
    | handshake =>
      obtain ⟨es, -, ⟨-, h⟩ | ⟨id, pubkey, signature, identity, -, -, h⟩⟩ :=
        handleHandshake_cases env peer msg sh <;> dsimp only <;> rw [h]
      · exact Or.inl ⟨rfl, rfl⟩
      · rcases acceptHandshake_cases env peer identity id pubkey signature (sh.record es) with
          ⟨-, h⟩ | ⟨-, ⟨-, h⟩ | ⟨_, _, -, h | ⟨_, h⟩⟩⟩ <;> rw [h]
        · exact Or.inl ⟨rfl, rfl⟩
        · exact Or.inl ⟨rfl, rfl⟩
        · exact Or.inl ⟨rfl, rfl⟩
        · exact Or.inr ⟨.handshake, rfl, same, rfl, rfl⟩
    | data =>
      dsimp only
      cases accepted : acceptedText env peer msg with
      | none =>
        obtain ⟨es, h⟩ := handleData_refused accepted sh
        rw [h]
        exact Or.inl ⟨rfl, rfl⟩
      | some text =>
        obtain ⟨es, h⟩ := handleData_accepted accepted sh
        rw [h]
        refine Or.inr ⟨.data, rfl, same, rfl, ?_⟩
        unfold messageText
        rw [accepted]
        rfl
    | addRequest => exact Or.inr ⟨.addRequest, rfl, same, rfl, rfl⟩
    | acceptConfirm => exact Or.inr ⟨.acceptConfirm, rfl, same, rfl, rfl⟩
    | rejectConfirm => exact Or.inr ⟨.rejectConfirm, rfl, same, rfl, rfl⟩
    | handshakeResponse => exact Or.inr ⟨.handshakeResponse, rfl, same, rfl, rfl⟩
    | keepalive => exact Or.inr ⟨.keepalive, rfl, same, rfl, rfl⟩
    | close => exact Or.inr ⟨.close, rfl, same, rfl, rfl⟩

/-- A message accepted from the record of its sender's address. -/
structure Accepts (env : Env) (node : Node) (sender : SockAddrIn) (buffer : Bytes) (n : ℕ)
    (peer : P2PPeer) (type : P2PMessageType) : Prop where
  found : ∃ c, findAddr sender node.peers = some c ∧ c.val = peer
  header : headerOk (P2PMessage.ofBuffer buffer) n = true
  type : (P2PMessage.ofBuffer buffer).type = type.code
  ret : (listenerReceive env sender buffer n node).1 = some 0

theorem addPeer_store {env : Env} {id : CString} {peers : List P2PPeer} {sh : Shared}
    {r : Cursor P2PPeer × Shared} (added : addPeer env id peers sh = some r) :
    r.2.toStore = sh.toStore := by
  rcases addPeer_cases added with ⟨-, hr⟩ | ⟨-, -, hr⟩
  · rw [hr]
  · rw [hr]
    rfl

/-- A turn of the listener accepts no message and leaves the store alone, or accepts one. -/
theorem listenerReceive_store (env : Env) (sender : SockAddrIn) (buffer : Bytes) (n : ℕ)
    (node : Node) :
    ((listenerReceive env sender buffer n node).1 ≠ some 0 ∧
      (listenerReceive env sender buffer n node).2.shared.toStore = node.shared.toStore) ∨
    ∃ peer type, Accepts env node sender buffer n peer type ∧
      (listenerReceive env sender buffer n node).2.shared.toStore =
        messageEffect env peer (messageText env peer (P2PMessage.ofBuffer buffer) type)
          node.shared.toStore type := by
  rcases listenerReceive_cases env sender buffer n node with h | ⟨c, found, h⟩ | ⟨-, type, h⟩
  · rw [h]
    refine Or.inl ⟨?_, rfl⟩
    rintro ⟨⟩
  · rcases processMessage_store env c.val (P2PMessage.ofBuffer buffer) n node.shared with
      ⟨ret, same⟩ | ⟨type, header, code, ret, effect⟩
    · rw [h]
      refine Or.inl ⟨?_, same⟩
      dsimp only
      rw [ret]
      decide
    · refine Or.inr ⟨c.val, type, ⟨⟨c, found, rfl⟩, header, code, ?_⟩, ?_⟩
      · rw [h]
        exact congrArg some ret
      · rw [h]
        exact effect
  · -- a handshake from an unknown address fails
    left
    rw [h]
    unfold listenerHandshake
    cases split : strchr (P2PMessage.ofBuffer buffer).payload 0 separator with
    | none =>
      refine ⟨?_, rfl⟩
      rintro ⟨⟩
    | some bar =>
      have fails (peer : P2PPeer) (sh : Shared) :
          (processMessage env peer { P2PMessage.ofBuffer buffer with
              payload := (P2PMessage.ofBuffer buffer).payload.set bar 0 } n sh).ret = -1 ∧
            (processMessage env peer { P2PMessage.ofBuffer buffer with
              payload := (P2PMessage.ofBuffer buffer).payload.set bar 0 } n sh).shared.toStore =
                sh.toStore := by
        rcases processMessage_after_split env peer n sh type split with h | h <;> rw [h] <;>
          exact ⟨rfl, rfl⟩
      dsimp only
      cases added : addPeer env (strAt ((P2PMessage.ofBuffer buffer).payload.set bar 0) 0) node.peers
          ((node.shared.record [loadField (P2PMessage.ofBuffer buffer).payload 0]).record
            [.store bar, loadStr ((P2PMessage.ofBuffer buffer).payload.set bar 0) 0]) with
      | none =>
        refine ⟨?_, rfl⟩
        rintro ⟨⟩
      | some r =>
        have store := addPeer_store added
        obtain ⟨ret, same⟩ := fails (handshakeFrom env sender r.1.val)
          (r.2.record [.copy inetAddrStrLen sender.ip.val.length])
        refine ⟨?_, ?_⟩
        · show some _ ≠ some 0
          rw [ret]
          decide
        · exact same.trans store

/-! ## Calls that tell the state manager nothing -/

theorem sendMessage_store (env : Env) (peer : P2PPeer) (type : P2PMessageType) (payload : Bytes)
    (sh : Shared) : (sendMessage env peer type payload sh).shared.toStore = sh.toStore := by
  rcases sendMessage_cases env peer type payload sh with h | ⟨-, h⟩
  · rw [h]
  · rw [h]
    rfl

theorem sendHandshake_store (env : Env) (peer : P2PPeer) (sh : Shared) :
    (sendHandshake env peer sh).shared.toStore = sh.toStore := by
  unfold sendHandshake
  cases env.identity with
  | none => rfl
  | some identity =>
    dsimp only
    cases env.crypto.rsaSignString
      (handshakeData identity.id identity.name identity.publicKey env.now)
      identity.privateKeyEncrypted with
    | none => rfl
    | some signature => exact sendMessage_store env peer _ _ sh

theorem p2pConnect_store (env : Env) (peerId : CString) (node : Node) :
    (p2pConnect env peerId node).2.shared.toStore = node.shared.toStore := by
  unfold p2pConnect
  split_ifs
  · rfl
  · rfl
  cases env.dhtNodeLookup.bind fun lookup => lookup (normalizeId peerId) with
  | none => rfl
  | some place =>
    dsimp only
    cases added : addPeer env peerId node.peers node.shared with
    | none => rfl
    | some r =>
      rw [← addPeer_store added]
      show (connectPeer env place.1 place.2 r.1.val r.2).shared.toStore = r.2.toStore
      unfold connectPeer abandonConnect
      dsimp only
      split_ifs
      · rfl
      · rfl
      · exact sendHandshake_store env _ _
      · exact sendHandshake_store env _ _

theorem p2pSendSecure_store (env : Env) (peerId : CString) (data : Bytes) (node : Node) :
    (p2pSendSecure env peerId data node).2.shared.toStore = node.shared.toStore := by
  unfold p2pSendSecure
  split_ifs
  · rfl
  cases findPeer peerId node.peers with
  | none => rfl
  | some c =>
    show (sendSecure env c.val data node.shared).shared.toStore = node.shared.toStore
    unfold sendSecure
    split_ifs
    · rfl
    cases env.crypto.aesGcmEncrypt data c.val.aesKey env.nonce with
    | none => rfl
    | some sealed =>
      dsimp only
      split_ifs <;> exact sendMessage_store env c.val _ _ _

theorem p2pSend_store (env : Env) (peerId message : CString) (node : Node) :
    (p2pSend env peerId message node).2.shared.toStore = node.shared.toStore := by
  unfold p2pSend
  cases findPeer peerId node.peers with
  | none => rfl
  | some c =>
    dsimp only
    split_ifs
    · rfl
    · exact p2pSendSecure_store env peerId message node
    · exact sendMessage_store env c.val _ _ _

/-! ## Accepting, disconnecting and timing out -/

/-- A connection that was accepted. -/
def befriend (env : Env) (id : CString) (s : Store) : Store :=
  s |>.call (stateUpdatePeer env.now id .friend) |>.push (eventCreate env.now .acceptConfirm id)

theorem p2pAccept_store (env : Env) (peerId : CString) (node : Node) :
    (p2pAccept env peerId node).2.shared.toStore = node.shared.toStore ∨
      ∃ c, findPeer peerId node.peers = some c ∧
        (p2pAccept env peerId node).2.shared.toStore =
          befriend env c.val.id.val node.shared.toStore := by
  unfold p2pAccept
  cases findPeer peerId node.peers with
  | none => exact Or.inl rfl
  | some c =>
    show (acceptPeer env c.val node.shared).shared.toStore = _ ∨ ∃ c', some c = some c' ∧
      (acceptPeer env c.val node.shared).shared.toStore = _
    unfold acceptPeer
    split_ifs with idle
    · exact Or.inl rfl
    rcases establishSecureChannel_cases env c.val node.shared with
      ⟨-, h⟩ | ⟨sharedSecret, aesKey, -, h | ⟨datagram, h⟩⟩ <;> rw [h]
    · exact Or.inl rfl
    · exact Or.inl rfl
    · exact Or.inr ⟨c, rfl, rfl⟩

theorem p2pDisconnect_store (env : Env) (peerId : CString) (node : Node) :
    (p2pDisconnect env peerId node).2.shared.toStore =
      (findPeer peerId node.peers).elim node.shared.toStore fun c =>
        goOffline env c.val.id.val node.shared.toStore := by
  unfold p2pDisconnect
  cases findPeer peerId node.peers with
  | none => rfl
  | some c =>
    show (disconnectPeer env c.val node.shared).shared.toStore = _
    unfold disconnectPeer
    split_ifs
    · rcases sendMessage_cases env c.val .close [0] node.shared with h | ⟨-, h⟩ <;> rw [h] <;> rfl
    · rfl

theorem keepalivePeer_store (env : Env) (peer : P2PPeer) (sh : Shared) :
    (keepalivePeer env peer sh).shared.toStore =
      if timesOut env peer then goOffline env peer.id.val sh.toStore else sh.toStore := by
  rcases keepalivePeer_cases env peer sh with ⟨out, h⟩ | ⟨alive, h | h⟩
  · rw [h, if_pos out]
    rfl
  · rw [h, alive]
    rfl
  · rw [h, alive]
    rfl

/-- The ids of the records that time out, in the order of the table. -/
def timedOut (env : Env) (peers : List P2PPeer) : List CString :=
  (peers.filter (timesOut env)).map fun p => p.id.val

theorem keepaliveTick_store (env : Env) (node : Node) :
    (keepaliveTick env node).shared.toStore =
      (timedOut env node.peers).foldl (fun s id => goOffline env id s) node.shared.toStore := by
  show (keepaliveLoop env node.peers node.shared).2.toStore = _
  generalize node.shared = sh
  induction node.peers generalizing sh with
  | nil => rfl
  | cons p peers ih =>
    unfold keepaliveLoop timedOut
    dsimp only
    rw [ih, keepalivePeer_store, List.filter_cons]
    split_ifs <;> rfl

/-! ## Steps of the P2P manager -/

/-- The peers a step gives up, in order. -/
def gaveUp (env : Env) (node : Node) : P2PCall → List NormId
  | .disconnect peerId => ((findPeer peerId node.peers).map fun c => c.val.id).toList
  | .keepalive => (node.peers.filter (timesOut env)).map P2PPeer.id
  | _ => []

/-- A message that was accepted: the record of its sender, its type and its text. -/
structure Arrival where
  peer : P2PPeer
  type : P2PMessageType
  text : CString

/-- The message a step accepts. -/
def arrival (env : Env) (node : Node) : P2PCall → Option Arrival
  | .datagram sender buffer n =>
    let msg := P2PMessage.ofBuffer buffer
    if (listenerReceive env sender buffer n node).1 = some 0 then
      (findAddr sender node.peers).bind fun c =>
        (P2PMessageType.ofCode msg.type).map fun type => ⟨c.val, type, messageText env c.val msg type⟩
    else none
  | _ => none

theorem arrival_of_accepts {env : Env} {node : Node} {sender : SockAddrIn} {buffer : Bytes} {n : ℕ}
    {peer : P2PPeer} {type : P2PMessageType} (accepts : Accepts env node sender buffer n peer type) :
    arrival env node (.datagram sender buffer n) =
      some ⟨peer, type, messageText env peer (P2PMessage.ofBuffer buffer) type⟩ := by
  obtain ⟨c, found, rfl⟩ := accepts.found
  unfold arrival
  dsimp only
  rw [if_pos accepts.ret, found, Option.bind_some, accepts.type, P2PMessageType.ofCode_code,
    Option.map_some]

theorem accepts_of_arrival {env : Env} {node : Node} {call : P2PCall} {a : Arrival}
    (arrived : arrival env node call = some a) :
    ∃ sender buffer n, call = .datagram sender buffer n ∧
      Accepts env node sender buffer n a.peer a.type ∧
      a.text = messageText env a.peer (P2PMessage.ofBuffer buffer) a.type := by
  cases call with
  | connect | send | sendSecure | accept | disconnect | keepalive => cases arrived
  | datagram sender buffer n =>
    rcases listenerReceive_store env sender buffer n node with
      ⟨refused, -⟩ | ⟨peer, type, accepts, -⟩
    · have silent : arrival env node (.datagram sender buffer n) = none := if_neg refused
      rw [silent] at arrived
      cases arrived
    · rw [arrival_of_accepts accepts] at arrived
      cases arrived
      exact ⟨sender, buffer, n, rfl, accepts, rfl⟩

/-- A step gives peers up, accepts a message, accepts a connection, or tells the store nothing. -/
theorem p2pStep_store (node : Node) (env : Env) (call : P2PCall) :
    (arrival env node call = none ∧ (call.step env node).shared.toStore =
        (gaveUp env node call).foldl (fun s id => goOffline env id.val s) node.shared.toStore) ∨
    (gaveUp env node call = [] ∧ ∃ a, arrival env node call = some a ∧
        (call.step env node).shared.toStore = messageEffect env a.peer a.text node.shared.toStore
          a.type) ∨
    (arrival env node call = none ∧ gaveUp env node call = [] ∧ ∃ id,
        (call.step env node).shared.toStore = befriend env id node.shared.toStore) := by
  cases call with
  | connect peerId => exact Or.inl ⟨rfl, p2pConnect_store env peerId node⟩
  | send peerId message => exact Or.inl ⟨rfl, p2pSend_store env peerId message node⟩
  | sendSecure peerId data => exact Or.inl ⟨rfl, p2pSendSecure_store env peerId data node⟩
  | accept peerId =>
    rcases p2pAccept_store env peerId node with same | ⟨c, -, store⟩
    · exact Or.inl ⟨rfl, same⟩
    · exact Or.inr (Or.inr ⟨rfl, rfl, _, store⟩)
  | disconnect peerId =>
    refine Or.inl ⟨rfl, (p2pDisconnect_store env peerId node).trans ?_⟩
    unfold gaveUp
    dsimp only
    cases findPeer peerId node.peers <;> rfl
  | keepalive =>
    refine Or.inl ⟨rfl, (keepaliveTick_store env node).trans ?_⟩
    unfold gaveUp timedOut
    rw [List.foldl_map, List.foldl_map]
  | datagram sender buffer n =>
    rcases listenerReceive_store env sender buffer n node with
      ⟨refused, same⟩ | ⟨peer, type, accepts, effect⟩
    · exact Or.inl ⟨if_neg refused, same⟩
    · exact Or.inr (Or.inl ⟨rfl, _, arrival_of_accepts accepts, effect⟩)

end Orcashi
