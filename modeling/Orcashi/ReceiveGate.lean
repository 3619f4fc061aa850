import Orcashi.Attribution
import Orcashi.P2P.Manager

/-!
# Messages without a connection

`send_message` sends nothing but handshakes to a peer that is not ESTABLISHED.  The receiving side
has no such gate: this file says which messages from a peer that is not ESTABLISHED have no effect,
and shows a message that is delivered after the connection was closed.
-/

namespace Orcashi

open CMemory

/-- The messages `send_message` sends over an ESTABLISHED connection only. -/
def gatedType (type : P2PMessageType) : Prop := type ≠ .handshake ∧ type ≠ .handshakeResponse

theorem sendMessage_refuses {peer : P2PPeer} (closed : peer.state ≠ .established)
    {type : P2PMessageType} (gated : gatedType type) (env : Env) (payload : Bytes) (sh : Shared) :
    sendMessage env peer type payload sh = ⟨-1, peer, sh⟩ := by
  rcases sendMessage_cases env peer type payload sh with h | ⟨⟨-, open_⟩, -⟩
  · exact h
  · rcases open_ with h | h | h
    · exact absurd h closed
    · exact absurd h gated.1
    · exact absurd h gated.2

/-- The message changes neither the record nor the state manager nor the event queue. -/
def Ignored (env : Env) (peer : P2PPeer) (msg : P2PMessage) (msgLen : ℕ) (sh : Shared) : Prop :=
  (processMessage env peer msg msgLen sh).peer = peer ∧
    (processMessage env peer msg msgLen sh).shared.toStore = sh.toStore

/-! ## What messages do -/

/-- A push into a queue with room is seen. -/
theorem push_queue_ne {s : Store} (room : s.queue.count < eventQueueSize) (ev : Event) {q : EventQueue}
    (same : q.toList = s.queue.toList) : (s.push ev).queue ≠ q := by
  intro h
  have hlist : (s.push ev).queue.toList = s.queue.toList ++ [ev].take (eventQueueSize - s.queue.count) := by
    show (eventQueuePush ev s.queue).2.toList = _
    rw [eventQueuePush_snd]
    exact toList_offer ev s.queue
  rw [h, same, List.self_eq_append_right, List.take_eq_nil_iff] at hlist
  rcases hlist with hlist | hlist
  · omega
  · cases hlist

theorem init_room : Shared.init.queue.count < eventQueueSize := by decide

theorem activity_ne {now : Time} {peer : P2PPeer} (later : now ≠ peer.lastActivity) :
    { peer with lastActivity := now } ≠ peer :=
  fun h => later (congrArg P2PPeer.lastActivity h)

theorem handleData_ignored_iff (env : Env) {peer : P2PPeer} (later : env.now ≠ peer.lastActivity)
    (msg : P2PMessage) (sh : Shared) :
    ((handleData env peer msg sh).peer = peer ∧ (handleData env peer msg sh).shared.toStore =
        sh.toStore) ↔
      (peer.isSecure = true ∧ sealSize < msg.payloadLen.toNat) ∧ openPayload env peer msg = none := by
  unfold handleData
  by_cases hsec : peer.isSecure = true ∧ sealSize < msg.payloadLen.toNat
  · rw [if_pos hsec]
    cases openPayload env peer msg with
    | none => exact ⟨fun _ => ⟨hsec, rfl⟩, fun _ => ⟨rfl, rfl⟩⟩
    | some plaintext =>
      exact ⟨fun h => absurd h.1 (activity_ne later), fun h => by cases h.2⟩
  · rw [if_neg hsec]
    exact ⟨fun h => absurd h.1 (activity_ne later), fun h => absurd h.1 hsec⟩

theorem handleAcceptConfirm_push (env : Env) (peer : P2PPeer) (msg : P2PMessage) :
    (handleAcceptConfirm env peer msg .init).shared.toStore ≠ Shared.init.toStore := by
  intro h
  have quiet : ∀ s : Store, s.sm.ghosts = [] → s.queue = Shared.init.queue →
      (s.deliver env.now (payloadText msg)).queue.toList = Shared.init.queue.toList := by
    intro s hg hq
    obtain ⟨-, -, hd, -⟩ := stateDeliverGhostMessages_spec env.now env.now (payloadText msg) s
    have none_pending : pendingMessages (payloadText msg) s.sm = [] := by
      unfold pendingMessages
      split_ifs
      · rfl
      · rw [hg]
        rfl
    rw [none_pending, List.map_nil, List.take_nil, List.append_nil, hq] at hd
    exact hd
  have before := quiet ((((Shared.init.call (stateUpdatePeer env.now (payloadText msg) .friend)).call
    (stateSetOnline env.now (payloadText msg) true)).call
    (stateSetIp (payloadText msg) peer.ip.val)).call (stateSetPort (payloadText msg) peer.port))
    (by simp [Store.call, Shared.init, Store.init, StateManager.init]) rfl
  refine push_queue_ne ?_ _ before.symm (congrArg Store.queue h)
  rw [← RingBuffer.length_toList, before]
  decide

/-! ## The gate -/

/-- To a peer that is not ESTABLISHED nothing but a handshake is sent; and what arrives from it,
handshakes apart, has no effect exactly if its header is rejected, or it is a DATA message that the
keys of an earlier session fail to open, or a CLOSE of a record that is closed. -/
theorem gate_iff {peer : P2PPeer} (closed : peer.state ≠ .established) {type : P2PMessageType}
    (gated : gatedType type) {msg : P2PMessage} (code : msg.type = type.code) (env : Env)
    (msgLen : ℕ) :
    (∀ payload sh, sendMessage env peer type payload sh = ⟨-1, peer, sh⟩) ∧
    ((∀ now sh, Ignored { env with now := now } peer msg msgLen sh) ↔
      headerOk msg msgLen = false ∨
      (type = .data ∧ (peer.isSecure = true ∧ sealSize < msg.payloadLen.toNat) ∧
        openPayload env peer msg = none) ∨
      (type = .close ∧ peer.state = .disconnected)) := by
  refine ⟨fun payload sh => sendMessage_refuses closed gated env payload sh, ?_⟩
  by_cases header : headerOk msg msgLen = true
  · have oftype : P2PMessageType.ofCode msg.type = some type := by
      rw [code, P2PMessageType.ofCode_code]
    have later : peer.lastActivity + 1 ≠ peer.lastActivity :=
      Int.ne_of_gt (Int.lt_succ peer.lastActivity)
    simp only [Ignored, processMessage_accepted header, dispatch, oftype, header,
      Bool.true_eq_false, false_or]
    cases type with
    | handshake => exact absurd rfl gated.1
    | handshakeResponse => exact absurd rfl gated.2
    | data =>
      simp only [true_and, reduceCtorEq, false_and, or_false]
      constructor
      · intro h
        exact (handleData_ignored_iff { env with now := peer.lastActivity + 1 } later msg .init).1
          (h _ .init)
      · rintro ⟨secure, fails⟩ now sh
        unfold handleData
        have fails' : openPayload { env with now := now } peer msg = none := fails
        rw [if_pos secure, fails']
        exact ⟨rfl, rfl⟩
    | keepalive =>
      simp only [reduceCtorEq, false_and, or_false, iff_false]
      intro h
      exact activity_ne later
        (h _ .init).1
    | close =>
      simp only [reduceCtorEq, false_and, false_or, true_and]
      constructor
      · intro h
        exact (congrArg P2PPeer.state (h 0 .init).1).symm
      · intro hst now sh
        refine ⟨?_, rfl⟩
        rw [← hst]
    | addRequest =>
      simp only [reduceCtorEq, false_and, or_false, iff_false]
      intro h
      refine push_queue_ne ?_ _ ?_ (congrArg Store.queue (h 0 .init).2)
      · exact init_room
      · rfl
    | acceptConfirm =>
      simp only [reduceCtorEq, false_and, or_false, iff_false]
      intro h
      exact handleAcceptConfirm_push _ peer msg (h 0 .init).2
    | rejectConfirm =>
      simp only [reduceCtorEq, false_and, or_false, iff_false]
      intro h
      refine push_queue_ne ?_ _ ?_ (congrArg Store.queue (h 0 .init).2)
      · exact init_room
      · rfl
  · have rejected : headerOk msg msgLen = false := by simpa using header
    refine ⟨fun _ => Or.inl rejected, fun _ now sh => ?_⟩
    unfold Ignored
    rw [processMessage_rejected header]
    exact ⟨rfl, rfl⟩

/-- A DATA message of a closed peer whose text is not encrypted. -/
theorem gate_iff_fresh :
    (∀ payload sh, sendMessage .failing mallory .data payload sh = ⟨-1, mallory, sh⟩) ∧
    ((∀ now sh, Ignored { Env.failing with now := now } mallory (.make 0 .data (ascii "hi")) 22 sh) ↔
      headerOk (.make 0 .data (ascii "hi")) 22 = false ∨
      (P2PMessageType.data = .data ∧
        (mallory.isSecure = true ∧ sealSize < (P2PMessage.make 0 .data (ascii "hi")).payloadLen.toNat) ∧
        openPayload .failing mallory (.make 0 .data (ascii "hi")) = none) ∨
      (P2PMessageType.data = .close ∧ mallory.state = .disconnected)) :=
  gate_iff (by decide) ⟨by decide, by decide⟩ rfl .failing 22

/-! ## A message after the connection was closed -/

/-- Surroundings in which `bob` is found and reached at 10.0.0.2:9000. -/
def reachesBob : Env :=
  { Env.failing with
    crypto := { Crypto.failing with rsaSignString := fun _ _ => some (ascii "sig") }
    identity := some ⟨ascii "amy", ascii "amy", .normal, ascii "pub", ascii "priv", []⟩
    createUdpSocket := 3
    sendto := fun _ _ _ => true
    dhtNodeLookup := some fun _ => some (⟨ascii "10.0.0.2", by decide⟩, 9000)
    punchMultiStrategy := fun _ _ => 0 }

/-- The address of `bob`. -/
def bobAddr : SockAddrIn := ⟨(10, 0, 0, 2), 9000⟩

/-- A datagram of a message, at the start of the receive buffer. -/
def datagramOf (type : P2PMessageType) (payload : Bytes) : P2PCall :=
  .datagram bobAddr (P2PMessage.make 0 type payload).toBytes (headerSize + payload.length)

/-- After `bob` closed the connection, his DATA message is delivered all the same. -/
theorem data_after_close :
    let closed := History.run p2pStep .init
      [(reachesBob, .connect (ascii "bob")), (reachesBob, datagramOf .handshakeResponse [1]),
        (reachesBob, datagramOf .close [0])]
    let after := p2pStep closed (reachesBob, datagramOf .data (ascii "hi"))
    closed.peers.map P2PPeer.state = [.disconnected] ∧
      closed.shared.sm.messages = [] ∧ after.shared.sm.messages = [ascii "bob|hi"] := by
  decide

end Orcashi
