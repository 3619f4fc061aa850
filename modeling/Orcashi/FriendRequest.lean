import Orcashi.Friendship

/-!
# Answering a friend request

An ADD_REQUEST is noted twice in the record of the peer it names, on arrival and when its event is
processed, and the user answers it by `accept` or `reject`.  Nothing on the way makes a record for a
peer that has none, so the request of a stranger is lost.
-/

namespace Orcashi

open CMemory

/-- The node after `handle_add_request` and `event_process` of the event it pushed; `queue` is what
is left in the queue when that event is taken. -/
def requestHandled (env : Env) (now : Time) (peer : P2PPeer) (msg : P2PMessage) (queue : EventQueue)
    (node : Node) : Node :=
  { node with
    shared := (handleAddRequest env peer msg node.shared).shared.onStore fun s =>
      (eventProcess now (requestEvent env peer (payloadText msg)) { s with queue := queue }).2 }

/-- That event is the one `handle_add_request` pushes. -/
theorem handleAddRequest_queue (env : Env) (peer : P2PPeer) (msg : P2PMessage) (sh : Shared) :
    (handleAddRequest env peer msg sh).shared.queue =
      sh.queue.offer (requestEvent env peer (payloadText msg)) :=
  eventQueuePush_snd _ _

/-- There is a record of a request from `x` with the address of `peer`; `accept` finds it and makes a
friend of it, `reject` finds it and removes it. -/
structure Answerable (x : CString) (peer : P2PPeer) (node : Node) : Prop where
  received : ∃ p, stateGetPeer x node.shared.sm = some p ∧ p.state = .requestReceived ∧
    p.ip = peer.ip.val ∧ p.port = peer.port
  accept : ∀ env, (daemonCmdAccept env (some x) node).ret = 0 ∧
    stateIsFriend x (daemonCmdAccept env (some x) node).node.shared.sm = true
  reject : (daemonCmdReject (some x) node).ret = 0 ∧
    ∃ c, findRecord (normalizeId x) node.shared.sm.peers = some c ∧
      (daemonCmdReject (some x) node).node.shared.sm.peers = c.erase

/-! ## The record -/

/-- The state of a record and where its peer was seen. -/
def Peer.contact (st : PeerState) (ip : CString) (port : ℤ) (now : Time) (p : Peer) : Peer :=
  { p with
    state := st
    lastSeen := now
    friendSince := if st = .friend then now else p.friendSince
    ip := ip
    port := port }

theorem stateGetPeer_contact (x : CString) (st : PeerState) (ip : CString) (port : ℤ) (now : Time)
    (s : Store) :
    stateGetPeer x (((s.call (stateUpdatePeer now x st)).call (stateSetIp x ip)).call
        (stateSetPort x port)).sm =
      (stateGetPeer x s.sm).map (Peer.contact st ip port now) := by
  have port_set (sm : StateManager) : stateGetPeer x (stateSetPort x port sm).2 =
      (stateGetPeer x sm).map fun p => { p with port := port } :=
    stateGetPeer_modifyPeer_self x (by intro p; rfl) sm
  have ip_set (sm : StateManager) : stateGetPeer x (stateSetIp x ip sm).2 =
      (stateGetPeer x sm).map fun p => { p with ip := ip } :=
    stateGetPeer_modifyPeer_self x (by intro p; rfl) sm
  have updated (sm : StateManager) : stateGetPeer x (stateUpdatePeer now x st sm).2 =
      (stateGetPeer x sm).map fun p =>
        { p with
          state := st
          lastSeen := now
          friendSince := if st = .friend then now else p.friendSince } :=
    stateGetPeer_modifyPeer_self x (by intro p; rfl) sm
  rw [Store.call_sm, Store.call_sm, Store.call_sm, port_set, ip_set, updated, Option.map_map,
    Option.map_map]
  rfl

/-- Both times the record of the peer is written, if there is one. -/
theorem stateGetPeer_requestHandled (env : Env) (now : Time) (peer : P2PPeer) (msg : P2PMessage)
    (queue : EventQueue) (node : Node) :
    stateGetPeer (payloadText msg) (requestHandled env now peer msg queue node).shared.sm =
      (stateGetPeer (payloadText msg) node.shared.sm).map fun p =>
        (p.contact .requestReceived peer.ip.val peer.port env.now).contact .requestReceived
          peer.ip.val peer.port now := by
  have twice := stateGetPeer_contact (payloadText msg) .requestReceived peer.ip.val peer.port now
    { requestFriend env peer (payloadText msg) node.shared.toStore with queue := queue }
  have once := stateGetPeer_contact (payloadText msg) .requestReceived peer.ip.val peer.port env.now
    node.shared.toStore
  refine twice.trans ?_
  have pushed : (requestFriend env peer (payloadText msg) node.shared.toStore).sm =
      (((node.shared.toStore.call (stateUpdatePeer env.now (payloadText msg) .requestReceived)).call
        (stateSetIp (payloadText msg) peer.ip.val)).call
          (stateSetPort (payloadText msg) peer.port)).sm := rfl
  dsimp only
  rw [pushed, once, Option.map_map]
  rfl

/-! ## The answers -/

theorem peerIdArg_of_lt {args : CString} (fits : args.length < idSize) : peerIdArg args = args := by
  unfold peerIdArg cut
  apply List.take_of_length_le
  omega

theorem isFriend_updatePeer {x : CString} {sm : StateManager} {p : Peer}
    (found : stateGetPeer x sm = some p) (now : Time) :
    IsFriend x (stateUpdatePeer now x .friend sm).2 := by
  unfold IsFriend stateUpdatePeer
  rw [stateGetPeer_modifyPeer_self x (by intro p; rfl), found]
  rfl

/-- `accept` makes a friend of a peer that asked. -/
theorem daemonCmdAccept_received {x : CString} (fits : x.length < idSize) {node : Node} {p : Peer}
    (found : stateGetPeer x node.shared.sm = some p) (received : p.state = .requestReceived)
    (env : Env) :
    (daemonCmdAccept env (some x) node).ret = 0 ∧
      IsFriend x (daemonCmdAccept env (some x) node).node.shared.sm := by
  unfold daemonCmdAccept
  dsimp only
  rw [peerIdArg_of_lt fits, found]
  dsimp only
  rw [if_neg (not_not_intro received)]
  have updated : IsFriend x (node.onStore fun s =>
      s.call (stateUpdatePeer env.now x .friend)).shared.sm := isFriend_updatePeer found env.now
  by_cases address : p.ip ≠ [] ∧ 0 < p.port
  · rw [if_pos address]
    exact ⟨rfl, IsFriend.deliver (p2pAccept_friend updated env x) env.now x⟩
  · rw [if_neg address]
    exact ⟨rfl, IsFriend.deliver updated env.now x⟩

/-- `reject` removes a peer that asked. -/
theorem daemonCmdReject_received {x : CString} (fits : x.length < idSize) {node : Node} {p : Peer}
    (found : stateGetPeer x node.shared.sm = some p) (received : p.state = .requestReceived) :
    (daemonCmdReject (some x) node).ret = 0 ∧
      ∃ c, findRecord (normalizeId x) node.shared.sm.peers = some c ∧
        (daemonCmdReject (some x) node).node.shared.sm.peers = c.erase := by
  unfold daemonCmdReject
  dsimp only
  rw [peerIdArg_of_lt fits, found]
  dsimp only
  rw [if_neg (not_not_intro received)]
  refine ⟨rfl, ?_⟩
  unfold stateGetPeer at found
  split_ifs at found with hid
  obtain ⟨c, hc, -⟩ := Option.map_eq_some_iff.1 found
  refine ⟨c, hc, ?_⟩
  show (stateRemovePeer x node.shared.sm).2.peers = c.erase
  unfold stateRemovePeer
  rw [if_neg hid, hc]

/-- A request that was handled can be answered exactly if its peer had a record before. -/
theorem request_answerable_iff {env : Env} {now : Time} {peer : P2PPeer} {msg : P2PMessage}
    {queue : EventQueue} {node : Node} (fits : (payloadText msg).length < idSize) :
    Answerable (payloadText msg) peer (requestHandled env now peer msg queue node) ↔
      (stateGetPeer (payloadText msg) node.shared.sm).isSome = true := by
  have record := stateGetPeer_requestHandled env now peer msg queue node
  constructor
  · intro answerable
    obtain ⟨p, found, -⟩ := answerable.received
    rw [record] at found
    obtain ⟨q, hq, -⟩ := Option.map_eq_some_iff.1 found
    rw [hq]
    rfl
  · intro known
    obtain ⟨p, hp⟩ := Option.isSome_iff_exists.1 known
    rw [hp, Option.map_some] at record
    refine ⟨⟨_, record, rfl, rfl, rfl⟩, ?_, daemonCmdReject_received fits record rfl⟩
    intro env
    obtain ⟨ret, friend⟩ := daemonCmdAccept_received fits record rfl env
    exact ⟨ret, stateIsFriend_iff.2 friend⟩

theorem request_answerable_iff_mallory :
    Answerable (payloadText (.make 0 .addRequest (ascii "alice"))) mallory
        (requestHandled .failing 1 mallory (.make 0 .addRequest (ascii "alice")) .init
          ⟨[], true, knowsAlice⟩) ↔
      (stateGetPeer (payloadText (.make 0 .addRequest (ascii "alice"))) knowsAlice.sm).isSome = true :=
  request_answerable_iff (by decide)

/-- Nothing is known of a stranger who asked. -/
theorem stranger_unanswerable :
    normalizeId (payloadText (.make 0 .addRequest (ascii "bob"))) ≠ [] ∧
      ¬ Answerable (payloadText (.make 0 .addRequest (ascii "bob"))) mallory
        (requestHandled .failing 1 mallory (.make 0 .addRequest (ascii "bob")) .init .init) := by
  refine ⟨by decide, ?_⟩
  rintro ⟨⟨p, found, -⟩, -, -⟩
  have none : stateGetPeer (payloadText (.make 0 .addRequest (ascii "bob")))
      (requestHandled .failing 1 mallory (.make 0 .addRequest (ascii "bob")) .init
        .init).shared.sm = none := by decide
  rw [none] at found
  cases found

end Orcashi
