import Orcashi.GhostDelivery
import Orcashi.P2P.Peer

/-!
# Which records a message can touch

The listener maps a datagram to one record of the P2P manager by the sender's address.  Whatever
the message says, it should change nothing that the state manager stores under another id: neither
at once nor when the events it leaves in the queue are processed later.  The three messages that
carry an id act on the id they carry.
-/

namespace Orcashi

open CMemory

/-! ## Events -/

/-- The id the handler of an event acts on. -/
def Event.subject (ev : Event) : CString :=
  match ev.type with
  | .addRequest | .acceptConfirm | .rejectConfirm | .messageReceived => ev.fromId
  | .peerOnline | .peerOffline | .statusUpdate | .dhtFound | .dhtNotFound => ev.peerId
  | .none | .ghostDelivered | .error => []

/-- Nothing stored under another id than `x` has changed. -/
def Store.FrameExcept (x : CString) (s s' : Store) : Prop := s.sm.FrameExcept x s'.sm

namespace Store.FrameExcept

variable {x : CString} {s t u : Store}

theorem refl (x : CString) (s : Store) : FrameExcept x s s := StateManager.FrameExcept.refl x s.sm

theorem trans (hst : FrameExcept x s t) (htu : FrameExcept x t u) : FrameExcept x s u :=
  StateManager.FrameExcept.trans hst htu

/-- A write through the pointer to a record of `x`. -/
theorem modify {id : CString} {f : Peer → Peer} (h : FrameExcept x s t) (names : Names id x)
    (keeps : ∀ p, (f p).id = p.id) : FrameExcept x s (t.call (modifyPeer id f)) :=
  h.trans (modifyPeer_frame keeps names t.sm)

theorem update {id : CString} (h : FrameExcept x s t) (names : Names id x) (now : Time)
    (st : PeerState) : FrameExcept x s (t.call (stateUpdatePeer now id st)) :=
  h.modify names (by intro p; rfl)

theorem online {id : CString} (h : FrameExcept x s t) (names : Names id x) (now : Time)
    (online : Bool) : FrameExcept x s (t.call (stateSetOnline now id online)) :=
  h.modify names (by intro p; rfl)

theorem address {id : CString} (h : FrameExcept x s t) (names : Names id x) (ip : CString)
    (port : ℤ) :
    FrameExcept x s ((t.call (stateSetIp id ip)).call (stateSetPort id port)) :=
  FrameExcept.modify (h.modify names (by intro p; rfl)) names (by intro p; rfl)

end Store.FrameExcept

/-- Processing an event leaves alone what is stored under other ids than the one it acts on. -/
theorem eventProcess_frame {ev : Event} {x : CString} (names : Names ev.subject x) (now : Time)
    (s : Store) : s.FrameExcept x (eventProcess now ev s).2 := by
  have start := Store.FrameExcept.refl x s
  unfold Event.subject at names
  unfold eventProcess
  cases ht : ev.type <;> simp only [ht] at names ⊢
  case none => exact start
  case ghostDelivered => exact start
  case error => exact start
  case addRequest => exact (start.update names now _).address names ev.ip ev.port
  case acceptConfirm =>
    exact (((start.update names now _).online names now true).address names ev.ip ev.port).trans
      (deliver_frame names now _)
  case rejectConfirm => exact stateRemovePeer_frame names s.sm
  case messageReceived =>
    have seen : s.FrameExcept x
        ((s.call (stateSetOnline now ev.fromId true)).call (stateUpdateLastSeen now ev.fromId)) :=
      (start.online names now true).modify names (by intro p; rfl)
    exact seen.trans (stateAddMessage_frame x _ _ _)
  case peerOnline =>
    exact ((start.online names now true).address names ev.ip ev.port).trans
      (deliver_frame names now _)
  case peerOffline => exact start.online names now false
  case statusUpdate =>
    apply eventHandleStatusUpdate_preserves (P := s.FrameExcept x) _ _ _ start
    · exact fun t h => h.modify names (by intro p; rfl)
    · exact fun t h => h.modify names (by intro p; rfl)
    · exact fun t h => h.modify names (by intro p; rfl)
  case dhtFound => exact (start.address names ev.ip ev.port).online names now true
  case dhtNotFound => exact start.online names now false

/-! ## Steps that stay with one id -/

/-- A step touches only what is stored under `x`, and so will the events it leaves in the queue,
whenever they are processed. -/
structure Attributed (x : CString) (s s' : Store) : Prop where
  frame : s.FrameExcept x s'
  events : ∃ evs, s'.queue.toList = s.queue.toList ++ evs ∧
    ∀ ev ∈ evs, ∀ now t, Store.FrameExcept x t (eventProcess now ev t).2

namespace Attributed

variable {x : CString} {s t u : Store}

theorem refl (x : CString) (s : Store) : Attributed x s s where
  frame := .refl x s
  events := ⟨[], by simp, by simp⟩

theorem trans (hst : Attributed x s t) (htu : Attributed x t u) : Attributed x s u := by
  obtain ⟨evs, hq, hevs⟩ := hst.events
  obtain ⟨evs', hq', hevs'⟩ := htu.events
  refine ⟨hst.frame.trans htu.frame, evs ++ evs', ?_, ?_⟩
  · rw [hq', hq, List.append_assoc]
  · intro ev hev
    rcases List.mem_append.1 hev with hev | hev
    · exact hevs ev hev
    · exact hevs' ev hev

/-- A step that pushes nothing. -/
theorem of_frame (frame : s.FrameExcept x t) (queue : t.queue = s.queue) : Attributed x s t :=
  ⟨frame, [], by rw [queue, List.append_nil], by simp⟩

theorem push {ev : Event} (names : Names ev.subject x) (s : Store) : Attributed x s (s.push ev) := by
  refine ⟨.refl x s, [ev].take (eventQueueSize - s.queue.count), ?_, ?_⟩
  · show (eventQueuePush ev s.queue).2.toList = _
    rw [eventQueuePush_snd]
    exact toList_offer ev s.queue
  · intro ev' hev' now t
    obtain rfl := List.mem_singleton.1 (List.mem_of_mem_take hev')
    exact eventProcess_frame names now t

theorem deliver {id : CString} (names : Names id x) (now : Time) (s : Store) :
    Attributed x s (s.deliver now id) := by
  obtain ⟨-, -, hq, -⟩ := stateDeliverGhostMessages_spec now now id s
  refine ⟨deliver_frame names now s, _, hq, ?_⟩
  intro ev hev now' t
  obtain ⟨gm, -, rfl⟩ := List.mem_map.1 (List.mem_of_mem_take hev)
  exact eventProcess_frame (Or.inr rfl) now' t

end Attributed

/-! ## Messages -/

theorem announceFriend_attributed (env : Env) (peer : P2PPeer) (s : Store) :
    Attributed peer.id.val s (announceFriend env peer s) := by
  have self := names_self peer.id.val
  have frame := (((Store.FrameExcept.refl _ s).update self env.now .friend).online self env.now
    true).address self peer.ip.val peer.port
  refine (Attributed.of_frame frame rfl).trans (.push ?_ _)
  exact names_nil peer.id.val

theorem handleHandshake_attributed (env : Env) (peer : P2PPeer) (msg : P2PMessage) (sh : Shared) :
    Attributed peer.id.val sh.toStore (handleHandshake env peer msg sh).shared.toStore := by
  obtain ⟨es, -, ⟨-, h⟩ | ⟨id, pubkey, signature, identity, -, -, h⟩⟩ :=
    handleHandshake_cases env peer msg sh
  · rw [h]
    exact .refl _ _
  · rw [h]
    rcases acceptHandshake_cases env peer identity id pubkey signature (sh.record es) with
      ⟨-, h⟩ | ⟨-, ⟨-, h⟩ | ⟨_, _, -, h | ⟨_, h⟩⟩⟩ <;> rw [h]
    · exact .refl _ _
    · exact .refl _ _
    · exact .refl _ _
    · exact announceFriend_attributed env peer sh.toStore

theorem receiveText_attributed (env : Env) (peer : P2PPeer) (text : CString) (sh : Shared) :
    Attributed peer.id.val sh.toStore (receiveText env peer text sh).toStore := by
  refine (Attributed.push ?_ sh.toStore).trans (.of_frame ?_ rfl)
  · exact names_self peer.id.val
  · exact stateAddMessage_frame _ _ _ _

theorem handleData_attributed (env : Env) (peer : P2PPeer) (msg : P2PMessage) (sh : Shared) :
    Attributed peer.id.val sh.toStore (handleData env peer msg sh).shared.toStore := by
  unfold handleData
  split_ifs
  · cases openPayload env peer msg with
    | none => exact .refl _ _
    | some plaintext => exact receiveText_attributed env peer _ _
  · exact receiveText_attributed env peer _ _

theorem handleAddRequest_attributed {env : Env} {peer : P2PPeer} {msg : P2PMessage} {x : CString}
    (names : Names (payloadText msg) x) (sh : Shared) :
    Attributed x sh.toStore (handleAddRequest env peer msg sh).shared.toStore := by
  have frame := ((Store.FrameExcept.refl x sh.toStore).update names env.now .requestReceived).address
    names peer.ip.val peer.port
  refine (Attributed.of_frame frame rfl).trans (.push ?_ _)
  exact names

theorem handleAcceptConfirm_attributed {env : Env} {peer : P2PPeer} {msg : P2PMessage} {x : CString}
    (names : Names (payloadText msg) x) (sh : Shared) :
    Attributed x sh.toStore (handleAcceptConfirm env peer msg sh).shared.toStore := by
  have frame := (((Store.FrameExcept.refl x sh.toStore).update names env.now .friend).online names
    env.now true).address names peer.ip.val peer.port
  refine ((Attributed.of_frame frame rfl).trans (.deliver names env.now _)).trans (.push ?_ _)
  exact names_nil x

theorem handleRejectConfirm_attributed {env : Env} {peer : P2PPeer} {msg : P2PMessage} {x : CString}
    (names : Names (payloadText msg) x) (sh : Shared) :
    Attributed x sh.toStore (handleRejectConfirm env peer msg sh).shared.toStore := by
  have frame : sh.FrameExcept x (sh.call (stateRemovePeer (payloadText msg))) :=
    stateRemovePeer_frame names sh.sm
  refine (Attributed.of_frame frame rfl).trans (.push ?_ _)
  exact names_nil x

/-- The messages whose payload is an id. -/
def carriesId (msg : P2PMessage) : Prop :=
  msg.type = P2PMessageType.addRequest.code ∨ msg.type = P2PMessageType.acceptConfirm.code ∨
    msg.type = P2PMessageType.rejectConfirm.code

/-- What a message does, it does in the name of the sender, unless it carries another id. -/
theorem processMessage_attributed {env : Env} {peer : P2PPeer} {msg : P2PMessage} {msgLen : ℕ}
    (own : headerOk msg msgLen = false ∨ ¬ carriesId msg ∨ Names (payloadText msg) peer.id.val)
    (sh : Shared) :
    Attributed peer.id.val sh.toStore (processMessage env peer msg msgLen sh).shared.toStore := by
  by_cases header : headerOk msg msgLen = true
  · rw [processMessage_accepted header]
    have own := own.resolve_left (by simp [header])
    unfold dispatch
    cases ht : P2PMessageType.ofCode msg.type with
    | none => exact .refl _ _
    | some type =>
      have code := P2PMessageType.code_of_ofCode ht
      cases type with
      | handshake => exact handleHandshake_attributed env peer msg sh
      | handshakeResponse => exact .refl _ _
      | data => exact handleData_attributed env peer msg sh
      | keepalive => exact .refl _ _
      | close => exact .refl _ _
      | addRequest =>
        exact handleAddRequest_attributed (own.resolve_left fun h => h (Or.inl code)) sh
      | acceptConfirm =>
        exact handleAcceptConfirm_attributed (own.resolve_left fun h => h (Or.inr (Or.inl code))) sh
      | rejectConfirm =>
        exact handleRejectConfirm_attributed (own.resolve_left fun h => h (Or.inr (Or.inr code))) sh
  · rw [processMessage_rejected header]
    exact .refl _ _

/-! ## Messages in somebody else's name -/

/-- The store knows one peer, in a given state. -/
def Store.Single (id : CString) (st : PeerState) (s : Store) : Prop :=
  ∃ p, s.sm.peers = [p] ∧ p.id = id ∧ p.state = st

theorem findRecord_single {p : Peer} {id : CString} (same : isSameId p.id id = true) :
    findRecord (normalizeId id) [p] = some ⟨[], p, []⟩ := by
  simp [findRecord, Cursor.find, same]

theorem adjustGhostCount_single {p : Peer} {id : CString} (same : isSameId p.id id = true)
    (f : ℤ → ℤ) :
    adjustGhostCount (normalizeId id) f [p] = [{ p with ghostCount := f p.ghostCount }] := by
  unfold adjustGhostCount
  rw [findRecord_single same]
  rfl

namespace Store.Single

variable {id : CString} {st : PeerState} {s : Store}

theorem modify {f : Peer → Peer} {st' : PeerState} (h : s.Single (normalizeId id) st)
    (some_id : normalizeId id ≠ []) (keeps : ∀ p, (f p).id = p.id)
    (state : ∀ p, p.state = st → (f p).state = st') :
    (s.call (modifyPeer id f)).Single (normalizeId id) st' := by
  obtain ⟨p, hp, hid, hst⟩ := h
  refine ⟨f p, ?_, (keeps p).trans hid, state p hst⟩
  show (modifyPeer id f s.sm).2.peers = _
  unfold modifyPeer
  rw [if_neg some_id, hp, findRecord_single (by simp [hid])]
  rfl

theorem address (h : s.Single (normalizeId id) st) (some_id : normalizeId id ≠ []) (ip : CString)
    (port : ℤ) :
    ((s.call (stateSetIp id ip)).call (stateSetPort id port)).Single (normalizeId id) st :=
  modify (h.modify some_id (by intro p; rfl) (by intro p hp; exact hp)) some_id (by intro p; rfl)
    (by intro p hp; exact hp)

theorem deliver (h : s.Single (normalizeId id) st) (now : Time) :
    (s.deliver now id).Single (normalizeId id) st := by
  obtain ⟨p, hp, hid, hst⟩ := h
  unfold Store.deliver
  rw [stateDeliverGhostMessages_eq]
  split_ifs
  · exact ⟨p, hp, hid, hst⟩
  · have same : isSameId p.id id = true := by simp [hid]
    dsimp only
    rw [hp, adjustGhostCount_single same]
    exact ⟨_, rfl, hid, hst⟩

/-- The only record is in another state than before, so it is not as it was. -/
theorem not_frame {x : CString} {s' : Store} {st' : PeerState} (h : s.Single (normalizeId id) st)
    (h' : s'.Single (normalizeId id) st') (hst : st ≠ st') (foreign : ¬ Names id x) :
    ¬ s.FrameExcept x s' := by
  intro frame
  obtain ⟨p, hp, hid, hp_st⟩ := h
  obtain ⟨p', hp', hid', hp_st'⟩ := h'
  have other : ∀ q : Peer, q.id = normalizeId id → isSameId q.id x = false := by
    intro q hq
    rw [hq, isSameId_normalizeId_left, isSameId_eq_false_iff]
    exact fun same => foreign (Or.inl same)
  have hframe := frame.peers
  rw [hp, hp'] at hframe
  simp only [List.filter_cons, other p hid, other p' hid', Bool.not_false, if_true,
    List.filter_nil, List.cons.injEq, and_true] at hframe
  exact hst (hp_st.symm.trans ((congrArg Peer.state hframe).symm.trans hp_st'))

end Store.Single

/-- A message that carries somebody else's id changes the record of that id. -/
theorem carriesId_changes (env : Env) {peer : P2PPeer} {msg : P2PMessage} {msgLen : ℕ}
    (header : headerOk msg msgLen = true) (carries : carriesId msg)
    (foreign : ¬ Names (payloadText msg) peer.id.val) :
    ∃ sh : Shared, ¬ sh.FrameExcept peer.id.val
      (processMessage env peer msg msgLen sh).shared.toStore := by
  have some_id : normalizeId (payloadText msg) ≠ [] := fun h => foreign (Or.inr h)
  let p : Peer := { Peer.zero with id := normalizeId (payloadText msg) }
  let s : Store := { Store.init with sm := { StateManager.init with peers := [p] } }
  have start : s.Single (normalizeId (payloadText msg)) .unknown := ⟨p, rfl, rfl, rfl⟩
  have updated : ∀ st, (s.call (stateUpdatePeer env.now (payloadText msg) st)).Single
      (normalizeId (payloadText msg)) st := fun st =>
    start.modify some_id (by intro p; rfl) (by intro p _; rfl)
  refine ⟨{ s with trace := [] }, ?_⟩
  rw [processMessage_accepted header]
  unfold dispatch
  rcases carries with code | code | code <;> rw [code, P2PMessageType.ofCode_code]
  · exact start.not_frame ((updated .requestReceived).address some_id peer.ip.val peer.port)
      (by decide) foreign
  · have online : ((s.call (stateUpdatePeer env.now (payloadText msg) .friend)).call
        (stateSetOnline env.now (payloadText msg) true)).Single
        (normalizeId (payloadText msg)) .friend :=
      (updated .friend).modify some_id (by intro p; rfl) (by intro p hp; exact hp)
    exact start.not_frame ((online.address some_id peer.ip.val peer.port).deliver env.now)
      (by decide) foreign
  · intro frame
    have gone : (stateRemovePeer (payloadText msg) s.sm).2.peers = [] := by
      unfold stateRemovePeer
      have found : findRecord (normalizeId (payloadText msg)) s.sm.peers = some ⟨[], p, []⟩ :=
        findRecord_single (by simp [p])
      rw [if_neg some_id, found]
      rfl
    have other : isSameId p.id peer.id.val = false := by
      rw [isSameId_normalizeId_left, isSameId_eq_false_iff]
      exact fun same => foreign (Or.inl same)
    have hframe : ([] : List Peer) = [p].filter fun q => !isSameId q.id peer.id.val := by
      have := frame.peers
      dsimp only [handleRejectConfirm, Shared.onStore, Store.push, Store.call, Shared.record] at this
      rw [gone] at this
      exact this
    simp [other] at hframe

/-- A message that arrives from `x` touches what is stored under `x` and nothing else exactly if it
is rejected, or it carries no id, or the id it carries names `x` or nobody. -/
theorem processMessage_attributed_iff (env : Env) (peer : P2PPeer) (msg : P2PMessage)
    (msgLen : ℕ) :
    (∀ sh : Shared, Attributed peer.id.val sh.toStore
        (processMessage env peer msg msgLen sh).shared.toStore) ↔
      headerOk msg msgLen = false ∨ ¬ carriesId msg ∨ Names (payloadText msg) peer.id.val := by
  constructor
  · intro attributed
    by_contra h
    rw [not_or, not_or, not_not, Bool.not_eq_false] at h
    obtain ⟨header, carries, foreign⟩ := h
    obtain ⟨sh, hsh⟩ := carriesId_changes env header carries foreign
    exact hsh (attributed sh).frame
  · intro own sh
    exact processMessage_attributed own sh

/-- A node that knows `alice` as a friend. -/
def knowsAlice : Shared :=
  { Shared.init with
    sm := { StateManager.init with peers := [{ Peer.zero with id := ascii "alice", state := .friend }] } }

/-- A peer that is new. -/
def mallory : P2PPeer := .fresh .failing (.of (ascii "mallory"))

/-- `mallory` removes the record of `alice` with a REJECT_CONFIRM. -/
theorem rejectConfirm_removes_friend :
    (processMessage .failing mallory (.make 0 .rejectConfirm (ascii "alice")) 25
      knowsAlice).shared.sm.peers = [] ∧
    ¬ Attributed mallory.id.val knowsAlice.toStore
      (processMessage .failing mallory (.make 0 .rejectConfirm (ascii "alice")) 25
        knowsAlice).shared.toStore := by
  have removed : (processMessage .failing mallory (.make 0 .rejectConfirm (ascii "alice")) 25
      knowsAlice).shared.sm.peers = [] := by decide
  refine ⟨removed, fun attributed => ?_⟩
  have frame := attributed.frame.peers
  rw [removed] at frame
  exact absurd frame (by decide)

end Orcashi
