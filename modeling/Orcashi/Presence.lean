import Orcashi.Daemon
import Orcashi.PeerTable
import Orcashi.StoreEffects

/-!
# Presence

The online flag of a record has two writers: the thread that sees the peer come or go, at once, and
the event thread, when it reaches the event of it.  With the queue empty the flag is right as long as
each transition leaves its mark where it is read last: in the queue, or in the flag when no event
about the peer is waiting.
-/

namespace Orcashi

open CMemory

/-! ## Tables that list a map -/

/-- The table lists the records of some map from ids. -/
def Keyed (sm : StateManager) : Prop := ∃ m, Represents sm m

namespace Keyed

variable {sm : StateManager}

theorem modify (h : Keyed sm) (id : CString) {f : Peer → Peer} (keeps : ∀ p, (f p).id = p.id) :
    Keyed (modifyPeer id f sm).2 := by
  obtain ⟨m, rep⟩ := h
  exact ⟨_, (rep.modify id keeps).2⟩

theorem update (h : Keyed sm) (now : Time) (id : CString) (st : PeerState) :
    Keyed (stateUpdatePeer now id st sm).2 := h.modify id (by intro p; rfl)

theorem setOnline (h : Keyed sm) (now : Time) (id : CString) (online : Bool) :
    Keyed (stateSetOnline now id online sm).2 := h.modify id (by intro p; rfl)

theorem address (h : Keyed sm) (id ip : CString) (port : ℤ) :
    Keyed (stateSetPort id port (stateSetIp id ip sm).2).2 :=
  Keyed.modify (h.modify id (by intro p; rfl)) id (by intro p; rfl)

theorem remove (h : Keyed sm) (id : CString) : Keyed (stateRemovePeer id sm).2 := by
  obtain ⟨m, rep⟩ := h
  exact ⟨_, (rep.remove id).2⟩

theorem deliver {s : Store} (h : Keyed s.sm) (now : Time) (id : CString) :
    Keyed (s.deliver now id).sm := by
  obtain ⟨m, rep⟩ := h
  unfold Store.deliver
  rw [stateDeliverGhostMessages_eq]
  by_cases hid : normalizeId id = []
  · rw [if_pos hid]
    exact ⟨m, rep⟩
  · obtain ⟨k, -, text⟩ := PeerKey.ofId_eq_some hid
    rw [if_neg hid, ← text]
    exact ⟨_, rep.adjust k _ _⟩

theorem addMessage (h : Keyed sm) (fromId message : CString) :
    Keyed (stateAddMessage fromId message sm).2 := by
  unfold stateAddMessage
  obtain ⟨m, values, ids, size_le⟩ := h
  split_ifs <;> exact ⟨m, values, ids, size_le⟩

/-- Nobody is found under an id that was removed. -/
theorem getPeer_removed (h : Keyed sm) (id : CString) :
    stateGetPeer id (stateRemovePeer id sm).2 = none := by
  obtain ⟨m, rep⟩ := h
  rw [(rep.remove id).2.getPeer]
  exact PeerMap.get_remove_self m id

end Keyed

theorem eventProcess_keyed (now : Time) (ev : Event) {s : Store} (h : Keyed s.sm) :
    Keyed (eventProcess now ev s).2.sm := by
  unfold eventProcess
  cases ev.type with
  | none | ghostDelivered | error => exact h
  | addRequest => exact (h.update now _ _).address _ _ _
  | acceptConfirm => exact (((h.update now _ _).setOnline now _ true).address _ _ _).deliver now _
  | rejectConfirm => exact h.remove _
  | messageReceived =>
    exact (Keyed.modify (h.setOnline now _ true) ev.fromId (by intro p; rfl)).addMessage _ _
  | peerOnline => exact ((h.setOnline now _ true).address _ _ _).deliver now _
  | peerOffline | dhtNotFound => exact h.setOnline now _ false
  | dhtFound => exact (h.address _ _ _).setOnline now _ true
  | statusUpdate =>
    apply eventHandleStatusUpdate_preserves (P := fun t => Keyed t.sm) _ _ _ h
    · exact fun t ht => ht.modify ev.peerId (by intro p; rfl)
    · exact fun t ht => ht.modify ev.peerId (by intro p; rfl)
    · exact fun t ht => ht.modify ev.peerId (by intro p; rfl)

theorem messageEffect_keyed (env : Env) (peer : P2PPeer) (text : CString) (type : P2PMessageType)
    {s : Store} (h : Keyed s.sm) : Keyed (messageEffect env peer text s type).sm := by
  cases type with
  | handshakeResponse | keepalive | close => exact h
  | handshake => exact ((h.update env.now _ _).setOnline env.now _ true).address _ _ _
  | data => exact h.addMessage _ _
  | addRequest => exact (h.update env.now _ _).address _ _ _
  | acceptConfirm =>
    have friend : Keyed ((((s.call (stateUpdatePeer env.now text .friend)).call
        (stateSetOnline env.now text true)).call (stateSetIp text peer.ip.val)).call
          (stateSetPort text peer.port)).sm :=
      ((h.update env.now _ _).setOnline env.now _ true).address _ _ _
    exact friend.deliver env.now text
  | rejectConfirm => exact h.remove _

/-! ## The flag and the waiting events -/

/-- The online flag of `x`, if there is a record. -/
def onlineFlag (x : CString) (sm : StateManager) : Option Bool :=
  (stateGetPeer x sm).map Peer.online

/-- What the handler of an event makes of the online flag of `x`. -/
def Event.presence (x : CString) (ev : Event) : Option Bool :=
  if isSameId ev.subject x then
    match ev.type with
    | .acceptConfirm | .messageReceived | .peerOnline | .dhtFound => some true
    | .peerOffline | .dhtNotFound => some false
    | _ => none
  else none

/-- What the last event that concerns the online flag of `x` will make of it. -/
def lastQueued (x : CString) (queue : EventQueue) : Option Bool :=
  (queue.toList.filterMap (Event.presence x)).getLast?

theorem lastQueued_append {x : CString} {q q' : EventQueue} {evs : List Event}
    (h : q'.toList = q.toList ++ evs) :
    lastQueued x q' = ((evs.filterMap (Event.presence x)).getLast?).or (lastQueued x q) := by
  unfold lastQueued
  rw [h, List.filterMap_append, List.getLast?_append]

theorem onlineFlag_setOnline (x : CString) (now : Time) (id : CString) (online : Bool)
    (sm : StateManager) :
    onlineFlag x (stateSetOnline now id online sm).2 =
      (onlineFlag x sm).map fun b => (if isSameId id x then some online else none).getD b := by
  unfold onlineFlag stateSetOnline
  rw [stateGetPeer_modifyPeer x id (by intro p; rfl)]
  by_cases same : normalizeId id = normalizeId x
  · rw [if_pos same, if_pos (isSameId_iff.2 same), Option.map_map, Option.map_map]
    rfl
  · have other : ¬ isSameId id x = true := fun h => same (isSameId_iff.1 h)
    rw [if_neg same, if_neg other]
    exact Option.map_id'.symm

/-- A step writes the online flag of `x`, leaves an event about it as the last one, or does both or
neither. -/
structure Signals (x : CString) (written queued : Option Bool) (s s' : Store) : Prop where
  flag : onlineFlag x s'.sm = (onlineFlag x s.sm).map fun b => written.getD b
  last : lastQueued x s'.queue = queued.or (lastQueued x s.queue)

namespace Signals

variable {x : CString} {w q : Option Bool} {s t : Store}

theorem refl (x : CString) (s : Store) : Signals x none none s s where
  flag := Option.map_id'.symm
  last := rfl

theorem trans {w' q' : Option Bool} {u : Store} (hst : Signals x w q s t)
    (htu : Signals x w' q' t u) : Signals x (w'.or w) (q'.or q) s u where
  flag := by
    rw [htu.flag, hst.flag, Option.map_map]
    congr 1
    funext b
    cases w' <;> rfl
  last := by
    rw [htu.last, hst.last, Option.or_assoc]

/-- A write that leaves the online flags alone. -/
theorem modify (h : Signals x w q s t) (id : CString) {f : Peer → Peer}
    (keeps : ∀ p, (f p).id = p.id) (same : ∀ p, (f p).online = p.online) :
    Signals x w q s (t.call (modifyPeer id f)) where
  flag := by
    rw [← h.flag]
    exact getPeer_map_modifyPeer x id keeps same t.sm
  last := h.last

theorem update (h : Signals x w q s t) (now : Time) (id : CString) (st : PeerState) :
    Signals x w q s (t.call (stateUpdatePeer now id st)) :=
  h.modify id (by intro p; rfl) (by intro p; rfl)

theorem address (h : Signals x w q s t) (id ip : CString) (port : ℤ) :
    Signals x w q s ((t.call (stateSetIp id ip)).call (stateSetPort id port)) :=
  Signals.modify (h.modify id (by intro p; rfl) (by intro p; rfl)) id (by intro p; rfl)
    (by intro p; rfl)

theorem setOnline (h : Signals x none q s t) (now : Time) (id : CString) (online : Bool) :
    Signals x (if isSameId id x then some online else none) q s
      (t.call (stateSetOnline now id online)) where
  flag := by
    show onlineFlag x (stateSetOnline now id online t.sm).2 = _
    rw [onlineFlag_setOnline, h.flag]
    exact congrArg (Option.map _) Option.map_id'
  last := h.last

theorem addMessage (h : Signals x w q s t) (fromId message : CString) :
    Signals x w q s (t.call (stateAddMessage fromId message)) where
  flag := by
    rw [← h.flag]
    unfold onlineFlag
    rw [Store.call_sm, stateGetPeer_addMessage]
  last := h.last

/-- An event finds room in the queue or is lost. -/
theorem push (h : Signals x w none s t) (ev : Event) :
    Signals x w (if t.queue.count < eventQueueSize then ev.presence x else none) s (t.push ev) where
  flag := h.flag
  last := by
    have queue : (t.push ev).queue.toList =
        t.queue.toList ++ [ev].take (eventQueueSize - t.queue.count) := by
      show (eventQueuePush ev t.queue).2.toList = _
      rw [eventQueuePush_snd]
      exact toList_offer ev t.queue
    rw [lastQueued_append queue, h.last, Option.none_or]
    by_cases room : t.queue.count < eventQueueSize
    · rw [if_pos room, List.take_of_length_le (by rw [List.length_singleton]; omega)]
      congr 1
      cases about : ev.presence x <;> simp [about]
    · rw [if_neg room, Nat.sub_eq_zero_of_le (Nat.not_lt.1 room)]
      rfl

/-- An event that says nothing about `x`. -/
theorem push_silent (h : Signals x w none s t) {ev : Event} (silent : ev.presence x = none) :
    Signals x w none s (t.push ev) := by
  have pushed := h.push ev
  rwa [silent, ite_self] at pushed

theorem deliver (h : Signals x w none s t) (now : Time) (id : CString) :
    Signals x w none s (t.deliver now id) where
  flag := by
    rw [← h.flag]
    exact getPeer_map_deliver (by intro p n; rfl) x now id t
  last := by
    obtain ⟨-, -, queue, -⟩ := stateDeliverGhostMessages_spec now now id t
    rw [← h.last]
    refine (lastQueued_append queue).trans ?_
    have silent : (((pendingMessages id t.sm).map (ghostDeliveredEvent now (normalizeId id))).take
        (eventQueueSize - t.queue.count)).filterMap (Event.presence x) = [] := by
      rw [List.filterMap_eq_nil_iff]
      intro ev hev
      obtain ⟨gm, -, rfl⟩ := List.mem_map.1 (List.mem_of_mem_take hev)
      exact ite_self none
    rw [silent]
    rfl

theorem remove (h : Signals x w q s t) {id : CString} (other : isSameId id x = false) :
    Signals x w q s (t.call (stateRemovePeer id)) where
  flag := by
    rw [← h.flag]
    unfold onlineFlag
    rw [Store.call_sm, stateGetPeer_removePeer (isSameId_eq_false_iff.1 other)]
  last := h.last

end Signals

/-- Processing an event does to the flag what the event says. -/
theorem eventProcess_signals {x : CString} (now : Time) {ev : Event}
    (stays : ev.type = .rejectConfirm → isSameId ev.fromId x = false) (s : Store) :
    Signals x (ev.presence x) none s (eventProcess now ev s).2 := by
  have start := Signals.refl x s
  unfold eventProcess Event.presence Event.subject
  cases type : ev.type with
  | none | ghostDelivered | error =>
    dsimp only
    rw [ite_self]
    exact start
  | addRequest =>
    dsimp only
    rw [ite_self]
    exact (start.update now _ _).address _ _ _
  | acceptConfirm =>
    exact (((start.update now _ _).setOnline now ev.fromId true).address _ _ _).deliver now _
  | rejectConfirm =>
    dsimp only
    rw [ite_self]
    exact start.remove (stays type)
  | messageReceived =>
    have seen := (start.setOnline now ev.fromId true).modify ev.fromId
      (f := fun p => { p with lastSeen := now }) (by intro p; rfl) (by intro p; rfl)
    exact seen.addMessage _ _
  | peerOnline => exact ((start.setOnline now ev.peerId true).address _ _ _).deliver now _
  | peerOffline | dhtNotFound => exact start.setOnline now ev.peerId false
  | dhtFound => exact (start.address _ _ _).setOnline now ev.peerId true
  | statusUpdate =>
    dsimp only
    rw [ite_self]
    apply eventHandleStatusUpdate_preserves (P := Signals x none none s) _ _ _ start
    · exact fun t h => h.modify ev.peerId (by intro p; rfl) (by intro p; rfl)
    · exact fun t h => h.modify ev.peerId (by intro p; rfl) (by intro p; rfl)
    · exact fun t h => h.modify ev.peerId (by intro p; rfl) (by intro p; rfl)

/-! ## What the P2P manager writes and queues -/

/-- What an accepted message writes to the online flag of `x`. -/
def writtenBy (x : CString) (peer : P2PPeer) (text : CString) : P2PMessageType → Option Bool
  | .handshake => if isSameId peer.id.val x then some true else none
  | .acceptConfirm => if isSameId text x then some true else none
  | _ => none

/-- What the event that an accepted message queues will make of it. -/
def queuedBy (x : CString) (peer : P2PPeer) (queue : EventQueue) : P2PMessageType → Option Bool
  | .data =>
    if queue.count < eventQueueSize then if isSameId peer.id.val x then some true else none
    else none
  | _ => none

/-- The events of confirmations name nobody. -/
theorem presence_confirm {x : CString} (hx : normalizeId x ≠ []) (now : Time) (id : CString) :
    (eventCreate now .acceptConfirm id).presence x = none := by
  have nobody : isSameId [] x = false := isSameId_eq_false_iff.2 fun h => hx h.symm
  exact if_neg (Bool.eq_false_iff.1 nobody)

theorem messageEffect_signals {x : CString} (hx : normalizeId x ≠ []) (env : Env) (peer : P2PPeer)
    (text : CString) (s : Store) {type : P2PMessageType}
    (stays : type = .rejectConfirm → isSameId text x = false) :
    Signals x (writtenBy x peer text type) (queuedBy x peer s.queue type) s
      (messageEffect env peer text s type) := by
  have start := Signals.refl x s
  cases type with
  | handshakeResponse | keepalive | close => exact start
  | handshake =>
    have told := ((start.update env.now peer.id.val .friend).setOnline env.now peer.id.val
      true).address peer.id.val peer.ip.val peer.port
    exact told.push_silent (presence_confirm hx env.now peer.id.val)
  | data => exact (start.push (textEvent env peer text)).addMessage peer.id.val text
  | addRequest =>
    have asked := (start.update env.now text .requestReceived).address text peer.ip.val peer.port
    apply asked.push_silent
    exact ite_self none
  | acceptConfirm =>
    have told := ((start.update env.now text .friend).setOnline env.now text true).address text
      peer.ip.val peer.port
    exact (told.deliver env.now text).push_silent (presence_confirm hx env.now text)
  | rejectConfirm =>
    apply (start.remove (stays rfl)).push_silent
    exact ite_self none

theorem goOffline_signals (x : CString) (env : Env) (id : NormId) (s : Store) :
    Signals x (if isSameId id.val x then some false else none)
      (if s.queue.count < eventQueueSize then if isSameId id.val x then some false else none
        else none) s (goOffline env id.val s) := by
  have event : (eventCreate env.now .peerOffline id.val).presence x =
      if isSameId id.val x then some false else none := by
    show (if isSameId (cut idSize id.val) x then some false else none) = _
    unfold cut
    rw [List.take_of_length_le (Nat.le_sub_one_of_lt id.length_lt)]
  have written := ((Signals.refl x s).setOnline env.now id.val false).push
    (eventCreate env.now .peerOffline id.val)
  rwa [event] at written

theorem count_goOffline (env : Env) (id : CString) (s : Store) :
    (goOffline env id s).queue.count =
      if s.queue.count < eventQueueSize then s.queue.count + 1 else s.queue.count := by
  rw [← RingBuffer.length_toList]
  show (eventQueuePush (eventCreate env.now .peerOffline id) s.queue).2.toList.length = _
  rw [eventQueuePush_snd, toList_offer, List.length_append, RingBuffer.length_toList,
    List.length_take, List.length_singleton]
  split_ifs <;> omega

/-- Giving up several peers. -/
theorem giveUp_signals (x : CString) (env : Env) (ids : List NormId) (s : Store) :
    Signals x (if ids.any fun id => isSameId id.val x then some false else none)
      (if (ids.take (eventQueueSize - s.queue.count)).any fun id => isSameId id.val x then
        some false else none)
      s (ids.foldl (fun s id => goOffline env id.val s) s) := by
  induction ids generalizing s with
  | nil =>
    rw [List.take_nil]
    exact .refl x s
  | cons id ids ih =>
    have all := (goOffline_signals x env id s).trans (ih (goOffline env id.val s))
    have written (a b : Bool) : ((if b then some false else none).or
        (if a then some false else none) : Option Bool) = if a || b then some false else none := by
      cases a <;> cases b <;> rfl
    rw [count_goOffline, written] at all
    by_cases room : s.queue.count < eventQueueSize
    · obtain ⟨k, hk⟩ : ∃ k, eventQueueSize - s.queue.count = k + 1 :=
        ⟨eventQueueSize - s.queue.count - 1, by omega⟩
      have left : eventQueueSize - (s.queue.count + 1) = k := by omega
      rw [if_pos room, if_pos room, left, written] at all
      rw [hk, List.take_succ_cons]
      exact all
    · have full : eventQueueSize - s.queue.count = 0 := by omega
      rw [if_neg room, if_neg room, full, Option.or_none] at all
      rw [full]
      exact all

/-! ## Runs -/

/-- What happens on the network, and the turns of the event thread. -/
inductive NetCall where
  | p2p (call : P2PCall)
  | processEvent

/-- The node after a call or an event. -/
def netStep (node : Node) (l : Env × NetCall) : Node :=
  match l.2 with
  | .p2p call => call.step l.1 node
  | .processEvent => node.onStore (eventLoopStep l.1.now)

/-- The transitions of `x` in a step: offline when it is given up or closes its connection, online
when any other message of it is accepted. -/
def transitions (x : CString) (node : Node) (l : Env × NetCall) : List Bool :=
  match l.2 with
  | .processEvent => []
  | .p2p call =>
    (if (gaveUp l.1 node call).any fun id => isSameId id.val x then [false] else []) ++
      (((arrival l.1 node call).filter fun a => isSameId a.peer.id.val x).map fun a =>
        a.type != .close).toList

/-- What the step of an accepted message leaves behind about `x` is read last, where `queue` and
`online` are the waiting events and the flag before it. -/
def Arrival.InTime (a : Arrival) (x : CString) (queue : EventQueue) (online : Bool) : Prop :=
  if isSameId a.peer.id.val x then
    match a.type with
    -- written, so no event that says the contrary may be waiting
    | .handshake => lastQueued x queue ≠ some false
    | .acceptConfirm =>
      if isSameId a.text x then lastQueued x queue ≠ some false
      else (lastQueued x queue).getD online = true
    -- queued, if there is room
    | .data => queue.count < eventQueueSize ∨ (lastQueued x queue).getD online = true
    | .rejectConfirm => isSameId a.text x = true ∨ (lastQueued x queue).getD online = true
    -- neither
    | .close => (lastQueued x queue).getD online = false
    | .handshakeResponse | .keepalive | .addRequest => (lastQueued x queue).getD online = true
  else
    -- another peer may not turn the flag
    a.type = .acceptConfirm → isSameId a.text x = true → lastQueued x queue = none → online = true

/-- The step leaves the flag of `x` to what happened to `x` last. -/
def Timely (x : CString) (node : Node) (l : Env × NetCall) : Prop :=
  match l.2 with
  | .processEvent => True
  | .p2p call => ∀ online, onlineFlag x node.shared.sm = some online →
    (((gaveUp l.1 node call).any fun id => isSameId id.val x) = true →
      (((gaveUp l.1 node call).take (eventQueueSize - node.shared.queue.count)).any fun id =>
          isSameId id.val x) = true ∨
        lastQueued x node.shared.queue ≠ some true) ∧
    ∀ a, arrival l.1 node call = some a → a.InTime x node.shared.queue online

/-- The online flag of `x` once the waiting events are processed. -/
def standing (x : CString) (s : Store) : Option Bool :=
  (onlineFlag x s.sm).map fun online => (lastQueued x s.queue).getD online

theorem Signals.standing {x : CString} {w q : Option Bool} {s t : Store} (h : Signals x w q s t) :
    standing x t =
      (onlineFlag x s.sm).map fun online => (q.or ((lastQueued x s.queue).or w)).getD online := by
  unfold Orcashi.standing
  rw [h.flag, h.last, Option.map_map]
  congr 1
  funext online
  cases q <;> cases lastQueued x s.queue <;> cases w <;> rfl

/-- The flag that stands after a message in time. -/
theorem Arrival.InTime.stands {a : Arrival} {x : CString} {queue : EventQueue} {online : Bool}
    (h : a.InTime x queue online) (stays : a.type = .rejectConfirm → isSameId a.text x = false) :
    ((queuedBy x a.peer queue a.type).or ((lastQueued x queue).or
        (writtenBy x a.peer a.text a.type))).getD online =
      if isSameId a.peer.id.val x then a.type != .close else (lastQueued x queue).getD online := by
  obtain ⟨peer, type, text⟩ := a
  unfold InTime at h
  unfold queuedBy writtenBy
  dsimp only at h stays ⊢
  generalize lastQueued x queue = last at h ⊢
  generalize isSameId text x = named at h stays ⊢
  generalize isSameId peer.id.val x = own at h ⊢
  cases own with
  | true =>
    cases type with
    | addRequest | handshakeResponse | keepalive | close =>
      rw [Option.or_none]
      exact h
    | handshake =>
      match last, h with
      | none, _ | some true, _ => rfl
    | data =>
      rw [Option.or_none]
      by_cases room : queue.count < eventQueueSize
      · dsimp only
        rw [if_pos room]
        rfl
      · dsimp only
        rw [if_neg room]
        exact Or.resolve_left h room
    | acceptConfirm =>
      cases named with
      | true =>
        match last, h with
        | none, _ | some true, _ => rfl
      | false =>
        rw [if_neg Bool.false_ne_true, Option.or_none]
        exact h
    | rejectConfirm =>
      rw [Option.or_none]
      rcases h with named | stands
      · rw [stays rfl] at named
        cases named
      · exact stands
  | false =>
    cases type with
    | addRequest | handshakeResponse | keepalive | close | handshake | rejectConfirm =>
      exact congrArg (Option.getD · online) (Option.or_none)
    | data =>
      dsimp only
      rw [if_neg Bool.false_ne_true, ite_self, Option.or_none]
      rfl
    | acceptConfirm =>
      cases named with
      | false =>
        rw [if_neg Bool.false_ne_true, Option.or_none]
        rfl
      | true =>
        match last, h rfl rfl with
        | none, online => exact (online rfl).symm
        | some b, _ => rfl

theorem standing_of_removed {x id : CString} {s : Store} (keyed : Keyed s.sm)
    (same : isSameId id x = true) {t : Store} (removed : t.sm = (stateRemovePeer id s.sm).2) :
    standing x t = none := by
  unfold standing onlineFlag
  rw [removed, ← stateGetPeer_congr (isSameId_iff.1 same), keyed.getPeer_removed]
  rfl

theorem standing_of_nil {x : CString} (hx : normalizeId x = []) (s : Store) :
    standing x s = none := by
  unfold standing onlineFlag stateGetPeer
  rw [if_pos hx]
  rfl

theorem lastQueued_cons {x : CString} {ev : Event} {q q' : EventQueue}
    (h : q.toList = ev :: q'.toList) :
    lastQueued x q = (lastQueued x q').or (ev.presence x) := by
  unfold lastQueued
  rw [h]
  cases about : ev.presence x with
  | none => rw [List.filterMap_cons_none about, Option.or_none]
  | some b =>
    rw [List.filterMap_cons_some about, List.getLast?_cons]
    cases (q'.toList.filterMap (Event.presence x)).getLast? <;> rfl

/-- A turn of the event thread changes nothing of what stands, unless it removes the record. -/
theorem standing_eventLoopStep {x : CString} (now : Time) {s : Store} (keyed : Keyed s.sm) :
    standing x (eventLoopStep now s) = none ∨
      standing x (eventLoopStep now s) = standing x s := by
  unfold eventLoopStep
  cases pop : s.queue.pop with
  | none => exact Or.inr rfl
  | some r =>
    obtain ⟨ev, q⟩ := r
    by_cases removes : ev.type = .rejectConfirm ∧ isSameId ev.fromId x = true
    · left
      apply standing_of_removed keyed removes.2
      unfold eventProcess
      dsimp only
      rw [removes.1]
      rfl
    · right
      have stays : ev.type = .rejectConfirm → isSameId ev.fromId x = false := by
        intro type
        exact Bool.eq_false_iff.2 fun same => removes ⟨type, same⟩
      rw [(eventProcess_signals now stays { s with queue := q }).standing]
      unfold standing
      rw [lastQueued_cons (RingBuffer.toList_pop pop), Option.none_or]

/-- What stands for `x` is the last transition. -/
structure Settled (x : CString) (node : Node) (moves : List Bool) : Prop where
  keyed : Keyed node.shared.sm
  agrees : ∀ b, standing x node.shared.toStore = some b → ∀ m, moves.getLast? = some m → b = m

theorem Settled.process {x : CString} {node : Node} {moves : List Bool} (h : Settled x node moves)
    (env : Env) : Settled x (netStep node (env, .processEvent)) moves where
  keyed := by
    show Keyed (eventLoopStep env.now node.shared.toStore).sm
    unfold eventLoopStep
    cases node.shared.queue.pop with
    | none => exact h.keyed
    | some r =>
      have own : Keyed (Store.mk node.shared.sm r.2).sm := h.keyed
      exact eventProcess_keyed env.now r.1 own
  agrees := by
    intro b hb
    rcases standing_eventLoopStep (x := x) env.now h.keyed with gone | same
    · rw [show standing x (netStep node (env, .processEvent)).shared.toStore = _ from gone] at hb
      cases hb
    · exact h.agrees b (same.symm.trans hb)

theorem keyed_p2pStep {node : Node} (keyed : Keyed node.shared.sm) (env : Env) (call : P2PCall) :
    Keyed (call.step env node).shared.sm := by
  show Keyed (call.step env node).shared.toStore.sm
  rcases p2pStep_store node env call with
    ⟨-, store⟩ | ⟨-, a, -, store⟩ | ⟨-, -, id, store⟩ <;> rw [store]
  · apply List.foldlRecOn (motive := fun s : Store => Keyed s.sm)
    · exact keyed
    · exact fun s hs id _ => hs.setOnline env.now id.val false
  · exact messageEffect_keyed env a.peer a.text a.type keyed
  · exact keyed.update env.now id .friend

/-- What a step writes to the online flag of `x`. -/
def flagWritten (x : CString) (env : Env) (node : Node) (call : P2PCall) : Option Bool :=
  if (gaveUp env node call).any fun id => isSameId id.val x then some false
  else (arrival env node call).bind fun a => writtenBy x a.peer a.text a.type

/-- What the event that a step queues will make of it. -/
def flagQueued (x : CString) (env : Env) (node : Node) (call : P2PCall) : Option Bool :=
  if ((gaveUp env node call).take (eventQueueSize - node.shared.queue.count)).any fun id =>
      isSameId id.val x then some false
  else (arrival env node call).bind fun a => queuedBy x a.peer node.shared.queue a.type

/-- A step of the P2P manager removes the record of `x` or does to its flag what was said. -/
theorem p2pStep_signals {x : CString} (hx : normalizeId x ≠ []) {node : Node}
    (keyed : Keyed node.shared.sm) (env : Env) (call : P2PCall) :
    standing x (call.step env node).shared.toStore = none ∨
      (∀ a, arrival env node call = some a →
        a.type = .rejectConfirm → isSameId a.text x = false) ∧
      Signals x (flagWritten x env node call) (flagQueued x env node call) node.shared.toStore
        (call.step env node).shared.toStore := by
  unfold flagWritten flagQueued
  rcases p2pStep_store node env call with
    ⟨silent, store⟩ | ⟨kept, a, arrived, store⟩ | ⟨silent, kept, id, store⟩
  · right
    rw [store, silent, Option.bind_none, Option.bind_none]
    refine ⟨?_, giveUp_signals x env _ _⟩
    rintro a ⟨⟩
  · rw [store, kept, arrived, Option.bind_some, Option.bind_some, List.take_nil]
    by_cases removes : a.type = .rejectConfirm ∧ isSameId a.text x = true
    · left
      apply standing_of_removed keyed removes.2
      rw [removes.1]
      rfl
    · right
      have stays : a.type = .rejectConfirm → isSameId a.text x = false := by
        intro type
        exact Bool.eq_false_iff.2 fun same => removes ⟨type, same⟩
      refine ⟨?_, messageEffect_signals hx env a.peer a.text _ stays⟩
      rintro a ⟨⟩
      exact stays
  · right
    rw [store, silent, kept, List.take_nil]
    refine ⟨?_, ?_⟩
    · rintro a ⟨⟩
    · have written := (Signals.refl x node.shared.toStore).update env.now id .friend
      exact written.push_silent (presence_confirm hx env.now id)

theorem gaveUp_or_arrival (env : Env) (node : Node) (call : P2PCall) :
    gaveUp env node call = [] ∨ arrival env node call = none := by
  cases call with
  | disconnect | keepalive | connect | accept | send | sendSecure => exact Or.inr rfl
  | datagram => exact Or.inl rfl

/-- After a step in time, what stands for `x` is the transition of the step, or what stood before if
there was none. -/
theorem standing_p2pStep {x : CString} {node : Node} {env : Env} {call : P2PCall}
    (keyed : Keyed node.shared.sm) (timely : Timely x node (env, .p2p call)) :
    standing x (call.step env node).shared.toStore = none ∨
      ∃ online, standing x node.shared.toStore = some online ∧
        standing x (call.step env node).shared.toStore =
          some (((transitions x node (env, .p2p call)).getLast?).getD online) := by
  by_cases hx : normalizeId x = []
  · exact Or.inl (standing_of_nil hx _)
  rcases p2pStep_signals hx keyed env call with gone | ⟨stays, signals⟩
  · exact Or.inl gone
  rw [signals.standing]
  unfold standing
  cases flag : onlineFlag x node.shared.sm with
  | none => exact Or.inl rfl
  | some online =>
    obtain ⟨spared, inTime⟩ := timely online flag
    refine Or.inr ⟨_, rfl, congrArg some ?_⟩
    unfold flagWritten flagQueued transitions
    dsimp only
    rcases gaveUp_or_arrival env node call with kept | silent
    · rw [kept, List.take_nil]
      cases arrived : arrival env node call with
      | none =>
        show (none.or ((lastQueued x node.shared.queue).or none)).getD online = _
        rw [Option.or_none]
        rfl
      | some a =>
        refine ((inTime a arrived).stands (stays a arrived)).trans ?_
        rw [Option.filter_some]
        cases isSameId a.peer.id.val x <;> rfl
    · rw [silent]
      by_cases ended : ((gaveUp env node call).any fun id => isSameId id.val x) = true
      · rw [if_pos ended, if_pos ended]
        -- the event found room, or nothing that waits says otherwise
        by_cases queued : (((gaveUp env node call).take
            (eventQueueSize - node.shared.queue.count)).any fun id => isSameId id.val x) = true
        · rw [if_pos queued]
          rfl
        · have waiting := (spared ended).resolve_left queued
          rw [if_neg queued]
          generalize lastQueued x node.shared.queue = last at waiting ⊢
          match last, waiting with
          | none, _ | some false, _ => rfl
      · have unqueued : ¬ (((gaveUp env node call).take
            (eventQueueSize - node.shared.queue.count)).any fun id => isSameId id.val x) = true := by
          rw [List.any_eq_true] at ended ⊢
          rintro ⟨id, hid, same⟩
          exact ended ⟨id, List.mem_of_mem_take hid, same⟩
        rw [if_neg ended, if_neg unqueued, if_neg ended]
        show (none.or ((lastQueued x node.shared.queue).or none)).getD online = _
        rw [Option.or_none]
        rfl

theorem Settled.network {x : CString} {node : Node} {moves : List Bool} (h : Settled x node moves)
    {env : Env} {call : P2PCall} (timely : Timely x node (env, .p2p call)) :
    Settled x (netStep node (env, .p2p call)) (moves ++ transitions x node (env, .p2p call)) where
  keyed := keyed_p2pStep h.keyed env call
  agrees := by
    intro b hb m hm
    rw [List.getLast?_append] at hm
    rcases standing_p2pStep h.keyed timely with gone | ⟨online, before, after⟩
    · rw [show standing x (netStep node (env, .p2p call)).shared.toStore = _ from gone] at hb
      cases hb
    · rw [show standing x (netStep node (env, .p2p call)).shared.toStore = _ from after] at hb
      obtain rfl := Option.some.inj hb
      cases last : (transitions x node (env, .p2p call)).getLast? with
      | none =>
        rw [last, Option.none_or] at hm
        exact h.agrees online before m hm
      | some moved =>
        rw [last, Option.some_or] at hm
        exact Option.some.inj hm

/-- Once the queue is empty, the online flag of `x` agrees with the last transition of `x`. -/
def NoStalePresence (x : CString) (node : Node) (ls : List (Env × NetCall)) : Prop :=
  let after := History.run netStep node ls
  after.shared.queue.toList = [] → ∀ p, stateGetPeer x after.shared.sm = some p →
    ∀ b, (History.outputs netStep (transitions x) node ls).getLast? = some b → p.online = b

/-- In every run whose steps are in time for `x`, the presence of `x` is not stale. -/
theorem presence_agrees {x : CString} {node : Node} {m : PeerMap}
    (table : Represents node.shared.sm m) {ls : List (Env × NetCall)}
    (timely : History.Meets netStep (Timely x) node ls) : NoStalePresence x node ls := by
  intro drained p present b last
  have start : Settled x node [] := by
    refine ⟨⟨m, table⟩, ?_⟩
    rintro _ - _ ⟨⟩
  have settled : Settled x (History.run netStep node ls)
      ([] ++ History.outputs netStep (transitions x) node ls) := by
    refine History.run_invariant_outputs (Settled x) ?_ start timely
    rintro node ⟨env, call⟩ moves h inTime
    cases call with
    | processEvent =>
      rw [show transitions x node (env, .processEvent) = [] from rfl, List.append_nil]
      exact h.process env
    | p2p call => exact h.network inTime
  apply settled.agrees p.online _ b last
  unfold standing onlineFlag lastQueued
  rw [present, drained]
  rfl

/-- `bob` has a record and a connection. -/
def bobKnown : Node :=
  History.run daemonStep .init
    [(reachesBob, .add (some (ascii "bob"))), (reachesBob, .p2p (.connect (ascii "bob"))),
      (reachesBob, .p2p (datagramOf .handshakeResponse [1]))]

theorem bobKnown_table : ∃ m, Represents bobKnown.shared.sm m := by
  apply Represents.exists_of_wellFormed <;> decide

theorem presence_agrees_bob :
    NoStalePresence (ascii "bob") bobKnown
      [(reachesBob, .p2p (datagramOf .data (ascii "hi"))), (reachesBob, .processEvent),
        (reachesBob, .p2p (.disconnect (ascii "bob"))), (reachesBob, .processEvent)] := by
  obtain ⟨m, table⟩ := bobKnown_table
  apply presence_agrees table
  refine ⟨?_, trivial, ?_, trivial, trivial⟩
  · intro online _
    refine ⟨fun ended => absurd ended (by decide), ?_⟩
    intro a arrived
    have hears : (arrival reachesBob bobKnown (datagramOf .data (ascii "hi"))).map
        (fun a => (a.type, isSameId a.peer.id.val (ascii "bob"))) = some (.data, true) := by decide
    rw [show arrival reachesBob bobKnown (datagramOf .data (ascii "hi")) = some a from arrived,
      Option.map_some] at hears
    obtain ⟨type, own⟩ := Prod.mk.inj (Option.some.inj hears)
    unfold Arrival.InTime
    rw [if_pos own, type]
    exact Or.inl (by decide)
  · intro online _
    refine ⟨fun _ => Or.inl (by decide), ?_⟩
    rintro a ⟨⟩

theorem stale_of_flag {x : CString} {node : Node} {ls : List (Env × NetCall)}
    (drained : (History.run netStep node ls).shared.queue.toList = [])
    (away : onlineFlag x (History.run netStep node ls).shared.sm = some false)
    (moved : (History.outputs netStep (transitions x) node ls).getLast? = some true) :
    ¬ NoStalePresence x node ls := by
  intro agrees
  obtain ⟨p, present, offline⟩ := Option.map_eq_some_iff.1 away
  rw [agrees drained p present true moved] at offline
  cases offline

/-- `bob` is back before the event of his leaving is processed, and ends up offline; and a message of
his that is not DATA does not make him online at all. -/
theorem presence_stale :
    ¬ NoStalePresence (ascii "bob") bobKnown
        [(reachesBob, .p2p (.disconnect (ascii "bob"))),
          (reachesBob, .p2p (datagramOf .acceptConfirm (ascii "bob"))),
          (reachesBob, .processEvent), (reachesBob, .processEvent)] ∧
      ¬ NoStalePresence (ascii "bob") bobKnown
        [(reachesBob, .p2p (datagramOf .keepalive [0]))] := by
  constructor
  · apply stale_of_flag <;> decide
  · apply stale_of_flag <;> decide

end Orcashi
