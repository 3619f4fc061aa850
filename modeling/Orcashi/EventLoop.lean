import Orcashi.Lib.RingBuffer
import Orcashi.StateManager

/-!
# The event loop

Events wait in a ring of 1024 entries; a push into a full ring is refused and the event is lost.
One thread takes them out again and runs the handler of their type, which works on the state
manager.  Delivering the ghost messages of a peer marks them in the state manager and announces
each of them by an event, so it is here rather than with the other functions of the state manager.
-/

namespace Orcashi

open CMemory

/-! ## Events and their queue -/

/-- `EventType` -/
inductive EventType where
  | none
  | addRequest
  | acceptConfirm
  | rejectConfirm
  | messageReceived
  | peerOnline
  | peerOffline
  | ghostDelivered
  | statusUpdate
  | dhtFound
  | dhtNotFound
  | error
  deriving DecidableEq

/-- `Event` -/
structure Event where
  type : EventType
  peerId : CString
  fromId : CString
  toId : CString
  message : CString
  ip : CString
  port : ℤ
  timestamp : Time
  isSecure : Bool
  deriving DecidableEq

/-- An `Event` of zeros. -/
def Event.zero : Event := ⟨.none, [], [], [], [], [], 0, 0, false⟩

/-- `event_create` and the fields that its callers leave. -/
def eventCreate (now : Time) (type : EventType) (peerId : CString) : Event :=
  { Event.zero with type := type, timestamp := now, peerId := cut idSize peerId }

/-- `EVENT_QUEUE_SIZE` -/
def eventQueueSize : ℕ := 1024

/-- The queue of the event loop. -/
abbrev EventQueue := RingBuffer eventQueueSize Event

/-- The queue as it starts. -/
def EventQueue.init : EventQueue := RingBuffer.empty Event.zero (by decide)

/-- `event_queue_push`: -1 if the queue is full. -/
def eventQueuePush (ev : Event) (q : EventQueue) : ℤ × EventQueue :=
  match q.push ev with
  | none => (-1, q)
  | some q' => (0, q')

/-- What the state manager and the event loop hold. -/
structure Store where
  sm : StateManager
  queue : EventQueue

namespace Store

/-- The tables and the queue as they start. -/
def init : Store := ⟨.init, .init⟩

/-- Call a function of the state manager and ignore what it returns. -/
def call (f : StateManager → ℤ × StateManager) (s : Store) : Store := { s with sm := (f s.sm).2 }

/-- Push an event and ignore whether there was room. -/
def push (ev : Event) (s : Store) : Store := { s with queue := (eventQueuePush ev s.queue).2 }

@[simp] theorem call_sm (f : StateManager → ℤ × StateManager) (s : Store) :
    (s.call f).sm = (f s.sm).2 := rfl

@[simp] theorem push_sm (ev : Event) (s : Store) : (s.push ev).sm = s.sm := rfl

end Store

/-! ## Delivering ghost messages -/

/-- The event that announces a message just marked. -/
def ghostDeliveredEvent (now : Time) (normId : CString) (gm : GhostMessage) : Event :=
  { eventCreate now .ghostDelivered normId with fromId := gm.fromId, message := gm.message }

/-- The loop over `g_ghost_messages`: the messages after it, the queue after it and how many were
marked. -/
def deliverLoop (now : Time) (normId : CString) :
    List GhostMessage → EventQueue → List GhostMessage × EventQueue × ℕ
  | [], q => ([], q, 0)
  | gm :: gms, q =>
    if gm.pendingFor normId then
      let gm' := { gm with delivered := true, deliveredAt := now }
      let q' := (eventQueuePush (ghostDeliveredEvent now normId gm') q).2
      let r := deliverLoop now normId gms q'
      (gm' :: r.1, r.2.1, r.2.2 + 1)
    else
      let r := deliverLoop now normId gms q
      (gm :: r.1, r.2.1, r.2.2)

/-- `state_deliver_ghost_messages`, with the number of messages that are marked. -/
def stateDeliverGhostMessages (now : Time) (toId : CString) (s : Store) : ℕ × Store :=
  let normId := normalizeId toId
  if normId = [] then (0, s)
  else
    let r := deliverLoop now normId s.sm.ghosts s.queue
    (r.2.2,
      { sm :=
          { s.sm with
            ghosts := r.1
            peers := adjustGhostCount normId (fun n => max (n - r.2.2) 0) s.sm.peers }
        queue := r.2.1 })

/-- Deliver and ignore how many there were. -/
def Store.deliver (now : Time) (toId : CString) (s : Store) : Store :=
  (stateDeliverGhostMessages now toId s).2

/-! ## Handlers -/

/-- `event_handle_add_request` -/
def eventHandleAddRequest (now : Time) (ev : Event) (s : Store) : Store :=
  s |>.call (stateUpdatePeer now ev.fromId .requestReceived)
    |>.call (stateSetIp ev.fromId ev.ip)
    |>.call (stateSetPort ev.fromId ev.port)

/-- `event_handle_accept_confirm` -/
def eventHandleAcceptConfirm (now : Time) (ev : Event) (s : Store) : Store :=
  s |>.call (stateUpdatePeer now ev.fromId .friend)
    |>.call (stateSetOnline now ev.fromId true)
    |>.call (stateSetIp ev.fromId ev.ip)
    |>.call (stateSetPort ev.fromId ev.port)
    |>.deliver now ev.fromId

/-- `event_handle_reject_confirm` -/
def eventHandleRejectConfirm (ev : Event) (s : Store) : Store :=
  s |>.call (stateRemovePeer ev.fromId)

/-- `event_handle_message_received` -/
def eventHandleMessageReceived (now : Time) (ev : Event) (s : Store) : Store :=
  s |>.call (stateSetOnline now ev.fromId true)
    |>.call (stateUpdateLastSeen now ev.fromId)
    |>.call (stateAddMessage ev.fromId ev.message)

/-- `event_handle_peer_online` -/
def eventHandlePeerOnline (now : Time) (ev : Event) (s : Store) : Store :=
  s |>.call (stateSetOnline now ev.peerId true)
    |>.call (stateSetIp ev.peerId ev.ip)
    |>.call (stateSetPort ev.peerId ev.port)
    |>.deliver now ev.peerId

/-- `event_handle_peer_offline` -/
def eventHandlePeerOffline (now : Time) (ev : Event) (s : Store) : Store :=
  s |>.call (stateSetOnline now ev.peerId false)

/-- `event_handle_status_update` -/
def eventHandleStatusUpdate (ev : Event) (s : Store) : Store :=
  let s := if ev.ip ≠ [] then s.call (stateSetIp ev.peerId ev.ip) else s
  let s := if 0 < ev.port then s.call (stateSetPort ev.peerId ev.port) else s
  if ev.isSecure then s.call (stateSetSecure ev.peerId true) else s

/-- `event_handle_dht_found` -/
def eventHandleDhtFound (now : Time) (ev : Event) (s : Store) : Store :=
  s |>.call (stateSetIp ev.peerId ev.ip)
    |>.call (stateSetPort ev.peerId ev.port)
    |>.call (stateSetOnline now ev.peerId true)

/-- `event_handle_dht_not_found` -/
def eventHandleDhtNotFound (now : Time) (ev : Event) (s : Store) : Store :=
  s |>.call (stateSetOnline now ev.peerId false)

/-- `event_process`.  What the handlers print is left out: nothing reads it. -/
def eventProcess (now : Time) (ev : Event) (s : Store) : ℤ × Store :=
  match ev.type with
  | .addRequest => (0, eventHandleAddRequest now ev s)
  | .acceptConfirm => (0, eventHandleAcceptConfirm now ev s)
  | .rejectConfirm => (0, eventHandleRejectConfirm ev s)
  | .messageReceived => (0, eventHandleMessageReceived now ev s)
  | .peerOnline => (0, eventHandlePeerOnline now ev s)
  | .peerOffline => (0, eventHandlePeerOffline now ev s)
  | .ghostDelivered => (0, s)
  | .statusUpdate => (0, eventHandleStatusUpdate ev s)
  | .dhtFound => (0, eventHandleDhtFound now ev s)
  | .dhtNotFound => (0, eventHandleDhtNotFound now ev s)
  | .error => (0, s)
  | .none => (-1, s)

/-- One turn of the event thread: take an event, if there is one, and process it. -/
def eventLoopStep (now : Time) (s : Store) : Store :=
  match s.queue.pop with
  | none => s
  | some (ev, q) => (eventProcess now ev { s with queue := q }).2

/-- What each write of a status update preserves, the update preserves. -/
theorem eventHandleStatusUpdate_preserves {P : Store → Prop} {ev : Event}
    (ip : ∀ s, P s → P (s.call (stateSetIp ev.peerId ev.ip)))
    (port : ∀ s, P s → P (s.call (stateSetPort ev.peerId ev.port)))
    (secure : ∀ s, P s → P (s.call (stateSetSecure ev.peerId true))) {s : Store} (start : P s) :
    P (eventHandleStatusUpdate ev s) := by
  have guarded (test : Prop) [Decidable test] {f : StateManager → ℤ × StateManager}
      (write : ∀ s, P s → P (s.call f)) {s : Store} (hs : P s) :
      P (if test then s.call f else s) := by
    split_ifs
    · exact write s hs
    · exact hs
  unfold eventHandleStatusUpdate
  exact guarded _ secure (guarded _ port (guarded _ ip start))

end Orcashi
