import Orcashi.Lib.History
import Orcashi.Relay.Data

/-!
# Which session `relay_connect` completes

While `relay_connect` waits for an answer it holds no lock, only a pointer into the table and the same
socket that the listener reads.  Here any number of calls wait while sessions are added and removed and
datagrams arrive.  A call should write to the session it was made for, and it should be the one that
takes the answer to its handshake: nobody else takes it, and the call does not return without it.
-/

namespace Orcashi

open CMemory History

/-! ## Runs -/

/-- A call of `relay_connect` that waits: the id it was made for and its pointer. -/
structure RelayWait where
  peerId : CString
  slot : ℕ

/-- A datagram in the buffer of `relay_socket`. -/
structure RelayDatagram where
  bytes : Bytes
  sender : SockAddrIn
  /-- the call whose handshake it is the answer to -/
  answers : Option ℕ

/-- The state of a run. -/
structure RelayRun where
  mgr : RelayManager
  /-- the calls that came to wait, in this order; none where the call has returned -/
  calls : List (Option RelayWait)
  inbox : List RelayDatagram

/-- The start of a run. -/
def RelayRun.init (myId : IdText) (relaySocket : ℤ) : RelayRun := ⟨.init myId relaySocket, [], []⟩

/-- What a call waits with. -/
def RelayRun.waits (s : RelayRun) (call : ℕ) : Option RelayWait := s.calls[call]?.join

/-- The steps.  A call of `relay_connect` ends with `receive`, or with `timeout` if its handshake did not
leave or nothing came. -/
inductive RelayRunStep where
  | connect (peerId : CString) (relayId : Option CString) (relayIp : CString) (relayPort : ℤ)
  | accept (peerId : CString) (relayId : Option CString)
  | disconnect (peerId : CString)
  /-- the other side answers the handshake of a call -/
  | reply (call : ℕ) (sender : SockAddrIn) (sessionId : UInt32)
  /-- any other datagram arrives -/
  | arrive (sender : SockAddrIn) (bytes : Bytes)
  /-- the listener reads the socket, with the bytes its buffer holds behind the datagram -/
  | listen (stale : Bytes)
  | receive (call : ℕ)
  | timeout (call : ℕ)

/-- The call returns after its last writes. -/
def RelayRun.finish (env : RelayEnv) (s : RelayRun) (call : ℕ) (w : RelayWait)
    (received : Option Bytes) (inbox : List RelayDatagram) : RelayRun where
  mgr := (relayConnectEnd env w.slot received s.mgr).2
  calls := s.calls.set call none
  inbox := inbox

/-- The buffer of the listener after it has read a datagram. -/
def RelayDatagram.buffer (d : RelayDatagram) (stale : Bytes) : Bytes :=
  d.bytes.take relayBufferSize ++ stale

/-- The number of bytes the listener has read. -/
def RelayDatagram.size (d : RelayDatagram) : ℕ := min relayBufferSize d.bytes.length

/-- What the call waited with that the step lets return. -/
def RelayRunStep.returns (s : RelayRun) : RelayRunStep → Option RelayWait
  | receive call => if s.inbox = [] then none else s.waits call
  | timeout call => s.waits call
  | _ => none

/-- The datagram the step takes from the socket. -/
def RelayRunStep.takes (s : RelayRun) : RelayRunStep → Option RelayDatagram
  | listen _ => s.inbox.head?
  | receive call => if (s.waits call).isSome then s.inbox.head? else none
  | _ => none

/-- There is a session of the id in the slot. -/
def RelayManager.Holds (mgr : RelayManager) (slot : ℕ) (peerId : CString) : Prop :=
  ∃ session, mgr.sessions[slot]? = some session ∧ session.peerId.val = peerId

/-- An answer to the call is in the socket. -/
def RelayRun.Answered (s : RelayRun) (call : ℕ) : Prop := ∃ d ∈ s.inbox, d.answers = some call

theorem holds_iff {mgr : RelayManager} {slot : ℕ} {peerId : CString} :
    mgr.Holds slot peerId ↔ ∃ k, mgr.keys[slot]? = some k ∧ k.1.val = peerId := by
  unfold RelayManager.Holds RelayManager.keys
  rw [List.getElem?_map]
  constructor
  · rintro ⟨session, here, same⟩
    exact ⟨session.key, by rw [here]; rfl, same⟩
  · rintro ⟨k, here, same⟩
    obtain ⟨session, there, rfl⟩ := Option.map_eq_some_iff.1 here
    exact ⟨session, there, same⟩

theorem RelayManager.Holds.mono {mgr mgr' : RelayManager} (kept : mgr.keys <+: mgr'.keys) {slot : ℕ}
    {peerId : CString} (h : mgr.Holds slot peerId) : mgr'.Holds slot peerId := by
  rw [holds_iff] at h ⊢
  obtain ⟨k, here, same⟩ := h
  obtain ⟨more, keys⟩ := kept
  have inside := (List.getElem?_eq_some_iff.1 here).1
  exact ⟨k, by rw [← keys, List.getElem?_append_left inside, here], same⟩

/-- The answers in the socket are those of a handshake, each to a call that waits and no two to one. -/
structure RelayRun.Queued (calls : List (Option RelayWait)) (inbox : List RelayDatagram) : Prop where
  texts : ∀ d ∈ inbox, d.answers ≠ none → ∃ sessionId, d.bytes = relayResponseText sessionId
  waited : ∀ d ∈ inbox, ∀ call, d.answers = some call → calls[call]?.join ≠ none
  single : (inbox.filterMap RelayDatagram.answers).Nodup

/-- Every call that waits points to a session of its id, and the answers in the socket are in order. -/
structure RelayRun.Sound (s : RelayRun) : Prop where
  pointers : ∀ call w, s.waits call = some w → s.mgr.Holds w.slot w.peerId
  queued : RelayRun.Queued s.calls s.inbox

section Queue

variable {calls : List (Option RelayWait)} {inbox : List RelayDatagram} {call : ℕ}

theorem RelayRun.Queued.tail {d : RelayDatagram} (queued : RelayRun.Queued calls (d :: inbox)) :
    RelayRun.Queued calls inbox where
  texts e there := queued.texts e (List.mem_cons_of_mem d there)
  waited e there := queued.waited e (List.mem_cons_of_mem d there)
  single := queued.single.sublist ((List.sublist_cons_self d inbox).filterMap _)

/-- Behind the answer to a call there is no other one. -/
theorem RelayRun.Queued.unanswered {d : RelayDatagram}
    (queued : RelayRun.Queued calls (d :: inbox)) (own : d.answers = some call) :
    ∀ e ∈ inbox, e.answers ≠ some call := by
  intro e there answering
  have single := queued.single
  rw [List.filterMap_cons_some own, List.nodup_cons] at single
  exact single.1 (List.mem_filterMap.2 ⟨e, there, answering⟩)

/-- A datagram that is no answer, or the first one to a call that waits. -/
theorem RelayRun.Queued.add (queued : RelayRun.Queued calls inbox) {d : RelayDatagram}
    (text : d.answers ≠ none → ∃ sessionId, d.bytes = relayResponseText sessionId)
    (first : ∀ call, d.answers = some call →
      calls[call]?.join ≠ none ∧ ∀ e ∈ inbox, e.answers ≠ some call) :
    RelayRun.Queued calls (inbox ++ [d]) where
  texts e there := by
    rcases List.mem_append.1 there with old | new
    · exact queued.texts e old
    · obtain rfl := List.mem_singleton.1 new
      exact text
  waited e there call answering := by
    rcases List.mem_append.1 there with old | new
    · exact queued.waited e old call answering
    · obtain rfl := List.mem_singleton.1 new
      exact (first call answering).1
  single := by
    rw [List.filterMap_append]
    cases answering : d.answers with
    | none =>
      rw [List.filterMap_cons_none answering, List.filterMap_nil, List.append_nil]
      exact queued.single
    | some call =>
      rw [List.filterMap_cons_some answering, List.filterMap_nil, ← List.concat_eq_append]
      refine queued.single.concat fun there => ?_
      obtain ⟨e, old, same⟩ := List.mem_filterMap.1 there
      exact (first call answering).2 e old same

/-- A call that starts to wait has the next number. -/
theorem RelayRun.Queued.wait (queued : RelayRun.Queued calls inbox) (w : RelayWait) :
    RelayRun.Queued (calls ++ [some w]) inbox where
  texts := queued.texts
  waited d there call answering := by
    have waiting := queued.waited d there call answering
    have inside : call < calls.length := by
      by_contra outside
      rw [List.getElem?_eq_none (Nat.le_of_not_lt outside)] at waiting
      exact waiting rfl
    rw [List.getElem?_append_left inside]
    exact waiting
  single := queued.single

/-- A call that has no answer in the socket may return. -/
theorem RelayRun.Queued.finish (queued : RelayRun.Queued calls inbox)
    (unanswered : ∀ d ∈ inbox, d.answers ≠ some call) :
    RelayRun.Queued (calls.set call none) inbox where
  texts := queued.texts
  waited d there other answering := by
    have different : call ≠ other := by
      rintro rfl
      exact unanswered d there answering
    rw [List.getElem?_set_ne different]
    exact queued.waited d there other answering
  single := queued.single

end Queue

section Step

variable {env : RelayEnv} {s s' : RelayRun}

theorem waits_finish {call i : ℕ} {w v : RelayWait} {received : Option Bytes}
    {inbox : List RelayDatagram} (h : (s.finish env call w received inbox).waits i = some v) :
    s.waits i = some v := by
  unfold RelayRun.waits at h ⊢
  unfold RelayRun.finish at h
  dsimp only at h
  rw [List.getElem?_set] at h
  split_ifs at h with here inside
  · cases h
  · cases h
  · exact h

/-- A call returns when what is left in the socket is no answer to it. -/
theorem RelayRun.Sound.finish (sound : s.Sound) {call : ℕ} (w : RelayWait) (received : Option Bytes)
    {inbox : List RelayDatagram} (queued : RelayRun.Queued s.calls inbox)
    (unanswered : ∀ d ∈ inbox, d.answers ≠ some call) :
    (s.finish env call w received inbox).Sound where
  pointers i v waiting := by
    refine (sound.pointers i v (waits_finish waiting)).mono ?_
    show s.mgr.keys <+: (relayConnectEnd env w.slot received s.mgr).2.keys
    rw [relayConnectEnd_keys]
  queued := queued.finish unanswered

end Step

end Orcashi
