import Orcashi.Lib.History
import Orcashi.Turn.Message
import Orcashi.Turn.Response

/-!
# Who a relay address belongs to

Calls of `turn_connect`, `turn_allocate` and `turn_disconnect` in any order, with any datagram arriving
for whichever call waits.  A call keeps a pointer to a slot while it is outside the lock, and nobody
compares the transaction id of a response.  A run numbers the requests as they leave, records which is
the latest of each session and all that was received, and a session should be established with an
address from a response to the former.  The id alone does not say which request a response is to: with
a user, every request that leaves carries the same one.
-/

namespace Orcashi

open CMemory Stun History

/-! ## Runs -/

/-- A call between two of its steps. -/
inductive TurnCall where
  /-- `turn_connect` before its `turn_allocate` -/
  | connecting (target : TurnSlot) (peerId : CString)
  /-- `turn_allocate` waiting for a response, with the pointer of the `turn_connect` that called it -/
  | waiting (target : Option TurnSlot) (slot : TurnSlot)
  /-- `turn_connect` after its `turn_allocate` -/
  | returning (target : TurnSlot) (ret : ℤ)

/-- A datagram on its way to the socket.  What it answers is known to its sender alone; no function of the
source reads it. -/
structure TurnDatagram where
  bytes : Bytes
  /-- the number of the Allocate request that was answered with it, if one was -/
  answered : Option ℕ

/-- The state of a run. -/
structure TurnRun where
  mgr : TurnManager
  calls : List TurnCall
  /-- the Allocate requests that left, in order -/
  sent : List Bytes
  /-- the number of the latest request for the session in a slot -/
  latest : TurnSlot → Option ℕ
  /-- what `recvfrom` has read so far -/
  received : List TurnDatagram

/-- The start of a run. -/
def TurnRun.init (servers : List TurnServerConfig) (udpSocket : ℤ) : TurnRun :=
  ⟨.init servers udpSocket, [], [], fun _ => none, []⟩

/-- The steps; a number counts the calls that are going on. -/
inductive TurnStep where
  | connect (peerId serverHost : CString)
  | allocate (peerId : CString)
  | send (call : ℕ)
  | receive (call : ℕ) (datagram : Option TurnDatagram)
  | finish (call : ℕ)
  | disconnect (peerId : CString)

/-- What `recvfrom` reads of a datagram in `turn_allocate`. -/
def readDatagram (datagram : Bytes) : Bytes := datagram.take 512

/-- What a run records of a datagram that was read. -/
def TurnDatagram.read (d : TurnDatagram) : TurnDatagram := ⟨readDatagram d.bytes, d.answered⟩

/-- A session that is added has sent nothing. -/
def TurnRun.latestKept (s : TurnRun) (i : TurnSlot) : Option ℕ :=
  if i.val < s.mgr.count then s.latest i else none

/-- The request of `turn_allocate`, and how the call goes on. -/
def TurnRun.sendRequest (env : TurnEnv) (peerId : CString) (s : TurnRun)
    (failed : List TurnCall) (waiting : TurnSlot → List TurnCall) : Option TurnRun :=
  (turnAllocateSend env peerId s.mgr).map fun
    | none => { s with calls := failed }
    | some (slot, request) =>
      { s with
        calls := waiting slot
        sent := s.sent ++ [request]
        latest := Function.update s.latest slot (some s.sent.length) }

/-- The steps, as the calls take them. -/
def turnExec (env : TurnEnv) (s : TurnRun) : TurnStep → Option TurnRun
  | .connect peerId serverHost =>
    (turnConnect env peerId serverHost s.mgr).map fun
      | .returned _ mgr => { s with mgr := mgr, latest := s.latestKept }
      | .allocating slot mgr =>
        { s with
          mgr := mgr
          calls := s.calls ++ [.connecting slot peerId]
          latest := s.latestKept }
  | .allocate peerId =>
    s.sendRequest env peerId s.calls fun slot => s.calls ++ [.waiting none slot]
  | .send call =>
    match s.calls[call]? with
    | some (.connecting target peerId) =>
      s.sendRequest env peerId (s.calls.set call (.returning target (-1)))
        fun slot => s.calls.set call (.waiting (some target) slot)
    | _ => some s
  | .receive call datagram =>
    match s.calls[call]? with
    | some (.waiting target slot) =>
      (turnAllocateReceive env slot (datagram.map TurnDatagram.bytes) s.mgr).map fun (ret, mgr) =>
        { s with
          mgr := mgr
          calls :=
            match target with
            | none => s.calls.eraseIdx call
            | some target => s.calls.set call (.returning target ret)
          received := s.received ++ datagram.toList.map TurnDatagram.read }
    | _ => some s
  | .finish call =>
    match s.calls[call]? with
    | some (.returning target ret) =>
      some { s with mgr := turnConnectEnd env target ret s.mgr, calls := s.calls.eraseIdx call }
    | _ => some s
  | .disconnect peerId =>
    some { s with
      mgr := turnDisconnect peerId s.mgr
      latest :=
        match turnFindSession peerId s.mgr with
        | none => s.latest
        | some slot => s.latest ∘ s.mgr.origin slot }

/-- There is an established session in the slot. -/
def TurnManager.Established (mgr : TurnManager) (i : TurnSlot) : Prop :=
  i.val < mgr.count ∧ (mgr.sessions i).state = .established

/-- Where the session in a slot was before the step. -/
def TurnStep.origin (mgr : TurnManager) (i : TurnSlot) : TurnStep → TurnSlot
  | disconnect peerId =>
    match turnFindSession peerId mgr with
    | none => i
    | some slot => mgr.origin slot i
  | _ => i

/-- An Allocate success response. -/
structure AllocateSuccess (response : Bytes) : Prop where
  enough : turnStunHeaderSize ≤ response.length
  cookie : readBe32 response 4 = magicCookie
  type : readBe16 response 0 = turnMsgAllocateResponse

/-- The response was sent to the latest request of the session in the slot, and has its transaction id. -/
def TurnRun.Answers (s : TurnRun) (response : TurnDatagram) (i : TurnSlot) : Prop :=
  ∃ n request, s.latest i = some n ∧ s.sent[n]? = some request ∧ response.answered = some n ∧
    Stun.transactionId response.bytes = Stun.transactionId request

/-- The relay address of the session is carried by a success response to its latest request, which is
the request of no other session. -/
def TurnRun.Attributed (s : TurnRun) (i : TurnSlot) : Prop :=
  ∃ response ∈ s.received, AllocateSuccess response.bytes ∧ s.Answers response i ∧
    (∀ j : TurnSlot, j.val < s.mgr.count → s.latest j = response.answered → j = i) ∧
      carriedAddress response.bytes = some (some (s.mgr.sessions i).relay)

/-- The id of a session that is added fits. -/
def TurnIdFits (peerId : CString) (mgr : TurnManager) : Prop :=
  turnFindSession peerId mgr = none → mgr.count < turnMaxSessions → peerId.length < idSize

/-- The session in the slot is none, or established already. -/
def TurnRun.Settled (s : TurnRun) (slot : TurnSlot) : Prop :=
  s.mgr.count ≤ slot.val ∨ (s.mgr.sessions slot).state = .established

/-- The response is no success, or answers the latest request of the session with an address, or it has
no address and the session has none from before. -/
def TurnRun.Expects (s : TurnRun) (slot : TurnSlot) (response : TurnDatagram) : Prop :=
  AllocateSuccess response.bytes →
    (∃ address, carriedAddress response.bytes = some (some address) ∧ s.Answers response slot) ∨
      (carriedAddress response.bytes = some none ∧
        ((s.mgr.sessions slot).relayIp.val = [] ∨ (s.mgr.sessions slot).relayPort ≤ 0))

/-- The condition on a step. -/
def TurnRun.Orderly (env : TurnEnv) (s : TurnRun) : TurnStep → Prop
  | .connect peerId _ => TurnIdFits peerId s.mgr
  | .receive call (some datagram) =>
    ∀ target slot, s.calls[call]? = some (.waiting target slot) →
      (turnStunHeaderSize ≤ (readDatagram datagram.bytes).length →
        readBe32 (readDatagram datagram.bytes) 4 = magicCookie →
          TurnReadable (turnResponseBuffer env datagram.bytes)) ∧
        (s.Settled slot ∨ s.Expects slot datagram.read)
  | .finish call =>
    ∀ target ret, s.calls[call]? = some (.returning target ret) → 0 ≤ ret → s.Settled target
  | _ => True

/-- A number is given to a request that left, and to that of one session only. -/
structure TurnRun.Numbered (s : TurnRun) : Prop where
  known : ∀ i n, s.latest i = some n → n < s.sent.length
  own : ∀ i j : TurnSlot, ∀ n, i.val < s.mgr.count → j.val < s.mgr.count →
    s.latest i = some n → s.latest j = some n → i = j

/-! ## The manager -/

/-- The manager as the first half of `turn_connect` leaves it. -/
def TurnDial.mgr : TurnDial → TurnManager
  | .returned _ mgr => mgr
  | .allocating _ mgr => mgr

section Manager

variable {env : TurnEnv} {mgr : TurnManager} {slot i : TurnSlot}

end Manager

/-! ## Steps -/

section Step

variable {env : TurnEnv} {s : TurnRun}

/-- The request that leaves gets a number that no session has. -/
theorem TurnRun.Numbered.sendRequest (numbered : s.Numbered) {peerId : CString} {failed : List TurnCall}
    {waiting : TurnSlot → List TurnCall} {s' : TurnRun}
    (done : s.sendRequest env peerId failed waiting = some s') : s'.Numbered := by
  unfold TurnRun.sendRequest at done
  obtain ⟨sent, -, rfl⟩ := Option.map_eq_some_iff.1 done
  cases sent with
  | none => exact ⟨numbered.known, numbered.own⟩
  | some sent =>
    obtain ⟨slot, request⟩ := sent
    have fresh {i : TurnSlot} {n : ℕ} (latest : s.latest i = some n) : n ≠ s.sent.length :=
      Nat.ne_of_lt (numbered.known i n latest)
    constructor
    · intro i n latest
      dsimp only at latest ⊢
      rw [List.length_append, List.length_singleton]
      by_cases here : i = slot
      · rw [here, Function.update_self] at latest
        have : s.sent.length = n := Option.some.inj latest
        omega
      · rw [Function.update_of_ne here] at latest
        have := numbered.known i n latest
        omega
    · intro i j n liveI liveJ latestI latestJ
      dsimp only at latestI latestJ
      by_cases hereI : i = slot <;> by_cases hereJ : j = slot
      · rw [hereI, hereJ]
      · rw [hereI, Function.update_self] at latestI
        rw [Function.update_of_ne hereJ] at latestJ
        exact absurd (Option.some.inj latestI).symm (fresh latestJ)
      · rw [hereJ, Function.update_self] at latestJ
        rw [Function.update_of_ne hereI] at latestI
        exact absurd (Option.some.inj latestJ).symm (fresh latestI)
      · rw [Function.update_of_ne hereI] at latestI
        rw [Function.update_of_ne hereJ] at latestJ
        exact numbered.own i j n liveI liveJ latestI latestJ

/-- A session that is added has no request yet. -/
theorem TurnRun.Numbered.kept (numbered : s.Numbered) (mgr : TurnManager) (calls : List TurnCall) :
    TurnRun.Numbered { s with mgr := mgr, calls := calls, latest := s.latestKept } := by
  have before {i : TurnSlot} {n : ℕ} (latest : s.latestKept i = some n) :
      i.val < s.mgr.count ∧ s.latest i = some n := by
    unfold TurnRun.latestKept at latest
    split_ifs at latest with live
    exact ⟨live, latest⟩
  constructor
  · intro i n latest
    exact numbered.known i n (before latest).2
  · intro i j n _ _ latestI latestJ
    obtain ⟨liveI, latestI⟩ := before latestI
    obtain ⟨liveJ, latestJ⟩ := before latestJ
    exact numbered.own i j n liveI liveJ latestI latestJ

theorem origin_val (mgr : TurnManager) (slot i : TurnSlot) :
    (mgr.origin slot i).val =
      if slot.val ≤ i.val ∧ i.val + 1 < mgr.count then i.val + 1 else i.val := by
  unfold TurnManager.origin
  split_ifs <;> first | rfl | contradiction

/-- The sessions that move take their requests along. -/
theorem TurnRun.Numbered.disconnect (numbered : s.Numbered) (slot : TurnSlot) {mgr : TurnManager}
    (fewer : mgr.count = s.mgr.count - 1) :
    TurnRun.Numbered { s with mgr := mgr, latest := s.latest ∘ s.mgr.origin slot } := by
  have live {i : TurnSlot} (h : i.val < mgr.count) : (s.mgr.origin slot i).val < s.mgr.count := by
    unfold TurnManager.origin
    split_ifs with moved
    · exact moved.2
    · omega
  constructor
  · intro i n latest
    exact numbered.known _ n latest
  · intro i j n liveI liveJ latestI latestJ
    have same := numbered.own _ _ n (live liveI) (live liveJ) latestI latestJ
    dsimp only at liveI liveJ
    have val := congrArg Fin.val same
    rw [origin_val, origin_val] at val
    apply Fin.ext
    split_ifs at val <;> omega

theorem turnAllocateReceive_count {slot : TurnSlot} {received : Option Bytes} {mgr : TurnManager}
    {r : ℤ × TurnManager} (parsed : turnAllocateReceive env slot received mgr = some r) :
    r.2.count = mgr.count := by
  unfold turnAllocateReceive at parsed
  split at parsed
  · cases parsed
    rfl
  · split_ifs at parsed
    · cases parsed
      rfl
    · obtain ⟨_, -, rfl⟩ := Option.map_eq_some_iff.1 parsed
      rfl

theorem turnConnectEnd_count (slot : TurnSlot) (ret : ℤ) (mgr : TurnManager) :
    (turnConnectEnd env slot ret mgr).count = mgr.count := by
  unfold turnConnectEnd
  split_ifs <;> rfl

/-- Every step keeps the numbers apart. -/
theorem TurnRun.Numbered.step (numbered : s.Numbered) {l : TurnStep} {s' : TurnRun}
    (done : turnExec env s l = some s') : s'.Numbered := by
  cases l with
  | connect peerId serverHost =>
    obtain ⟨dial, -, rfl⟩ := Option.map_eq_some_iff.1 done
    cases dial with
    | returned ret mgr => exact numbered.kept mgr s.calls
    | allocating slot mgr => exact numbered.kept mgr _
  | allocate peerId => exact numbered.sendRequest done
  | send call =>
    unfold turnExec at done
    dsimp only at done
    split at done
    · exact numbered.sendRequest done
    · cases done
      exact numbered
  | receive call received =>
    unfold turnExec at done
    dsimp only at done
    split at done
    · obtain ⟨r, parsed, rfl⟩ := Option.map_eq_some_iff.1 done
      have same := turnAllocateReceive_count parsed
      refine ⟨numbered.known, fun i j n liveI liveJ => numbered.own i j n ?_ ?_⟩
      · exact same ▸ liveI
      · exact same ▸ liveJ
    · cases done
      exact numbered
  | finish call =>
    unfold turnExec at done
    dsimp only at done
    split at done
    · rename_i target ret returning
      cases done
      have same := @turnConnectEnd_count env target ret s.mgr
      refine ⟨numbered.known, fun i j n liveI liveJ => numbered.own i j n ?_ ?_⟩
      · exact same ▸ liveI
      · exact same ▸ liveJ
    · cases done
      exact numbered
  | disconnect peerId =>
    cases done
    cases found : turnFindSession peerId s.mgr with
    | none =>
      have same : turnDisconnect peerId s.mgr = s.mgr := by
        unfold turnDisconnect
        rw [found]
      rw [same]
      exact numbered
    | some slot =>
      refine numbered.disconnect slot ?_
      unfold turnDisconnect
      rw [found]

/-- The number of a request is that of one session. -/
theorem TurnRun.Numbered.alone (numbered : s.Numbered) {response : TurnDatagram} {i : TurnSlot}
    (live : i.val < s.mgr.count) (answers : s.Answers response i) {j : TurnSlot}
    (liveJ : j.val < s.mgr.count) (same : s.latest j = response.answered) : j = i := by
  obtain ⟨n, request, latest, -, answered, -⟩ := answers
  exact numbered.own j i n liveJ live (same.trans answered) latest

end Step

/-- Surroundings in which every datagram leaves, with a transaction id of one byte. -/
def TurnEnv.sending (b : UInt8) : TurnEnv :=
  { TurnEnv.failing ⟨List.replicate 12 b, List.length_replicate⟩ [] with sendto := fun _ _ _ => true }

end Orcashi
