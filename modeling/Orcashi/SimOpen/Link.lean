import Mathlib.Logic.Function.Basic
import Orcashi.Lib.History
import Orcashi.SimOpen.Session

/-!
# Two sides of a simultaneous open

Two sides are connected to each other, each runs one of the two calls and later reads and closes.  What
a side has sent is kept whole, and the other side reads it in order, a packet at a time.
-/

namespace Orcashi

open History

/-! ## The two sides -/

/-- The two sides. -/
inductive SimOpenSide where
  | left
  | right
  deriving DecidableEq

namespace SimOpenSide

/-- The side across. -/
def other : SimOpenSide → SimOpenSide
  | left => right
  | right => left

@[simp] theorem other_other (x : SimOpenSide) : x.other.other = x := by cases x <;> rfl

theorem other_ne (x : SimOpenSide) : x.other ≠ x := by cases x <;> decide

theorem eq_or_eq_other (x y : SimOpenSide) : y = x ∨ y = x.other := by
  cases x <;> cases y <;> decide

end SimOpenSide

/-- How a side is started: by `simultaneous_open_connect`, or else by `simultaneous_open_accept`. -/
structure SimOpenStart where
  initiator : Bool
  targetIp : IpText
  targetPort : ℤ
  env : SimOpenEnv
  setup : SimOpenSetup

/-- The token a side draws. -/
def SimOpenStart.token (start : SimOpenStart) : UInt32 :=
  simultaneousOpenGenerateSyncToken start.env start.setup

/-- Where the call of a side is. -/
inductive SimOpenCall where
  | idle
  /-- in `simultaneous_open_wait_for_sync`, with the number of tries after this one -/
  | waiting (left : ℕ)
  /-- behind a try, with the number of tries after the next one -/
  | pausing (left : ℕ)
  | returned
  deriving DecidableEq

/-- A side. -/
structure SimOpenParty where
  session : SimOpenSession
  call : SimOpenCall
  /-- the packets that have gone out, in order -/
  sent : List SimPacket
  /-- how many packets of the other side have been read -/
  taken : ℕ

/-- A side before its call. -/
def SimOpenParty.init (start : SimOpenStart) : SimOpenParty where
  session := .init start.targetIp start.targetPort
  call := .idle
  sent := []
  taken := 0

/-- The steps of a side.  Where there is a packet to read, it may still be under way. -/
inductive SimOpenMove where
  | begin
  /-- one `simultaneous_open_wait_for_sync` and what the loop makes of it -/
  | attempt (env : SimOpenEnv) (arrived : Bool)
  /-- what the loop does between two tries -/
  | again (env : SimOpenEnv)
  /-- `simultaneous_open_recv`, that sees the end of the stream if nothing arrived and it `ended` -/
  | recv (env : SimOpenEnv) (maxLen : ℕ) (arrived ended : Bool)
  | close (env : SimOpenEnv)

/-- The next packet of the other side, if the socket is open. -/
def SimOpenParty.next (p other : SimOpenParty) : Option SimPacket :=
  if p.session.socketFd < 0 then none else other.sent[p.taken]?

section Party

variable (start : SimOpenStart) (p : SimOpenParty)

/-- The call begins. -/
def SimOpenParty.begin : SimOpenParty :=
  let begun := simultaneousOpenBegin start.initiator start.env start.setup p.session
  { p with
    session := begun.left
    call := if begun.ret < 0 then .returned else .waiting (simOpenMaxRetry - 1)
    sent := p.sent ++ begun.sent }

/-- The call waits for a packet. -/
def SimOpenParty.attempt (env : SimOpenEnv) (packet : Option SimPacket) (left : ℕ) : SimOpenParty :=
  let waited := simultaneousOpenWaitForSync env (packet.map fun q => .bytes q.toBytes) p.session
  let established := waited.ret = 0 ∧ waited.left.state = .established
  { session := if ¬ established ∧ left = 0 then simultaneousOpenCleanup waited.left else waited.left
    call := if established ∨ left = 0 then .returned else .pausing (left - 1)
    sent := p.sent ++ waited.sent
    taken := p.taken + packet.toList.length }

/-- The call sends once more. -/
def SimOpenParty.again (env : SimOpenEnv) (left : ℕ) : SimOpenParty :=
  let retried := simultaneousOpenRetry start.initiator env p.session
  { p with session := retried.left, call := .waiting left, sent := p.sent ++ retried.sent }

/-- No step sends DATA, so no copy of `simultaneous_open_recv` leaves its buffer. -/
def SimOpenParty.recv (env : SimOpenEnv) (maxLen : ℕ) (packet : Option SimPacket) (ended : Bool) :
    SimOpenParty :=
  let read := (packet.map fun q => .bytes q.toBytes).getD
    (if ended then .bytes [] else .failed true)
  match simultaneousOpenRecv env read [] maxLen p.session with
  | none => p
  | some done =>
    { p with
      session := done.left
      sent := p.sent ++ done.sent
      taken := p.taken + packet.toList.length }

/-- The side closes its session. -/
def SimOpenParty.close (env : SimOpenEnv) : SimOpenParty :=
  let closed := simultaneousOpenClose env p.session
  { p with session := closed.left, sent := p.sent ++ closed.sent }

/-- One step of a side, with the packet it may read.  A call that has returned may be followed by
`simultaneous_open_recv`, which reads where the session is established and there is room, and by
`simultaneous_open_close`. -/
def SimOpenParty.move (next : Option SimPacket) (m : SimOpenMove) : SimOpenParty :=
  match p.call, m with
  | .idle, .begin => p.begin start
  | .waiting left, .attempt env arrived => p.attempt env (if arrived then next else none) left
  | .pausing left, .again env => p.again start env left
  | .returned, .recv env maxLen arrived ended =>
    if maxLen = 0 ∨ p.session.state ≠ .established then p
    else p.recv env maxLen (if arrived then next else none) ended
  | .returned, .close env => p.close env
  | _, _ => p

end Party

/-- Both sides. -/
abbrev SimOpenLink := SimOpenSide → SimOpenParty

section Runs

variable (start : SimOpenSide → SimOpenStart)

/-- Two sides before their calls. -/
def SimOpenLink.init : SimOpenLink := fun x => .init (start x)

/-- The sides after a move of one. -/
def simOpenStep (s : SimOpenLink) (l : SimOpenSide × SimOpenMove) : SimOpenLink :=
  Function.update s l.1 ((s l.1).move (start l.1) ((s l.1).next (s l.1.other)) l.2)

end Runs

/-! ## What the two sides should agree on -/

/-- Both sessions are established. -/
def SimOpenLink.Established (s : SimOpenLink) : Prop := ∀ x, (s x).session.state = .established

/-- No packet is in flight. -/
def SimOpenLink.Quiet (s : SimOpenLink) : Prop :=
  ∀ x : SimOpenSide, (s x).taken = (s x.other).sent.length

/-- Both sides have the same token. -/
def SimOpenLink.Agree (s : SimOpenLink) : Prop :=
  (s .left).session.syncToken = (s .right).session.syncToken

/-- The type of a packet. -/
def SimPacket.kind (p : SimPacket) : Option SimPacketType := SimPacketType.ofCode p.type

/-- A SYNC is among the packets. -/
def Synced (l : List SimPacket) : Prop := ∃ p ∈ l, p.kind = some .sync

/-- The step sends a SYNC. -/
def SimOpenMove.Syncs (start : SimOpenStart) (p : SimOpenParty) : SimOpenMove → Prop
  | begin => p.call = .idle ∧ start.initiator ∧ 0 ≤ start.setup.socket ∧ start.setup.connects ∧
      start.env.sends
  | again env => (∃ left, p.call = .pausing left) ∧ start.initiator ∧ 0 ≤ p.session.socketFd ∧ env.sends
  | attempt _ _ | recv _ _ _ _ | close _ => False

/-- The condition on a step: it does not send a SYNC if the other side has sent one. -/
def OneWay (start : SimOpenSide → SimOpenStart) (s : SimOpenLink) (l : SimOpenSide × SimOpenMove) :
    Prop :=
  l.2.Syncs (start l.1) (s l.1) → ¬ Synced (s l.1.other).sent

end Orcashi
