import Mathlib.Data.Finset.Lattice.Lemmas
import Mathlib.Data.Finset.Option
import Orcashi.Lib.Descriptors
import Orcashi.Parallel.Polling

/-!
# The sockets of the tasks

`parallel_run` closes no socket: what is open when it returns is what its tasks have left.  An executor
that fails closes the socket it has created, one that succeeds hands it on in its result, whether
`parallel_run` takes this result or not; and two of them leave a socket that no result names.
-/

namespace Orcashi

open History Descriptors

/-! ## What the executors open and close -/

/-- What a thread does to descriptors, in order. -/
abbrev FdEvents := List (Descriptors.Event ℤ)

/-- What else the system does for the sockets of one task. -/
structure TaskFds where
  /-- the sockets that step `i` of the executor opens and closes again -/
  passing : ℕ → List ℤ
  /-- whether step `i` finds `g_probe_socket` as another thread has left it -/
  shared : ℕ → Bool

/-- A socket that is closed where the executor fails. -/
def socketEvents (fd : ℤ) (inner : FdEvents) (success : Bool) : FdEvents :=
  .opens fd :: (inner ++ if success then [] else [.closes fd])

/-- An executor with a `PunchState`. -/
def punchEvents (net : TaskNet) (inner : FdEvents) (success : Bool) : FdEvents :=
  if net.socket < 0 then []
  else if !net.bound then passing [net.socket]
  else socketEvents net.socket inner success

/-- `simultaneous_open_punch` -/
def simultaneousOpenEvents (peer : P2PPeer) (net : TaskNet) (fds : TaskFds) (success : Bool) :
    FdEvents :=
  if peer.port ≤ 0 then []
  else if net.punch.simSetup.socket < 0 then passing (fds.passing 0)
  else socketEvents net.punch.simSetup.socket [] success

/-- The calls of `port_predictor_open_probe_socket` in a port prediction: one with each probe, and one
more before a range scan. -/
def probeCalls (peer : P2PPeer) (net : TaskNet) : List ℕ :=
  let probed := portPredictorProbes net.punch net.probe peer.ip peer.port
  List.range 6 ++
    if probed.2.observations.length < 3 ∨ (portPredictorPredict net.punch probed.2).1 < 0 then [6] else []

/-- What happens around these calls, with `g_probe_socket`: a socket that is bound to its port is left in
it, and nothing closes it. -/
def probeEvents (net : TaskNet) (fds : TaskFds) : List ℕ → ℤ → FdEvents
  | [], _ => []
  | i :: calls, probe =>
    (if 0 ≤ probe ∨ fds.shared i = true then []
      else if 0 ≤ net.punch.probeSocket i then [.opens (net.punch.probeSocket i)] else []) ++
      passing (fds.passing i) ++
      probeEvents net fds calls (portPredictorOpenProbeSocket net.punch i probe)

/-- What an executor opens and closes, if it succeeds and if it fails. -/
def executorEvents (peer : P2PPeer) (net : TaskNet) (fds : TaskFds) (success : Bool) :
    StrategyType → FdEvents
  | .ipv6Direct =>
    if net.hasIpv6 ∧ 0 ≤ net.ipv6Socket then socketEvents net.ipv6Socket [] success else []
  | .upnp => passing (fds.passing 0)
  | .udpPunch => punchEvents net [] success
  | .ttlPunch => punchEvents net (passing (fds.passing 0)) success
  | .simultaneousOpen => punchEvents net (simultaneousOpenEvents peer net fds success) success
  | .portPrediction => punchEvents net (probeEvents net fds (probeCalls peer net) net.probe) success
  | .tcpPunch | .friendRelay | .turnRelay | .manualPort | .none => []

/-! ## What no result names -/

/-- The socket a task opens and leaves in `g_probe_socket`. -/
def openedProbe (net : TaskNet) (fds : TaskFds) : List ℕ → ℤ → Option ℤ
  | [], _ => none
  | i :: calls, probe =>
    if probe < 0 ∧ fds.shared i = false ∧ 0 ≤ net.punch.probeSocket i then some (net.punch.probeSocket i)
    else openedProbe net fds calls (portPredictorOpenProbeSocket net.punch i probe)

/-- The sockets a task leaves besides the one in its result: the one of `punch_init` where simultaneous
open puts its own in its place, and the probe socket. -/
def leaked (peer : P2PPeer) (net : TaskNet) (fds : TaskFds) (success : Bool) :
    StrategyType → Finset ℤ
  | .simultaneousOpen => if success then {net.socket} else ∅
  | .portPrediction =>
    if net.socket < 0 ∨ net.bound = false then ∅
    else (openedProbe net fds (probeCalls peer net) net.probe).toFinset
  | _ => ∅

/-- What is left of a task with this socket in its result. -/
structure Leaves (success : Bool) (strategy : StrategyType) (socketFd : ℤ) (leak left : Finset ℤ) :
    Prop where
  left : left = (if success = true ∧ strategy ≠ .upnp then {socketFd} else ∅) ∪ leak
  besides : success = true → socketFd ∉ leak
  socket : success = true → (socketFd = -1 ↔ strategy = .upnp)

theorem Leaves.of_failure {strategy : StrategyType} {socketFd : ℤ} {leak left : Finset ℤ}
    (same : left = leak) : Leaves false strategy socketFd leak left := by
  refine ⟨?_, nofun, nofun⟩
  rw [same, if_neg fun h => Bool.false_ne_true h.1, Finset.empty_union]

theorem Leaves.of_success {strategy : StrategyType} {socketFd : ℤ} {leak left : Finset ℤ}
    (other : strategy ≠ .upnp) (all : left = {socketFd} ∪ leak) (besides : socketFd ∉ leak)
    (socket : 0 ≤ socketFd) : Leaves true strategy socketFd leak left := by
  refine ⟨?_, fun _ => besides, fun _ => iff_of_false (fun closed => ?_) other⟩
  · rw [all, if_pos ⟨rfl, other⟩]
  · rw [closed] at socket
    exact absurd socket (by decide)

section Socket

variable {h : Finset ℤ} {fd : ℤ} {inner : FdEvents} {success : Bool}

theorem fresh_socketEvents :
    Fresh h (socketEvents fd inner success) ↔ fd ∉ h ∧ Fresh (insert fd h) inner := by
  unfold socketEvents
  rw [fresh_opens, fresh_append]
  refine and_congr_right fun _ => and_iff_left ?_
  cases success with
  | false => exact fresh_closes.2 fresh_nil
  | true => exact fresh_nil

theorem held_socketEvents : held h (socketEvents fd inner success) =
    if success then held (insert fd h) inner else (held (insert fd h) inner).erase fd := by
  unfold socketEvents
  rw [held_opens, held_append]
  cases success <;> rfl

theorem tidy_socketEvents (tidy : Tidy (insert fd h) inner)
    (keeps : Fresh (insert fd h) inner → fd ∈ held (insert fd h) inner) :
    Tidy h (socketEvents fd inner success) := by
  unfold socketEvents
  rw [tidy_opens]
  refine fun _ => tidy.append fun fresh => ?_
  cases success with
  | false => exact tidy_closes.2 ⟨keeps fresh, tidy_nil⟩
  | true => exact tidy_nil

end Socket

section Probe

variable {net : TaskNet} {fds : TaskFds} {h : Finset ℤ} {probe : ℤ} {calls : List ℕ}

theorem openProbeSocket_of_nonneg (i : ℕ) (open_ : 0 ≤ probe) :
    portPredictorOpenProbeSocket net.punch i probe = probe := if_pos open_

theorem openedProbe_of_nonneg (open_ : 0 ≤ probe) : openedProbe net fds calls probe = none := by
  induction calls with
  | nil => rfl
  | cons i calls ih =>
    rw [openedProbe, if_neg fun h => absurd h.1 (Int.not_lt.2 open_), openProbeSocket_of_nonneg i open_]
    exact ih

theorem tidy_probeEvents : Tidy h (probeEvents net fds calls probe) := by
  induction calls generalizing h probe with
  | nil => exact tidy_nil
  | cons i calls ih =>
    rw [probeEvents]
    refine Tidy.append (Tidy.append ?_ fun _ => tidy_passing _) fun _ => ih
    split_ifs
    · exact tidy_nil
    · exact tidy_opens.2 fun _ => tidy_nil
    · exact tidy_nil

/-- After the calls a task holds what it held, and the probe socket if it has opened it. -/
theorem held_probeEvents (fresh : Fresh h (probeEvents net fds calls probe)) :
    held h (probeEvents net fds calls probe) = (openedProbe net fds calls probe).toFinset ∪ h ∧
      ∀ fd ∈ openedProbe net fds calls probe, fd ∉ h := by
  induction calls generalizing h probe with
  | nil => exact ⟨(Finset.empty_union h).symm, nofun⟩
  | cons i calls ih =>
    rw [probeEvents, List.append_assoc, fresh_append, fresh_append] at fresh
    obtain ⟨first, passed, rest⟩ := fresh
    rw [held_passing passed] at rest
    have later := ih rest
    rw [probeEvents, List.append_assoc, held_append, held_append, held_passing passed, later.1,
      openedProbe]
    by_cases opens : probe < 0 ∧ fds.shared i = false ∧ 0 ≤ net.punch.probeSocket i
    · obtain ⟨closed, alone, socket⟩ := opens
      have none : ¬ (0 ≤ probe ∨ fds.shared i = true) := by
        rw [alone]
        rintro (open_ | shared)
        · exact absurd closed (Int.not_lt.2 open_)
        · cases shared
      have now : portPredictorOpenProbeSocket net.punch i probe = net.punch.probeSocket i := by
        unfold portPredictorOpenProbeSocket
        rw [if_neg (Int.not_le.2 closed)]
        omega
      rw [if_neg none, if_pos socket, fresh_opens] at first
      rw [if_neg none, if_pos socket, if_pos ⟨closed, alone, socket⟩, now,
        openedProbe_of_nonneg socket]
      refine ⟨?_, fun fd same => ?_⟩
      · rw [held_opens, held_nil]
        exact Finset.empty_union _
      · obtain rfl := Option.some.inj same
        exact first.1
    · have nothing : (if 0 ≤ probe ∨ fds.shared i = true then ([] : FdEvents)
          else if 0 ≤ net.punch.probeSocket i then [.opens (net.punch.probeSocket i)] else []) = [] := by
        split_ifs with closed socket
        · rfl
        · rw [not_or, Bool.not_eq_true] at closed
          exact absurd ⟨Int.not_le.1 closed.1, closed.2, socket⟩ opens
        · rfl
      rw [nothing, held_nil] at later
      rw [nothing, held_nil, if_neg opens]
      exact ⟨rfl, later.2⟩

end Probe

/-! ## What each executor leaves -/

section Executor

variable {peer : P2PPeer} {net : TaskNet} {fds : TaskFds} {result : ConnectionResult} {success : Bool}

theorem executeIpv6Direct_success (h : (executeIpv6Direct net result).1 = 0) :
    net.hasIpv6 = true ∧ 0 ≤ net.ipv6Socket ∧
      (executeIpv6Direct net result).2.socketFd = net.ipv6Socket := by
  unfold executeIpv6Direct at h ⊢
  split_ifs at h ⊢ with has socket sent
  · cases h
  · cases h
  · cases h
  · rw [Bool.not_eq_true', Bool.not_eq_false] at has
    refine ⟨has, Int.not_lt.1 socket, ?_⟩
    cases read : net.ipv6Read with
    | none =>
      rw [read] at h
      cases h
    | some from_ =>
      rw [read] at h
      dsimp only at h ⊢
      split_ifs at h ⊢
      · rfl
      · cases h

theorem leaves_ipv6Direct (ret : success = true ↔ (executeIpv6Direct net result).1 = 0) :
    Leaves success .ipv6Direct (executeIpv6Direct net result).2.socketFd ∅
      (held ∅ (if net.hasIpv6 = true ∧ 0 ≤ net.ipv6Socket then
        socketEvents net.ipv6Socket [] success else [])) := by
  cases success with
  | false =>
    refine .of_failure ?_
    split_ifs
    · rw [held_socketEvents]
      exact Finset.erase_insert (Finset.notMem_empty _)
    · exact held_nil
  | true =>
    obtain ⟨has, socket, socketFd⟩ := executeIpv6Direct_success (ret.1 rfl)
    rw [socketFd, if_pos ⟨has, socket⟩, held_socketEvents]
    exact .of_success (by decide) rfl (Finset.notMem_empty _) socket

/-- An executor with a `PunchState` succeeds only with the socket of `punch_init`. -/
theorem executePunch_success {attempt : PunchState → PunchTried} {port socket : ℤ}
    {initMsg msg : String} {bound : Bool} {p : PunchState}
    (h : (executePunch attempt port initMsg msg socket bound p result).1 = 0) :
    0 ≤ socket ∧ bound = true ∧ ∃ begun, begun.udpSocket = socket ∧ (attempt begun).ret = 0 ∧
      (executePunch attempt port initMsg msg socket bound p result).2.socketFd =
        (attempt begun).left.udpSocket := by
  obtain ⟨tried, socketFd, -⟩ := executePunch_hands_on h
  unfold executePunch punchInit at h
  by_cases closed : socket < 0
  · rw [if_pos closed] at h
    cases h
  · cases bound with
    | false =>
      rw [if_neg closed] at h
      cases h
    | true =>
      refine ⟨Int.not_lt.1 closed, rfl, _, ?_, tried, socketFd⟩
      unfold punchInit
      rw [if_neg closed]
      rfl

theorem punchEvents_of_init {inner : FdEvents} (socket : 0 ≤ net.socket) (bound : net.bound = true) :
    punchEvents net inner success = socketEvents net.socket inner success := by
  unfold punchEvents
  rw [if_neg (Int.not_lt.2 socket), bound]
  rfl

theorem held_punchEvents_of_not_init {inner : FdEvents} {h : Finset ℤ}
    (failed : net.socket < 0 ∨ net.bound = false) (fresh : Fresh h (punchEvents net inner success)) :
    held h (punchEvents net inner success) = h := by
  unfold punchEvents at fresh ⊢
  by_cases closed : net.socket < 0
  · rw [if_pos closed]
    exact held_nil
  · rw [if_neg closed, failed.resolve_left closed] at fresh ⊢
    exact held_passing fresh

theorem tidy_punchEvents {inner : FdEvents} {h : Finset ℤ} (tidy : Tidy (insert net.socket h) inner)
    (keeps : Fresh (insert net.socket h) inner → net.socket ∈ held (insert net.socket h) inner) :
    Tidy h (punchEvents net inner success) := by
  unfold punchEvents
  split_ifs
  · exact tidy_nil
  · exact tidy_passing _
  · exact tidy_socketEvents tidy keeps

theorem init_cases (net : TaskNet) :
    (net.socket < 0 ∨ net.bound = false) ∨ 0 ≤ net.socket ∧ net.bound = true := by
  rcases lt_or_ge net.socket 0 with closed | socket
  · exact Or.inl (Or.inl closed)
  · cases bound : net.bound with
    | false => exact Or.inl (Or.inr rfl)
    | true => exact Or.inr ⟨socket, rfl⟩

/-- A technique that leaves the socket of `punch_init` where it is. -/
theorem leaves_punch {attempt : PunchState → PunchTried} {port : ℤ} {initMsg msg : String}
    {strategy : StrategyType} {inner : FdEvents} {leak : Finset ℤ} (punches : strategy ≠ .upnp)
    (same : ∀ p, (attempt p).left.udpSocket = p.udpSocket)
    (ret : success = true ↔
      (executePunch attempt port initMsg msg net.socket net.bound net.stack result).1 = 0)
    (none : net.socket < 0 ∨ net.bound = false → leak = ∅)
    (kept : 0 ≤ net.socket ∧ net.bound = true → Fresh {net.socket} inner →
      held {net.socket} inner = leak ∪ {net.socket} ∧ net.socket ∉ leak)
    (fresh : Fresh ∅ (punchEvents net inner success)) :
    Leaves success strategy
      (executePunch attempt port initMsg msg net.socket net.bound net.stack result).2.socketFd leak
      (held ∅ (punchEvents net inner success)) := by
  rcases init_cases net with failed | init
  · have unsuccessful : success = false := by
      rw [← Bool.not_eq_true, ret]
      intro h
      obtain ⟨socket, bound, -⟩ := executePunch_success h
      rcases failed with closed | unbound
      · exact absurd socket (Int.not_le.2 closed)
      · cases bound.symm.trans unbound
    rw [held_punchEvents_of_not_init failed fresh, none failed]
    subst unsuccessful
    exact .of_failure rfl
  · rw [punchEvents_of_init init.1 init.2] at fresh ⊢
    rw [fresh_socketEvents] at fresh
    obtain ⟨all, apart⟩ := kept init fresh.2
    rw [held_socketEvents]
    have start : insert net.socket ∅ = ({net.socket} : Finset ℤ) := rfl
    rw [start, all]
    cases success with
    | false =>
      refine .of_failure ?_
      rw [if_neg Bool.false_ne_true, Finset.erase_union_distrib, Finset.erase_eq_of_notMem apart,
        Finset.erase_singleton, Finset.union_empty]
    | true =>
      obtain ⟨-, -, begun, socket, -, socketFd⟩ := executePunch_success (ret.1 rfl)
      rw [socketFd, same, socket]
      refine .of_success punches ?_ apart init.1
      rw [if_pos rfl, Finset.union_comm]

theorem punchTryConnect_udpSocket {punch : PunchNet} {probe : ℤ} (p : PunchState) :
    (punchTryConnect punch probe p).left.udpSocket = p.udpSocket := by
  unfold punchTryConnect punchLoop
  split <;> rfl

theorem punchTryTtl_udpSocket {punch : PunchNet} {probe : ℤ} (p : PunchState) :
    (punchTryTtl punch probe p).left.udpSocket = p.udpSocket := by
  unfold punchTryTtl punchLoop
  split <;> rfl

theorem portPredictRangeScan_udpSocket {punch : PunchNet} {probe port : ℤ} (p : PunchState) :
    (portPredictRangeScan punch probe port p).left.udpSocket = p.udpSocket := by
  unfold portPredictRangeScan
  dsimp only
  split_ifs
  · rfl
  · split <;> rfl

theorem punchTryPortPrediction_udpSocket {punch : PunchNet} {probe : ℤ} {ip : IpText} {port : ℤ}
    (p : PunchState) : (punchTryPortPrediction punch probe ip port p).left.udpSocket = p.udpSocket := by
  unfold punchTryPortPrediction portPredictorPunch
  dsimp only
  split_ifs
  · exact portPredictRangeScan_udpSocket _
  · exact portPredictRangeScan_udpSocket _
  · split <;> rfl

/-- Simultaneous open succeeds only with a socket of its own. -/
theorem punchTrySimultaneous_success {punch : PunchNet} {probe : ℤ} {ip : IpText} {port : ℤ}
    {p : PunchState} (h : (punchTrySimultaneous punch probe ip port p).ret = 0) :
    0 < port ∧ 0 ≤ punch.simSetup.socket ∧
      (punchTrySimultaneous punch probe ip port p).left.udpSocket = punch.simSetup.socket := by
  unfold punchTrySimultaneous simultaneousOpenPunch simultaneousOpenInit at h ⊢
  by_cases refused : port ≤ 0
  · rw [if_pos refused] at h
    cases h
  · rw [if_neg refused] at h ⊢
    dsimp only at h ⊢
    split_ifs at h ⊢ with connected
    · obtain ⟨socket, left⟩ := call_end.2 connected
      exact ⟨Int.not_le.1 refused, socket, left⟩
    · cases h

/-- It leaves the socket of `punch_init` open where it succeeds, and none where it fails. -/
theorem leaves_simultaneousOpen
    (ret : success = true ↔ (executeSimultaneousOpen net.punch net.probe peer.ip peer.port net.socket
      net.bound net.stack result).1 = 0)
    (fresh : Fresh ∅ (punchEvents net (simultaneousOpenEvents peer net fds success) success)) :
    Leaves success .simultaneousOpen
      (executeSimultaneousOpen net.punch net.probe peer.ip peer.port net.socket net.bound net.stack
        result).2.socketFd
      (if success then {net.socket} else ∅)
      (held ∅ (punchEvents net (simultaneousOpenEvents peer net fds success) success)) := by
  cases success with
  | false =>
    refine .of_failure ?_
    rw [if_neg Bool.false_ne_true]
    rcases init_cases net with failed | init
    · exact held_punchEvents_of_not_init failed fresh
    · rw [punchEvents_of_init init.1 init.2] at fresh ⊢
      rw [fresh_socketEvents] at fresh
      have inner : held (insert net.socket ∅) (simultaneousOpenEvents peer net fds false) =
          insert net.socket ∅ := by
        have passed := fresh.2
        unfold simultaneousOpenEvents at passed ⊢
        split_ifs at passed ⊢
        · exact held_nil
        · exact held_passing passed
        · rw [fresh_socketEvents] at passed
          rw [held_socketEvents]
          exact Finset.erase_insert passed.1
      rw [held_socketEvents, inner]
      exact Finset.erase_insert fresh.1
  | true =>
    obtain ⟨socket, bound, begun, -, tried, socketFd⟩ := executePunch_success (ret.1 rfl)
    obtain ⟨port, own, left⟩ := punchTrySimultaneous_success tried
    have events : simultaneousOpenEvents peer net fds true =
        socketEvents net.punch.simSetup.socket [] true := by
      unfold simultaneousOpenEvents
      rw [if_neg (Int.not_le.2 port), if_neg (Int.not_lt.2 own)]
    rw [events, punchEvents_of_init socket bound, fresh_socketEvents, fresh_socketEvents] at fresh
    have apart : net.punch.simSetup.socket ∉ ({net.socket} : Finset ℤ) := fresh.2.1
    unfold executeSimultaneousOpen
    rw [socketFd, left, events, punchEvents_of_init socket bound, held_socketEvents, if_pos rfl,
      held_socketEvents, if_pos rfl, held_nil, if_pos rfl]
    exact .of_success (by decide) rfl apart own

/-- What an executor leaves. -/
theorem leaves_executor {strategy : StrategyType} {execute : ConnectionResult → ℤ × ConnectionResult}
    (has : executor peer net strategy = some execute)
    (ret : success = true ↔ (execute result).1 = 0)
    (fresh : Fresh ∅ (executorEvents peer net fds success strategy)) :
    Leaves success strategy (execute result).2.socketFd (leaked peer net fds success strategy)
      (held ∅ (executorEvents peer net fds success strategy)) := by
  have unsuccessful (h : (execute result).1 = -1) : success = false := by
    rw [← Bool.not_eq_true, ret, h]
    decide
  cases strategy with
  | none => cases has
  | ipv6Direct =>
    cases has
    exact leaves_ipv6Direct ret
  | upnp =>
    cases has
    refine ⟨?_, fun _ => Finset.notMem_empty _, fun h => iff_of_true ?_ rfl⟩
    · rw [if_neg fun h => h.2 rfl]
      exact held_passing fresh
    · have success := ret.1 h
      unfold executeUpnp at success ⊢
      split_ifs at success ⊢
      · rfl
      · cases success
  | udpPunch =>
    cases has
    exact leaves_punch (by decide) punchTryConnect_udpSocket ret (fun _ => rfl)
      (fun _ _ => ⟨rfl, Finset.notMem_empty _⟩) fresh
  | ttlPunch =>
    cases has
    refine leaves_punch (by decide) punchTryTtl_udpSocket ret (fun _ => rfl)
      (fun _ passed => ⟨?_, Finset.notMem_empty _⟩) fresh
    exact (held_passing passed).trans (Finset.empty_union _).symm
  | simultaneousOpen =>
    cases has
    exact leaves_simultaneousOpen ret fresh
  | portPrediction =>
    cases has
    refine leaves_punch (by decide) punchTryPortPrediction_udpSocket ret (fun failed => if_pos failed)
      (fun init passed => ?_) fresh
    have leak : leaked peer net fds success .portPrediction =
        (openedProbe net fds (probeCalls peer net) net.probe).toFinset := by
      refine if_neg ?_
      rintro (closed | unbound)
      · exact absurd init.1 (Int.not_le.2 closed)
      · cases init.2.symm.trans unbound
    obtain ⟨all, apart⟩ := held_probeEvents passed
    rw [leak]
    refine ⟨all, fun mem => ?_⟩
    exact apart _ (Option.mem_toFinset.1 mem) (Finset.mem_singleton_self _)
  | tcpPunch | friendRelay | turnRelay | manualPort =>
    cases has
    rw [unsuccessful rfl]
    exact .of_failure rfl

theorem tidy_simultaneousOpenEvents {h : Finset ℤ} :
    Tidy h (simultaneousOpenEvents peer net fds success) := by
  unfold simultaneousOpenEvents
  split_ifs
  · exact tidy_nil
  · exact tidy_passing _
  · exact tidy_socketEvents tidy_nil fun _ => Finset.mem_insert_self _ _

/-- Simultaneous open closes no socket but its own. -/
theorem mem_held_simultaneousOpenEvents {h : Finset ℤ} {fd : ℤ} (mem : fd ∈ h)
    (fresh : Fresh h (simultaneousOpenEvents peer net fds success)) :
    fd ∈ held h (simultaneousOpenEvents peer net fds success) := by
  unfold simultaneousOpenEvents at fresh ⊢
  split_ifs at fresh ⊢
  · exact mem
  · rwa [held_passing fresh]
  · rw [fresh_socketEvents] at fresh
    rw [held_socketEvents]
    cases success with
    | false => exact Finset.mem_erase.2 ⟨fun same => fresh.1 (same ▸ mem), Finset.mem_insert_of_mem mem⟩
    | true => exact Finset.mem_insert_of_mem mem

/-- An executor closes only the sockets it has opened. -/
theorem tidy_executorEvents (strategy : StrategyType) :
    Tidy ∅ (executorEvents peer net fds success strategy) := by
  have own (fd : ℤ) : fd ∈ (insert fd ∅ : Finset ℤ) := Finset.mem_insert_self _ _
  cases strategy with
  | ipv6Direct =>
    show Tidy ∅ (if _ then _ else _)
    split_ifs
    · exact tidy_socketEvents tidy_nil fun _ => own _
    · exact tidy_nil
  | upnp => exact tidy_passing _
  | udpPunch => exact tidy_punchEvents tidy_nil fun _ => own _
  | ttlPunch =>
    refine tidy_punchEvents (tidy_passing _) fun fresh => ?_
    rw [held_passing fresh]
    exact own _
  | simultaneousOpen =>
    exact tidy_punchEvents tidy_simultaneousOpenEvents (mem_held_simultaneousOpenEvents (own _))
  | portPrediction =>
    refine tidy_punchEvents tidy_probeEvents fun fresh => ?_
    rw [(held_probeEvents fresh).1]
    exact Finset.mem_union_right _ (own _)
  | tcpPunch | friendRelay | turnRelay | manualPort | none => exact tidy_nil

end Executor

/-! ## Calls -/

/-- What the thread of the strategy with this number opens and closes. -/
def threadEvents (w : ParallelWorld) (fds : ℕ → TaskFds) (strategies : List StrategyType) (i : ℕ) :
    FdEvents :=
  match (strategies.take maxStrategies)[i]? with
  | some strategy =>
    if w.creates i && w.starts i then
      executorEvents w.peer (w.net i) (fds i) (taskThread (w.env strategies) i strategy).success strategy
    else []
  | none => []

/-- The descriptors after the events of the threads, in the order in which they came. -/
def descriptorTable (schedule : List (ℕ × Descriptors.Event ℤ)) : ℤ → Option ℕ :=
  run tableStep (fun _ => none) schedule

/-- When the call returns, the socket of its result is open, if it has returned 0 and there is one, and
nothing else is. -/
def KeepsWinnersSocket (w : ParallelWorld) (strategies : List StrategyType) (taskCount : ℕ)
    (result : ConnectionResult) (schedule : List (ℕ × Descriptors.Event ℤ)) : Prop :=
  ∀ fuel ret last stored,
    parallelRun (w.env strategies) strategies taskCount result fuel = .returned ret last stored →
      ∀ fd, (descriptorTable schedule fd).isSome ↔
        ret = 0 ∧ last.socketFd ≠ -1 ∧ fd = last.socketFd

/-- The condition on the executors and on the timing: where the loop ends, no task has left a socket
besides the one in its result, and one that has left that one is the task the loop has ended with. -/
def OnlyWinnerLeaves (w : ParallelWorld) (fds : ℕ → TaskFds) (strategies : List StrategyType) : Prop :=
  ∀ outcome, LoopEnds (w.env strategies) (startedTasks (w.env strategies) strategies) outcome →
    ∀ x ∈ numbered strategies, w.Starts x.2 →
      leaked w.peer (w.net x.2) (fds x.2) (taskThread (w.env strategies) x.2 x.1).success x.1 = ∅ ∧
        ((taskThread (w.env strategies) x.2 x.1).success = true → x.1 ≠ .upnp →
          outcome = some ⟨x.2, taskThread (w.env strategies) x.2 x.1⟩)

section Return

variable {env : ParallelEnv} {strategies : List StrategyType} {taskCount : ℕ}
  {result : ConnectionResult}

/-- What a call returns where its loop has ended so. -/
def Returns (outcome : Option ParallelTask) (ret : ℤ) (last : ConnectionResult) : Prop :=
  match outcome with
  | some task => ret = 0 ∧ last = task.result
  | none => ret = -1

theorem Returns.socket {outcome : Option ParallelTask} {ret : ℤ} {last : ConnectionResult}
    (h : Returns outcome ret last) (fd : ℤ) : ret = 0 ∧ last.socketFd ≠ -1 ∧ fd = last.socketFd ↔
      ∃ task, outcome = some task ∧ task.result.socketFd ≠ -1 ∧ fd = task.result.socketFd := by
  cases outcome with
  | none =>
    refine iff_of_false (fun zero => ?_) fun ⟨_, same, _⟩ => Option.some_ne_none _ same.symm
    cases zero.1.symm.trans h
  | some task =>
    obtain ⟨rfl, rfl⟩ := h
    exact ⟨fun same => ⟨task, rfl, same.2⟩, fun ⟨_, same, is⟩ => Option.some.inj same ▸ ⟨rfl, is⟩⟩

theorem returns_of_parallelRun {fuel : ℕ} {ret : ℤ} {last : ConnectionResult} {stored : ℕ}
    (h : parallelRun env strategies taskCount result fuel = .returned ret last stored) :
    taskCount + storedTasks env strategies ≤ maxStrategies ∧
      ∃ outcome, LoopEnds env (startedTasks env strategies) outcome ∧ Returns outcome ret last := by
  by_cases fits : taskCount + storedTasks env strategies ≤ maxStrategies
  · refine ⟨fits, ?_⟩
    cases tasks : startedTasks env strategies with
    | nil =>
      unfold parallelRun at h
      dsimp only at h
      rw [if_neg (Nat.not_lt.2 fits), tasks] at h
      cases h
      exact ⟨none, ⟨0, nofun, Nat.zero_le _⟩, rfl⟩
    | cons first rest =>
      rw [parallelRun_eq fits tasks] at h
      cases ended : parallelWait env (startedTasks env strategies) fuel 0 0 with
      | none =>
        rw [ended] at h
        cases h
      | some outcome =>
        rw [ended] at h
        have ends := @loopEnds_of_parallelWait _ _ _ _ 0 nofun ended
        rw [tasks] at ends
        refine ⟨outcome, ends, ?_⟩
        cases outcome <;> cases h
        · rfl
        · exact ⟨rfl, rfl⟩
  · unfold parallelRun at h
    dsimp only at h
    rw [if_pos (Nat.not_le.1 fits)] at h
    cases h

theorem parallelRun_of_loopEnds (fits : taskCount + storedTasks env strategies ≤ maxStrategies)
    {outcome : Option ParallelTask} (ends : LoopEnds env (startedTasks env strategies) outcome) :
    ∃ fuel ret last stored,
      parallelRun env strategies taskCount result fuel = .returned ret last stored ∧
        Returns outcome ret last := by
  cases tasks : startedTasks env strategies with
  | nil =>
    have given_up : outcome = none := by
      obtain ⟨k, -, last⟩ := ends
      cases outcome with
      | none => rfl
      | some task =>
        rw [tasks] at last
        exact absurd last.1 (Nat.not_lt_zero _)
    refine ⟨0, -1, result, taskCount + storedTasks env strategies, ?_, ?_⟩
    · unfold parallelRun
      dsimp only
      rw [if_neg (Nat.not_lt.2 fits), tasks]
    · rw [given_up]
      rfl
  | cons first rest =>
    obtain ⟨fuel, ended⟩ := parallelWait_of_loopEnds ends
    have run := @parallelRun_eq _ _ _ result fits _ _ tasks fuel
    rw [ended] at run
    cases outcome with
    | none => exact ⟨fuel, _, _, _, run, rfl⟩
    | some task => exact ⟨fuel, _, _, _, run, rfl, rfl⟩

end Return

section Tasks

variable {w : ParallelWorld} {fds : ℕ → TaskFds} {strategies : List StrategyType}

theorem mem_numbered_iff {strategy : StrategyType} {i : ℕ} :
    (strategy, i) ∈ numbered strategies ↔ (strategies.take maxStrategies)[i]? = some strategy :=
  List.mem_zipIdx_iff_getElem?

theorem numbered_unique {x y : StrategyType × ℕ} (hx : x ∈ numbered strategies)
    (hy : y ∈ numbered strategies) (same : x.2 = y.2) : x = y := by
  have strategy := (mem_numbered_iff.1 hx).symm.trans
    ((congrArg _ same).trans (mem_numbered_iff.1 hy))
  exact Prod.ext (Option.some.inj strategy) same

theorem tidy_threadEvents (i : ℕ) : Tidy ∅ (threadEvents w fds strategies i) := by
  unfold threadEvents
  split
  · split_ifs
    · exact tidy_executorEvents _
    · exact tidy_nil
  · exact tidy_nil

theorem threadEvents_of_starts {x : StrategyType × ℕ} (mem : x ∈ numbered strategies)
    (starts : w.Starts x.2) : threadEvents w fds strategies x.2 = executorEvents w.peer (w.net x.2)
      (fds x.2) (taskThread (w.env strategies) x.2 x.1).success x.1 := by
  unfold threadEvents
  rw [mem_numbered_iff.1 mem, starts.1, starts.2]
  rfl

/-- What a thread leaves is left by a task that was started. -/
theorem starts_of_mem_held {i : ℕ} {fd : ℤ} (mem : fd ∈ held ∅ (threadEvents w fds strategies i)) :
    ∃ x ∈ numbered strategies, w.Starts x.2 ∧ x.2 = i := by
  unfold threadEvents at mem
  cases strategy : (strategies.take maxStrategies)[i]? with
  | none =>
    rw [strategy] at mem
    exact absurd mem (Finset.notMem_empty _)
  | some strategy_ =>
    rw [strategy] at mem
    dsimp only at mem
    split_ifs at mem with starts
    · rw [Bool.and_eq_true] at starts
      exact ⟨(strategy_, i), mem_numbered_iff.2 strategy, starts, rfl⟩
    · exact absurd mem (Finset.notMem_empty _)

/-- What a task that was started leaves. -/
theorem leaves_thread {x : StrategyType × ℕ} (mem : x ∈ numbered strategies) (starts : w.Starts x.2)
    (fresh : Fresh ∅ (threadEvents w fds strategies x.2)) :
    Leaves (taskThread (w.env strategies) x.2 x.1).success x.1
      (taskThread (w.env strategies) x.2 x.1).socketFd
      (leaked w.peer (w.net x.2) (fds x.2) (taskThread (w.env strategies) x.2 x.1).success x.1)
      (held ∅ (threadEvents w fds strategies x.2)) := by
  rw [threadEvents_of_starts mem starts] at fresh ⊢
  cases has : executor w.peer (w.net x.2) x.1 with
  | none =>
    have named : x.1 = .none := by
      cases strategy : x.1 with
      | none => rfl
      | _ =>
        rw [strategy] at has
        cases has
    rw [named]
    exact .of_failure rfl
  | some execute =>
    obtain ⟨result, success, socketFd, -⟩ := taskThread_execute mem has
    rw [socketFd]
    exact leaves_executor has (by rw [success, decide_eq_true_iff]) fresh

/-- The task a loop ends with was started and has succeeded. -/
theorem task_of_loopEnds {task : ParallelTask}
    (ends : LoopEnds (w.env strategies) (startedTasks (w.env strategies) strategies) (some task)) :
    ∃ x ∈ numbered strategies, w.Starts x.2 ∧ task = ⟨x.2, taskThread (w.env strategies) x.2 x.1⟩ ∧
      (taskThread (w.env strategies) x.2 x.1).success = true := by
  obtain ⟨k, -, -, found, wins⟩ := ends
  obtain ⟨x, mem, starts, rfl⟩ := mem_startedTasks.1 (mem_of_firstDone found)
  exact ⟨x, mem, starts, rfl, wins⟩

end Tasks

/-- When a call returns, only the socket of its result is open, exactly if where its loop ends no task
leaves a socket no result names, and none but the winner one that its result names. -/
theorem keeps_winners_socket_iff (w : ParallelWorld) (fds : ℕ → TaskFds)
    (strategies : List StrategyType) (taskCount : ℕ) (result : ConnectionResult)
    {schedule : List (ℕ × Descriptors.Event ℤ)} (free : Meets tableStep Free (fun _ => none) schedule)
    (threads : ∀ i, own i schedule = threadEvents w fds strategies i) :
    KeepsWinnersSocket w strategies taskCount result schedule ↔
      (taskCount + storedTasks (w.env strategies) strategies ≤ maxStrategies →
        OnlyWinnerLeaves w fds strategies) := by
  have start (fd : ℤ) (i : ℕ) : (none : Option ℕ) = some i ↔ fd ∈ (∅ : Finset ℤ) :=
    iff_of_false nofun (Finset.notMem_empty _)
  obtain ⟨fresh, owner⟩ := owner_iff start free fun i => by
    rw [threads]
    exact tidy_threadEvents i
  simp only [threads] at fresh owner
  have opened (fd : ℤ) : (descriptorTable schedule fd).isSome ↔
      ∃ i, fd ∈ held ∅ (threadEvents w fds strategies i) := by
    rw [Option.isSome_iff_exists]
    exact exists_congr fun i => owner fd i
  have leaves {x : StrategyType × ℕ} (mem : x ∈ numbered strategies) (starts : w.Starts x.2) :=
    leaves_thread mem starts (fresh x.2)
  -- a descriptor has one owner, so what two tasks leave is apart
  have same {x y : StrategyType × ℕ} {fd : ℤ} (hx : x ∈ numbered strategies)
      (hy : y ∈ numbered strategies) (left : fd ∈ held ∅ (threadEvents w fds strategies x.2))
      (left' : fd ∈ held ∅ (threadEvents w fds strategies y.2)) : x = y := by
    have one := ((owner fd x.2).2 left).symm.trans ((owner fd y.2).2 left')
    exact numbered_unique hx hy (Option.some.inj one)
  have socket {x : StrategyType × ℕ} (mem : x ∈ numbered strategies) (starts : w.Starts x.2)
      (success : (taskThread (w.env strategies) x.2 x.1).success = true) (other : x.1 ≠ .upnp) :
      (taskThread (w.env strategies) x.2 x.1).socketFd ∈
        held ∅ (threadEvents w fds strategies x.2) := by
    rw [(leaves mem starts).left, if_pos ⟨success, other⟩]
    exact Finset.mem_union_left _ (Finset.mem_singleton_self _)
  constructor
  · intro keeps fits outcome ends x mem starts
    obtain ⟨fuel, ret, last, stored, returned, returns⟩ := parallelRun_of_loopEnds fits ends
    have only (fd : ℤ) := (keeps fuel ret last stored returned fd).trans (returns.socket fd)
    -- whatever is open is the socket of the winner
    have winner {fd : ℤ} (left : fd ∈ held ∅ (threadEvents w fds strategies x.2)) :
        outcome = some ⟨x.2, taskThread (w.env strategies) x.2 x.1⟩ ∧
          (taskThread (w.env strategies) x.2 x.1).success = true ∧
          fd = (taskThread (w.env strategies) x.2 x.1).socketFd := by
      obtain ⟨task, rfl, some_socket, is⟩ := (only fd).1 ((opened fd).2 ⟨x.2, left⟩)
      obtain ⟨y, memY, startsY, rfl, success⟩ := task_of_loopEnds ends
      have other : y.1 ≠ .upnp := fun upnp => some_socket (((leaves memY startsY).socket success).2 upnp)
      have mine := socket memY startsY success other
      rw [is] at left
      obtain rfl := same mem memY left mine
      exact ⟨rfl, success, is⟩
    constructor
    · refine Finset.eq_empty_of_forall_notMem fun fd leak => ?_
      have left : fd ∈ held ∅ (threadEvents w fds strategies x.2) := by
        rw [(leaves mem starts).left]
        exact Finset.mem_union_right _ leak
      obtain ⟨-, success, is⟩ := winner left
      exact (leaves mem starts).besides success (is ▸ leak)
    · exact fun success other => (winner (socket mem starts success other)).1
  · intro only fuel ret last stored returned fd
    obtain ⟨fits, outcome, ends, returns⟩ := returns_of_parallelRun returned
    rw [returns.socket, opened]
    constructor
    · rintro ⟨i, left⟩
      obtain ⟨x, mem, starts, rfl⟩ := starts_of_mem_held left
      obtain ⟨clean, wins⟩ := only fits outcome ends x mem starts
      rw [(leaves mem starts).left, clean, Finset.union_empty] at left
      split_ifs at left with holds
      · have is := Finset.mem_singleton.1 left
        refine ⟨_, wins holds.1 holds.2, ?_, is⟩
        exact fun none => holds.2 (((leaves mem starts).socket holds.1).1 none)
      · exact absurd left (Finset.notMem_empty _)
    · rintro ⟨task, rfl, some_socket, is⟩
      obtain ⟨x, mem, starts, rfl, success⟩ := task_of_loopEnds ends
      have other : x.1 ≠ .upnp := fun upnp => some_socket (((leaves mem starts).socket success).2 upnp)
      rw [is]
      exact ⟨x.2, socket mem starts success other⟩

/-- Nothing is opened and closed in passing, and the probe socket is each task's own. -/
def TaskFds.plain : TaskFds := ⟨fun _ => [], fun _ => false⟩

/-- A punch that fails closes its socket. -/
theorem failed_punch_closes :
    KeepsWinnersSocket ParallelWorld.silent [.udpPunch] 0 .zero [(0, .opens 3), (0, .closes 3)] ↔
      (0 + storedTasks (ParallelWorld.silent.env [.udpPunch]) [.udpPunch] ≤ maxStrategies →
        OnlyWinnerLeaves ParallelWorld.silent (fun _ => .plain) [.udpPunch]) := by
  refine keeps_winners_socket_iff ParallelWorld.silent (fun _ => .plain) [.udpPunch] 0 .zero
    ⟨fun _ _ => rfl, fun _ => nofun, trivial⟩ fun i => ?_
  match i with
  | 0 => rfl
  | i + 1 => rfl

/-- Two sockets, to each of which an answer comes. -/
def ParallelWorld.bothAnswered : ParallelWorld :=
  { ParallelWorld.silent with
    net := fun i => { TaskNet.silent with
      socket := 3 + i
      punch := { PunchNet.silent with
        listen := fun _ => some ⟨CMemory.ascii "ORCA_PUNCH", ⟨(10, 0, 0, 2), 4000⟩⟩ } } }

/-- Two punches succeed, the first one wins, and the socket of the second one stays open. -/
theorem loser_keeps_socket :
    let schedule : List (ℕ × Descriptors.Event ℤ) := [(0, .opens 3), (1, .opens 4)]
    Meets tableStep Free (fun _ => none) schedule ∧
      (∀ i, own i schedule =
        threadEvents .bothAnswered (fun _ => .plain) [.udpPunch, .ttlPunch] i) ∧
      (∃ last, parallelRun (ParallelWorld.bothAnswered.env [.udpPunch, .ttlPunch])
          [.udpPunch, .ttlPunch] 0 .zero 1 = .returned 0 last 2 ∧ last.socketFd = 3) ∧
      descriptorTable schedule 4 = some 1 ∧
      ¬ KeepsWinnersSocket .bothAnswered [.udpPunch, .ttlPunch] 0 .zero schedule := by
  intro schedule
  have free : Meets tableStep Free (fun _ => none) schedule :=
    ⟨fun _ _ => rfl, fun _ opens => by cases opens; rfl, trivial⟩
  have threads (i : ℕ) : own i schedule =
      threadEvents .bothAnswered (fun _ => .plain) [.udpPunch, .ttlPunch] i := by
    match i with
    | 0 => rfl
    | 1 => rfl
    | i + 2 => rfl
  have returned : ∃ last, parallelRun (ParallelWorld.bothAnswered.env [.udpPunch, .ttlPunch])
      [.udpPunch, .ttlPunch] 0 .zero 1 = .returned 0 last 2 ∧ last.socketFd = 3 := ⟨_, rfl, rfl⟩
  have left : descriptorTable schedule 4 = some 1 := rfl
  refine ⟨free, threads, returned, left, fun keeps => ?_⟩
  obtain ⟨last, returned, socketFd⟩ := returned
  obtain ⟨-, -, is⟩ := (keeps 1 0 last 2 returned 4).1 (by rw [left]; rfl)
  rw [socketFd] at is
  exact absurd is (by decide)

end Orcashi
