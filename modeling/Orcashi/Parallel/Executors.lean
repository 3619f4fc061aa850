import Orcashi.P2P.Peer
import Orcashi.ParallelRunner
import Orcashi.Punch.Peer

/-!
# The executors of the strategies

What the thread of each strategy leaves in its result, from what the system and the network do for it.
A strategy that is done has left a mark there, by which `parallel_run` knows it; a strategy without an
executor leaves none.
-/

namespace Orcashi

open CMemory

/-! ## What the executors meet -/

/-- `errno` after a call that has failed. -/
def Errno := { e : ℤ // e ≠ 0 }

/-- What the system and the network do for one task. -/
structure TaskNet where
  /-- whether the peer has an IPv6 address -/
  hasIpv6 : Bool
  ipv6Socket : ℤ
  ipv6Sent : Bool
  errno : Errno
  strerror : CString
  /-- where something has come: the buffer, the text `inet_ntop` leaves in `peer_ip`, and the port -/
  ipv6Read : Option (Bytes × IpText × ℤ)
  /-- `upnp_add_port_mapping(peer->port)` -/
  mapping : ℤ
  /-- the socket of `punch_init`, and whether it can be bound -/
  socket : ℤ
  bound : Bool
  /-- what the stack holds for the `PunchState` -/
  stack : PunchState
  punch : PunchNet
  /-- `g_probe_socket` -/
  probe : ℤ

/-- A system call of an executor has failed. -/
def ConnectionResult.failCall (net : TaskNet) (call : String) (result : ConnectionResult) :
    ℤ × ConnectionResult :=
  (-1, { result with errorCode := net.errno.val, errorMsg := cut 256 (ascii call ++ net.strerror) })

/-- `execute_ipv6_direct` -/
def executeIpv6Direct (net : TaskNet) (result : ConnectionResult) : ℤ × ConnectionResult :=
  if !net.hasIpv6 then result.fail "IPv6 not available"
  else if net.ipv6Socket < 0 then result.failCall net "socket failed: "
  else if !net.ipv6Sent then result.failCall net "sendto failed: "
  else
    match net.ipv6Read with
    | some (buffer, ip, port) =>
      if strAt buffer 0 = ascii "ORCA_IPV6_RESPONSE" then
        (0, { result with success := true, socketFd := net.ipv6Socket, peerIp := ip, peerPort := port })
      else result.fail "No IPv6 response"
    | none => result.fail "No IPv6 response"

/-- `execute_upnp` -/
def executeUpnp (peer : P2PPeer) (net : TaskNet) (result : ConnectionResult) : ℤ × ConnectionResult :=
  if 0 < net.mapping then
    (0, { result with success := true, socketFd := -1, peerIp := peer.ip, peerPort := net.mapping })
  else result.fail "UPnP mapping failed"

/-- `execute_tcp_punch` -/
def executeTcpPunch : ConnectionResult → ℤ × ConnectionResult :=
  ConnectionResult.fail "TCP punch not implemented yet"

/-- `execute_friend_relay` -/
def executeFriendRelay : ConnectionResult → ℤ × ConnectionResult :=
  ConnectionResult.fail "Friend relay not implemented yet"

/-- `execute_turn_relay` -/
def executeTurnRelay : ConnectionResult → ℤ × ConnectionResult :=
  ConnectionResult.fail "TURN relay not implemented yet"

/-- `execute_manual_port` -/
def executeManualPort : ConnectionResult → ℤ × ConnectionResult :=
  ConnectionResult.fail "Manual port not implemented yet"

/-- `g_executors`: any other value of the type has none. -/
def executor (peer : P2PPeer) (net : TaskNet) :
    StrategyType → Option (ConnectionResult → ℤ × ConnectionResult)
  | .ipv6Direct => some (executeIpv6Direct net)
  | .upnp => some (executeUpnp peer net)
  | .udpPunch => some (executeUdpPunch net.punch net.probe net.socket net.bound net.stack)
  | .ttlPunch => some (executeTtlPunch net.punch net.probe net.socket net.bound net.stack)
  | .simultaneousOpen =>
    some (executeSimultaneousOpen net.punch net.probe peer.ip peer.port net.socket net.bound net.stack)
  | .portPrediction =>
    some (executePortPrediction net.punch net.probe peer.ip peer.port net.socket net.bound net.stack)
  | .tcpPunch => some executeTcpPunch
  | .friendRelay => some executeFriendRelay
  | .turnRelay => some executeTurnRelay
  | .manualPort => some executeManualPort
  | .none => none

/-- What happens around a call of `parallel_run`: `i` counts the strategies, `k` the polls. -/
structure ParallelWorld where
  peer : P2PPeer
  net : ℕ → TaskNet
  creates : ℕ → Bool
  starts : ℕ → Bool
  startTime : ℕ → Time
  endTime : ℕ → Time
  seen : ℕ → ℕ → Bool

/-- The surroundings of a call with these strategies. -/
def ParallelWorld.env (w : ParallelWorld) (strategies : List StrategyType) : ParallelEnv where
  creates := w.creates
  starts := w.starts
  execute i result :=
    match (strategies[i]?).bind (executor w.peer (w.net i)) with
    | some execute => execute result
    | none => (-1, result)
  startTime := w.startTime
  endTime := w.endTime
  seen := w.seen

/-! ## Where nothing comes -/

/-- A net in which sockets can be opened and nothing comes to them. -/
def TaskNet.silent : TaskNet where
  hasIpv6 := false
  ipv6Socket := 4
  ipv6Sent := true
  errno := ⟨11, by decide⟩
  strerror := ascii "Resource temporarily unavailable"
  ipv6Read := none
  mapping := -1
  socket := 3
  bound := true
  stack := .fresh
  punch := .silent
  probe := -1

/-- The threads run, and every poll finds what they leave. -/
def ParallelWorld.silent : ParallelWorld where
  peer := P2PPeer.fresh .failing (.of (ascii "bob"))
  net _ := .silent
  creates _ := true
  starts _ := true
  startTime _ := 0
  endTime _ := 0
  seen _ _ := true

/-! ## Marks -/

section Marks

variable {peer : P2PPeer} {net : TaskNet} {result : ConnectionResult}

/-- What an executor comes to: success, or a failure that it marks. -/
def Marked (r : ℤ × ConnectionResult) : Prop := r.1 = 0 ∨ r.2.errorCode ≠ 0

theorem marked_fail (msg : String) : Marked (result.fail msg) := by
  have failed : (result.fail msg).2.errorCode = -1 := rfl
  right
  rw [failed]
  decide

theorem marked_failCall (call : String) : Marked (result.failCall net call) :=
  Or.inr net.errno.property

theorem marked_executePunch (attempt : PunchState → PunchTried) (port : ℤ) (initMsg msg : String)
    (socket : ℤ) (bound : Bool) (p : PunchState) :
    Marked (executePunch attempt port initMsg msg socket bound p result) := by
  unfold executePunch
  dsimp only
  split_ifs
  · exact marked_fail initMsg
  · exact Or.inl rfl
  · exact marked_fail msg

/-- Every executor leaves a mark. -/
theorem marked_executor {strategy : StrategyType}
    {execute : ConnectionResult → ℤ × ConnectionResult}
    (h : executor peer net strategy = some execute) : Marked (execute result) := by
  cases strategy with
  | none => cases h
  | ipv6Direct =>
    cases h
    unfold executeIpv6Direct
    split_ifs
    · exact marked_fail _
    · exact marked_failCall _
    · exact marked_failCall _
    · split
      · split_ifs
        · exact Or.inl rfl
        · exact marked_fail _
      · exact marked_fail _
  | upnp =>
    cases h
    unfold executeUpnp
    split_ifs
    · exact Or.inl rfl
    · exact marked_fail _
  | udpPunch | ttlPunch | simultaneousOpen | portPrediction =>
    cases h
    exact marked_executePunch _ _ _ _ _ _ _
  | tcpPunch | friendRelay | turnRelay | manualPort =>
    cases h
    exact marked_fail _

end Marks

end Orcashi
