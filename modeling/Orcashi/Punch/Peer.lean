import Orcashi.Punch.Manager

/-!
# The peer a punch names

A technique that succeeds should leave the socket the answer came in on, the source of this answer and
`punched`.  `punch_listen` is followed by all three; a range scan leaves only the address, and
`simultaneous_open_punch` an address nobody has set.
-/

namespace Orcashi

open CMemory

/-! ## What a success should leave -/

/-- The state a technique leaves names the peer whose answer it has accepted. -/
structure NamesPeer (tried : PunchTried) : Prop where
  punched : tried.left.punched = true
  answer : ∃ a, tried.accepted = some a ∧ tried.left.udpSocket = a.socket ∧
    tried.left.peerIp = a.sender.ip ∧ tried.left.peerPort = a.sender.port

/-- The condition on the technique, the network and the state: `simultaneous_open_punch` is not asked, and
at least three of the probes of a port prediction are answered, or else the state is punched before and
has the probe socket. -/
def PunchDirect (net : PunchNet) (probe : ℤ) (targetIp : IpText) (targetPort : ℤ) (p : PunchState) :
    PunchTechnique → Prop
  | .udp | .ttl | .tcp => True
  | .simultaneous => False
  | .portPrediction =>
    3 ≤ (portPredictorProbes net probe targetIp targetPort).2.observations.length ∨
      p.punched = true ∧ p.udpSocket =
        portPredictorOpenProbeSocket net 6 (portPredictorProbes net probe targetIp targetPort).1

/-! ## Answers to `punch_listen` -/

theorem namesPeer_punchLoop {reads : List (Option PunchDatagram)} {probe : ℤ}
    {done : PunchState → PunchState} {p : PunchState}
    (same : ∀ p, (done p).udpSocket = p.udpSocket ∧ (done p).peerIp = p.peerIp ∧
      (done p).peerPort = p.peerPort ∧ (done p).punched = p.punched)
    (success : (punchLoop reads probe done p).ret = 0) : NamesPeer (punchLoop reads probe done p) := by
  unfold punchLoop at success ⊢
  cases found : reads.findSome? fun read => punchListen read p.udpSocket with
  | none =>
    rw [found] at success
    cases success
  | some sender =>
    obtain ⟨socket, ip, port, punched⟩ := same (p.punch sender)
    exact ⟨punched, _, rfl, socket, ip, port⟩

/-! ## Simultaneous open -/

theorem ip_ne_empty (a : SockAddrIn) : a.ip ≠ IpText.empty := by
  intro h
  have text := congrArg Subtype.val h
  unfold SockAddrIn.ip IpText.empty inetNtop at text
  simp at text

section SimOpen

variable {env : SimOpenEnv} {s : SimOpenSession}

/-- A session with the same socket, and the same peer in `peer_ip`. -/
structure SimOpenSession.SameEnd (s s' : SimOpenSession) : Prop where
  socketFd : s'.socketFd = s.socketFd
  peerIp : s'.peerIp = s.peerIp

theorem SimOpenSession.SameEnd.trans {s s' s'' : SimOpenSession} (first : s.SameEnd s')
    (next : s'.SameEnd s'') : s.SameEnd s'' :=
  ⟨next.socketFd.trans first.socketFd, next.peerIp.trans first.peerIp⟩

theorem sendPacket_sameEnd {t : SimPacketType} {payload : Bytes} :
    s.SameEnd (simultaneousOpenSendPacket env t payload s).left := by
  unfold simultaneousOpenSendPacket
  split_ifs <;> exact ⟨rfl, rfl⟩

theorem establish_sameEnd : s.SameEnd s.establish := by
  unfold SimOpenSession.establish
  split_ifs <;> exact ⟨rfl, rfl⟩

theorem processPacket_sameEnd {q : SimPacket} {len : ℕ} :
    s.SameEnd (simultaneousOpenProcessPacket env q len s).left := by
  have base (token : UInt32) : s.SameEnd { s with lastActivity := env.now, syncToken := token } :=
    ⟨rfl, rfl⟩
  have sent {t : SimPacketType} {payload : Bytes} {token : UInt32} : s.SameEnd
      (simultaneousOpenSendPacket env t payload
        { s with lastActivity := env.now, syncToken := token }).left :=
    (base token).trans sendPacket_sameEnd
  unfold simultaneousOpenProcessPacket
  split_ifs
  · exact ⟨rfl, rfl⟩
  · exact ⟨rfl, rfl⟩
  · exact ⟨rfl, rfl⟩
  · dsimp only
    cases SimPacketType.ofCode q.type with
    | none => exact ⟨rfl, rfl⟩
    | some t =>
      cases t with
      | sync => exact sent.trans establish_sameEnd
      | syncAck =>
        dsimp only
        split_ifs
        · exact .trans sent ⟨rfl, rfl⟩
        · exact ⟨rfl, rfl⟩
      | syncConfirm => exact (base s.syncToken).trans establish_sameEnd
      | _ => exact ⟨rfl, rfl⟩

theorem waitForSync_sameEnd {read : Option SimRead} :
    s.SameEnd (simultaneousOpenWaitForSync env read s).left := by
  unfold simultaneousOpenWaitForSync
  split_ifs
  · exact ⟨rfl, rfl⟩
  · match read with
    | none | some (.failed _) => exact ⟨rfl, rfl⟩
    | some (.bytes b) =>
      dsimp only
      split_ifs
      · exact processPacket_sameEnd
      · exact ⟨rfl, rfl⟩

theorem retry_sameEnd {initiator : Bool} :
    s.SameEnd (simultaneousOpenRetry initiator env s).left := by
  unfold simultaneousOpenRetry
  split_ifs
  · exact sendPacket_sameEnd
  · exact ⟨rfl, rfl⟩

/-- The socket is closed where all tries fail. -/
theorem tries_end {initiator : Bool} {net : ℕ → SimOpenTry} {left : ℕ} :
    (simultaneousOpenTries initiator net s left).2.peerIp = s.peerIp ∧
      ((simultaneousOpenTries initiator net s left).1 = 0 →
        (simultaneousOpenTries initiator net s left).2.socketFd = s.socketFd) := by
  induction left generalizing s with
  | zero => exact ⟨rfl, fun success => by cases success⟩
  | succ left ih =>
    have after {s' : SimOpenSession} (same : s.SameEnd s') :
        (simultaneousOpenTries initiator net s' left).2.peerIp = s.peerIp ∧
          ((simultaneousOpenTries initiator net s' left).1 = 0 →
            (simultaneousOpenTries initiator net s' left).2.socketFd = s.socketFd) := by
      rw [← same.socketFd, ← same.peerIp]
      exact ih
    unfold simultaneousOpenTries
    dsimp only
    split_ifs
    · exact ⟨waitForSync_sameEnd.peerIp, fun _ => waitForSync_sameEnd.socketFd⟩
    · exact after waitForSync_sameEnd
    · exact after (waitForSync_sameEnd.trans retry_sameEnd)

/-- No function of a session writes its `peer_ip`, and a call that succeeds leaves the socket it has
created. -/
theorem call_end {initiator : Bool} {setup : SimOpenSetup} {net : ℕ → SimOpenTry} :
    (simultaneousOpenCall initiator env setup net s).2.peerIp = s.peerIp ∧
      ((simultaneousOpenCall initiator env setup net s).1 = 0 → 0 ≤ setup.socket ∧
        (simultaneousOpenCall initiator env setup net s).2.socketFd = setup.socket) := by
  have begun : (simultaneousOpenBegin initiator env setup s).left.peerIp = s.peerIp ∧
      ((simultaneousOpenBegin initiator env setup s).ret = 0 → 0 ≤ setup.socket ∧
        (simultaneousOpenBegin initiator env setup s).left.socketFd = setup.socket) := by
    unfold simultaneousOpenBegin
    dsimp only
    split_ifs with closed
    · exact ⟨rfl, fun success => by cases success⟩
    · exact ⟨rfl, fun success => by cases success⟩
    · exact ⟨sendPacket_sameEnd.peerIp, fun _ => ⟨Int.not_lt.1 closed, sendPacket_sameEnd.socketFd⟩⟩
    · exact ⟨rfl, fun _ => ⟨Int.not_lt.1 closed, rfl⟩⟩
  have ret : (simultaneousOpenBegin initiator env setup s).ret < 0 ∨
      (simultaneousOpenBegin initiator env setup s).ret = 0 := by
    unfold simultaneousOpenBegin
    dsimp only
    split_ifs
    · exact Or.inl (Int.negSucc_lt_zero 0)
    · exact Or.inl (Int.negSucc_lt_zero 0)
    · exact Or.inr rfl
    · exact Or.inr rfl
  unfold simultaneousOpenCall
  dsimp only
  split_ifs with failed
  · exact ⟨begun.1, fun success => by cases success⟩
  · obtain ⟨opened, socket⟩ := begun.2 (ret.resolve_left failed)
    exact ⟨tries_end.1.trans begun.1, fun success => ⟨opened, (tries_end.2 success).trans socket⟩⟩

end SimOpen

theorem not_namesPeer_simultaneousOpenPunch {net : PunchNet} {probe : ℤ} {targetIp : IpText}
    {targetPort : ℤ} {p : PunchState} :
    ¬ NamesPeer (simultaneousOpenPunch net probe targetIp targetPort p) := by
  rintro ⟨-, a, accepted, -, ip, -⟩
  unfold simultaneousOpenPunch simultaneousOpenInit at accepted ip
  by_cases refused : targetPort ≤ 0
  · rw [if_pos refused] at accepted
    cases accepted
  · rw [if_neg refused] at accepted ip
    dsimp only at accepted ip
    split_ifs at accepted ip with connected
    exact ip_ne_empty a.sender (ip.symm.trans call_end.1)

/-! ## Port prediction -/

section Prediction

variable {net : PunchNet} {pred : PortPredictor}

theorem addObservation_ports {port : ℤ} (h : ∀ o ∈ pred.observations, portPredictMinPort ≤ o.port) :
    ∀ o ∈ (portPredictorAddObservation net port pred).observations, portPredictMinPort ≤ o.port := by
  unfold portPredictorAddObservation
  split_ifs with refused
  · exact h
  · rw [not_or, not_or] at refused
    exact List.forall_mem_append.2 ⟨h, List.forall_mem_singleton.2 (Int.not_lt.1 refused.2.1)⟩

/-- Every port that was observed is one a prediction may start from. -/
theorem probes_ports {probe : ℤ} {targetIp : IpText} {targetPort : ℤ} :
    ∀ o ∈ (portPredictorProbes net probe targetIp targetPort).2.observations,
      portPredictMinPort ≤ o.port := by
  unfold portPredictorProbes
  refine List.foldlRecOn (motive := fun s : ℤ × PortPredictor =>
    ∀ o ∈ s.2.observations, portPredictMinPort ≤ o.port) _ _ (by simp [portPredictorInit]) ?_
  intro s h i _
  unfold portPredictorProbe
  dsimp only
  split_ifs
  · exact addObservation_ports h
  · exact addObservation_ports h
  · exact h

theorem getLastD_nonneg {l : List ℤ} (h : ∀ x ∈ l, 0 ≤ x) : 0 ≤ l.getLastD 0 := by
  rcases List.eq_nil_or_concat l with rfl | ⟨l, x, rfl⟩
  · exact Int.le_refl 0
  · simpa using h x (by simp)

theorem analyze_nonneg
    (last : 0 ≤ (pred.observations.map PortObservation.port).getLastD 0) :
    0 ≤ (portAnalyzePattern net pred).2.predictedPort := by
  unfold portAnalyzePattern portPredictMinPort portPredictMaxPort
  dsimp only
  generalize (pred.observations.map PortObservation.port).getLastD 0 = base at last ⊢
  split_ifs with sequential even odd few
  · dsimp only
    omega
  · dsimp only
    omega
  · dsimp only
    omega
  · cases net.regression (pred.observations.map PortObservation.port) with
    | none =>
      dsimp only
      omega
    | some port =>
      dsimp only
      omega
  · dsimp only
    omega

/-- A prediction is never a negative number. -/
theorem predict_nonneg (enough : 3 ≤ pred.observations.length)
    (h : ∀ o ∈ pred.observations, portPredictMinPort ≤ o.port) :
    0 ≤ (portPredictorPredict net pred).1 := by
  have last : 0 ≤ (pred.observations.map PortObservation.port).getLastD 0 := by
    refine getLastD_nonneg (List.forall_mem_map.2 fun o ho => ?_)
    have := h o ho
    unfold portPredictMinPort at this
    omega
  unfold portPredictorPredict portPredictMaxPort
  rw [if_neg (Nat.not_lt.2 enough)]
  dsimp only
  split_ifs
  · dsimp only
    omega
  · exact analyze_nonneg last

/-- A range scan leaves the address of the answer and nothing else. -/
theorem namesPeer_rangeScan {probe targetPort : ℤ} {p : PunchState}
    (success : (portPredictRangeScan net probe targetPort p).ret = 0) :
    NamesPeer (portPredictRangeScan net probe targetPort p) ↔
      p.punched = true ∧ p.udpSocket = portPredictorOpenProbeSocket net 6 probe := by
  unfold portPredictRangeScan at success ⊢
  generalize portPredictorOpenProbeSocket net 6 probe = socket at success ⊢
  by_cases closed : socket < 0
  · rw [if_pos closed] at success
    cases success
  rw [if_neg closed] at success ⊢
  dsimp only at success ⊢
  generalize (portsAround targetPort).findSome? _ = found at success ⊢
  cases found with
  | none => cases success
  | some sender =>
    constructor
    · rintro ⟨punched, _, ⟨rfl⟩, same, -⟩
      exact ⟨punched, same⟩
    · rintro ⟨punched, same⟩
      exact ⟨punched, _, rfl, same, rfl, rfl⟩

theorem namesPeer_portPredictorPunch {probe : ℤ} {targetIp : IpText} {targetPort : ℤ} {p : PunchState}
    (success : (portPredictorPunch net probe targetIp targetPort p).ret = 0) :
    NamesPeer (portPredictorPunch net probe targetIp targetPort p) ↔
      PunchDirect net probe targetIp targetPort p .portPrediction := by
  unfold portPredictorPunch PunchDirect at *
  dsimp only at success ⊢
  by_cases few : (portPredictorProbes net probe targetIp targetPort).2.observations.length < 3
  · rw [if_pos few] at success ⊢
    rw [namesPeer_rangeScan success, or_iff_right (Nat.not_le.2 few)]
  · have enough := Nat.not_lt.1 few
    rw [if_neg few, if_neg (Int.not_lt.2 (predict_nonneg enough probes_ports))] at success ⊢
    refine iff_of_true ?_ (Or.inl enough)
    generalize punchAttempts net p.udpSocket _ = found at success ⊢
    cases found with
    | none => cases success
    | some sender => exact ⟨rfl, _, rfl, rfl, rfl, rfl⟩

end Prediction

/-! ## All techniques -/

/-- A technique that succeeds names the peer exactly if the answer came to `punch_listen`, or a range scan
found the state punched and with the probe socket. -/
theorem punch_names_peer_iff (net : PunchNet) (probe : ℤ) (targetIp : IpText) (targetPort : ℤ)
    (p : PunchState) (technique : PunchTechnique)
    (success : (punchTry net probe targetIp targetPort p technique).ret = 0) :
    NamesPeer (punchTry net probe targetIp targetPort p technique) ↔
      PunchDirect net probe targetIp targetPort p technique := by
  cases technique with
  | udp => exact iff_of_true (namesPeer_punchLoop (fun _ => ⟨rfl, rfl, rfl, rfl⟩) success) trivial
  | ttl => exact iff_of_true (namesPeer_punchLoop (fun _ => ⟨rfl, rfl, rfl, rfl⟩) success) trivial
  | simultaneous => exact iff_of_false not_namesPeer_simultaneousOpenPunch id
  | portPrediction => exact namesPeer_portPredictorPunch success
  | tcp => cases success

/-! ## What is handed on -/

/-- `punch_get_peer` gives the source of the answer. -/
theorem NamesPeer.getPeer {tried : PunchTried} (h : NamesPeer tried) :
    ∃ a, tried.accepted = some a ∧ punchGetPeer tried.left = some (a.sender.ip, a.sender.port) := by
  obtain ⟨punched, a, accepted, -, ip, port⟩ := h
  refine ⟨a, accepted, ?_⟩
  unfold punchGetPeer
  rw [if_pos punched, ip, port]

/-- An executor that succeeds hands on what the technique has left, whatever that is. -/
theorem executePunch_hands_on {attempt : PunchState → PunchTried} {port : ℤ} {initMsg msg : String}
    {socket : ℤ} {bound : Bool} {p : PunchState} {result : ConnectionResult}
    (success : (executePunch attempt port initMsg msg socket bound p result).1 = 0) :
    (attempt (punchInit socket bound port p).2).ret = 0 ∧
      (executePunch attempt port initMsg msg socket bound p result).2.socketFd =
        (attempt (punchInit socket bound port p).2).left.udpSocket ∧
      (executePunch attempt port initMsg msg socket bound p result).2.peerIp =
        (attempt (punchInit socket bound port p).2).left.peerIp ∧
      (executePunch attempt port initMsg msg socket bound p result).2.peerPort =
        (attempt (punchInit socket bound port p).2).left.peerPort := by
  unfold executePunch at success ⊢
  dsimp only at success ⊢
  split_ifs at success ⊢ with failed tried
  · cases success
  · exact ⟨tried, rfl, rfl, rfl⟩
  · cases success

/-! ## Runs -/

/-- A network on which nothing arrives and everything else works. -/
def PunchNet.silent : PunchNet where
  listen _ := none
  simEnv := ⟨0, true⟩
  simSetup := ⟨0, 4, 1, 0, true⟩
  simTries _ := ⟨none, ⟨0, true⟩, ⟨0, true⟩⟩
  probeSocket _ := 5
  probeSent _ := true
  probeAnswer _ := none
  ttlAnswer _ := none
  sent _ _ := true
  answer _ _ := none
  scanAnswer _ := none
  now := 0
  rand _ := 0
  regression _ := none

/-- A state after `punch_init`. -/
def PunchState.fresh : PunchState where
  udpSocket := 3
  localPort := 33445
  peerIp := IpText.empty
  peerPort := 0
  punched := false
  lastTechnique := .udp
  retryCount := 0
  ttlUsed := false
  simultaneousUsed := false

/-- An answer to `punch_listen`. -/
theorem udp_answer_names_peer : NamesPeer (punchTry
    { PunchNet.silent with listen := fun _ => some ⟨ascii "ORCA_PUNCH", ⟨(10, 0, 0, 2), 4000⟩⟩ } (-1)
    IpText.empty 4000 PunchState.fresh .udp) :=
  (punch_names_peer_iff _ _ _ _ _ .udp (by decide)).2 trivial

/-- A range scan that finds a port, and a simultaneous open that is established. -/
def scannedPunch : PunchTried :=
  punchTry { PunchNet.silent with
    scanAnswer := fun _ => some ⟨ascii "ORCA_RANGE_RESPONSE", ⟨(10, 0, 0, 2), 4000⟩⟩ } (-1) IpText.empty
    4000 PunchState.fresh .portPrediction

/-- A punch that opens a session. -/
def openedPunch : PunchTried :=
  punchTry { PunchNet.silent with
    simTries := fun _ => ⟨some (.bytes (SimPacket.make ⟨0, true⟩ (.init IpText.empty 1) .sync []).toBytes),
      ⟨0, true⟩, ⟨0, true⟩⟩ } (-1) IpText.empty 4000 PunchState.fresh .simultaneous

/-- The first leaves a state that is not punched, the second one with the empty address. -/
theorem success_without_peer :
    (scannedPunch.ret = 0 ∧ punchGetPeer scannedPunch.left = none ∧ ¬ NamesPeer scannedPunch) ∧
      openedPunch.ret = 0 ∧ punchGetPeer openedPunch.left = some (IpText.empty, 0) ∧
      ¬ NamesPeer openedPunch := by
  refine ⟨⟨by decide, by decide, ?_⟩, by decide, by decide, ?_⟩
  · intro h
    exact absurd h.punched (by decide)
  · rintro ⟨-, a, ⟨rfl⟩, -, ip, -⟩
    exact absurd ip (by decide)

end Orcashi
