import Orcashi.Lib.Strstr
import Orcashi.SimOpen.Session

/-!
# Punching

The four techniques of `punch.c`, with `simultaneous_open_punch` and `port_predictor_punch` behind two of
them, and the executors of `parallel_runner.c` that hand on what they leave in a `PunchState`.
-/

namespace Orcashi

open CMemory

/-! ## State and surroundings -/

/-- `PunchTechnique` -/
inductive PunchTechnique where
  | udp
  | ttl
  | simultaneous
  | portPrediction
  | tcp
  deriving DecidableEq

/-- `PunchState` -/
structure PunchState where
  udpSocket : ℤ
  localPort : ℤ
  peerIp : IpText
  peerPort : ℤ
  punched : Bool
  lastTechnique : PunchTechnique
  retryCount : ℤ
  ttlUsed : Bool
  simultaneousUsed : Bool
  deriving DecidableEq

/-- A datagram and its source. -/
structure PunchDatagram where
  bytes : Bytes
  sender : SockAddrIn

/-- `PORT_PREDICT_PROBE_PORT` and the numbers that bound the loops. -/
def punchMaxRetry : ℕ := 10

/-- `PUNCH_MAX_TTL` -/
def punchMaxTtl : ℕ := 10

/-- `PORT_PREDICT_SAMPLES` -/
def portPredictSamples : ℕ := 10

/-- `PORT_PREDICT_RANGE` -/
def portPredictRange : ℤ := 10

/-- `PORT_PREDICT_MIN_PORT` -/
def portPredictMinPort : ℤ := 1024

/-- `PORT_PREDICT_MAX_PORT` -/
def portPredictMaxPort : ℤ := 65535

/-- What the network and the system do during a call; nothing arrives where a `recvfrom` fails. -/
structure PunchNet where
  /-- what `punch_listen` reads in turn `i` of the loops of `punch_try_connect` and `punch_try_ttl` -/
  listen : ℕ → Option PunchDatagram
  simEnv : SimOpenEnv
  simSetup : SimOpenSetup
  simTries : ℕ → SimOpenTry
  /-- the socket that `port_predictor_open_probe_socket` can bind when it is called for the `i`-th time,
  or a negative number -/
  probeSocket : ℕ → ℤ
  /-- whether the `i`-th probe can be sent -/
  probeSent : ℕ → Bool
  probeAnswer : ℕ → Option PunchDatagram
  /-- the answer to the `i`-th probe with a TTL, if there is a socket for it -/
  ttlAnswer : ℕ → Option PunchDatagram
  /-- whether `sendto` succeeds for a port in an attempt, and what `punch_listen` reads then -/
  sent : ℤ → ℕ → Bool
  answer : ℤ → ℕ → Option PunchDatagram
  /-- what arrives at the probe socket after a port was scanned -/
  scanAnswer : ℤ → Option PunchDatagram
  now : Time
  rand : ℕ → ℕ
  /-- the linear regression in `float`: the predicted port, where the slope is accepted -/
  regression : List ℤ → Option ℤ

/-- An answer that was accepted as the peer's, with the socket it came in on. -/
structure PunchAnswer where
  socket : ℤ
  sender : SockAddrIn

/-- What a technique returns and leaves, the answer it has accepted, and `g_probe_socket`. -/
structure PunchTried where
  ret : ℤ
  left : PunchState
  accepted : Option PunchAnswer
  probe : ℤ

/-! ## `punch.c` -/

/-- `punch_init`, with the socket and whether it can be bound. -/
def punchInit (socket : ℤ) (bound : Bool) (port : ℤ) (p : PunchState) : ℤ × PunchState :=
  if socket < 0 then (-1, { p with udpSocket := socket })
  else if !bound then (-1, { p with udpSocket := -1 })
  else
    (0, { p with
      udpSocket := socket
      localPort := port
      punched := false
      retryCount := 0
      ttlUsed := false
      simultaneousUsed := false
      lastTechnique := .udp })

/-- The text a datagram leaves in a buffer of 256 bytes. -/
def PunchDatagram.text (d : PunchDatagram) : CString := strAt (d.bytes.take 255) 0

/-- `punch_listen`: the source of a datagram that is accepted. -/
def punchListen (read : Option PunchDatagram) (socket : ℤ) : Option SockAddrIn :=
  if socket < 0 then none
  else
    read.bind fun d =>
      if d.text = ascii "ORCA_PUNCH" ∨ d.text = ascii "ORCA_PUNCH_RESPONSE" ∨
          d.text = ascii "ORCA_PUNCH_TTL" ∨ d.text = ascii "ORCA_PUNCH_SIM" then
        some d.sender
      else none

/-- The address an answer leaves in a `PunchState`. -/
def PunchState.setPeer (sender : SockAddrIn) (p : PunchState) : PunchState :=
  { p with peerIp := sender.ip, peerPort := sender.port }

/-- What is left once an answer is accepted. -/
def PunchState.punch (sender : SockAddrIn) (p : PunchState) : PunchState :=
  { p.setPeer sender with punched := true }

/-- A loop that ends with the first answer `punch_listen` accepts. -/
def punchLoop (reads : List (Option PunchDatagram)) (probe : ℤ) (done : PunchState → PunchState)
    (p : PunchState) : PunchTried :=
  match reads.findSome? fun read => punchListen read p.udpSocket with
  | some sender => ⟨0, done (p.punch sender), some ⟨p.udpSocket, sender⟩, probe⟩
  | none => ⟨-1, p, none, probe⟩

/-- `punch_try_connect` -/
def punchTryConnect (net : PunchNet) (probe : ℤ) (p : PunchState) : PunchTried :=
  punchLoop ((List.range punchMaxRetry).map net.listen) probe
    (fun p => { p with lastTechnique := .udp }) p

/-- `punch_try_udp` -/
def punchTryUdp (net : PunchNet) (probe : ℤ) (p : PunchState) : PunchTried :=
  punchTryConnect net probe { p with lastTechnique := .udp }

/-- `punch_try_ttl` -/
def punchTryTtl (net : PunchNet) (probe : ℤ) (p : PunchState) : PunchTried :=
  punchLoop ((List.range punchMaxTtl).map net.listen) probe id
    { p with lastTechnique := .ttl, ttlUsed := true }

/-! ## `simultaneous_open_punch` -/

/-- What a session that is established has been answered comes from the address it is connected to. -/
def simultaneousOpenPunch (net : PunchNet) (probe : ℤ) (targetIp : IpText) (targetPort : ℤ)
    (p : PunchState) : PunchTried :=
  match simultaneousOpenInit targetIp targetPort with
  | none => ⟨-1, p, none, probe⟩
  | some s =>
    let connected := simultaneousOpenConnect net.simEnv net.simSetup net.simTries s
    if connected.1 = 0 then
      ⟨0, { p with
          udpSocket := connected.2.socketFd
          peerIp := connected.2.peerIp
          peerPort := connected.2.peerPort
          punched := true },
        some ⟨connected.2.socketFd, .make targetIp.val targetPort⟩, probe⟩
    else ⟨-1, p, none, probe⟩

/-- `punch_try_simultaneous` -/
def punchTrySimultaneous (net : PunchNet) (probe : ℤ) (targetIp : IpText) (targetPort : ℤ)
    (p : PunchState) : PunchTried :=
  simultaneousOpenPunch net probe targetIp targetPort
    { p with lastTechnique := .simultaneous, simultaneousUsed := true }

/-! ## `port_prediction.c` -/

/-- `PortObservation` -/
structure PortObservation where
  port : ℤ
  observedAt : Time
  sequenceNum : ℕ
  confirmed : Bool

/-- `PortPredictor`; `observations` are the first `count` ones. -/
structure PortPredictor where
  targetIp : IpText
  targetPort : ℤ
  observations : List PortObservation
  predictedPort : ℤ
  patternOffset : ℤ
  patternDetected : Bool
  confidence : ℤ
  lastPrediction : Time
  bestTtl : ℤ

/-- `port_predictor_init` -/
def portPredictorInit (targetIp : IpText) (targetPort : ℤ) : PortPredictor where
  targetIp := targetIp
  targetPort := targetPort
  observations := []
  predictedPort := -1
  patternOffset := 0
  patternDetected := false
  confidence := 0
  lastPrediction := 0
  bestTtl := 5

/-- `port_predictor_add_observation` -/
def portPredictorAddObservation (net : PunchNet) (port : ℤ) (pred : PortPredictor) : PortPredictor :=
  if portPredictSamples ≤ pred.observations.length ∨ port < portPredictMinPort ∨
      portPredictMaxPort < port then pred
  else { pred with
    observations := pred.observations ++ [⟨port, net.now, pred.observations.length, false⟩] }

/-- `port_predictor_open_probe_socket`, called for the `i`-th time; it leaves `g_probe_socket` negative
where it fails. -/
def portPredictorOpenProbeSocket (net : PunchNet) (i : ℕ) (probe : ℤ) : ℤ :=
  if 0 ≤ probe then probe else max (net.probeSocket i) (-1)

/-- The port an answer comes from, if it contains the text, or -1. -/
def portOfAnswer (expected : Bytes) (read : Option PunchDatagram) : ℤ :=
  match read with
  | some d => if d.bytes ≠ [] ∧ (strstr expected d.text).isSome then d.sender.port else -1
  | none => -1

/-- `port_predictor_probe_port`, with the probe socket open. -/
def portPredictorProbePort (net : PunchNet) (i : ℕ) (socket : ℤ) : ℤ :=
  if socket < 0 then -1
  else if !net.probeSent i then -1
  else portOfAnswer (ascii "ORCA_PROBE_RESPONSE") (net.probeAnswer i)

/-- `port_predictor_probe_with_ttl` -/
def portPredictorProbeWithTtl (net : PunchNet) (i : ℕ) : ℤ :=
  portOfAnswer (ascii "ORCA_TTL_RESPONSE") (net.ttlAnswer i)

/-- One turn of the probing loop. -/
def portPredictorProbe (net : PunchNet) (s : ℤ × PortPredictor) (i : ℕ) : ℤ × PortPredictor :=
  let socket := portPredictorOpenProbeSocket net i s.1
  let observed := portPredictorProbePort net i socket
  if 0 < observed then (socket, portPredictorAddObservation net observed s.2)
  else
    let ttlPort := portPredictorProbeWithTtl net i
    if 0 < ttlPort then (socket, portPredictorAddObservation net ttlPort s.2) else (socket, s.2)

/-- The probing loop: `g_probe_socket` and the predictor it leaves. -/
def portPredictorProbes (net : PunchNet) (probe : ℤ) (targetIp : IpText) (targetPort : ℤ) :
    ℤ × PortPredictor :=
  (List.range 6).foldl (portPredictorProbe net) (probe, portPredictorInit targetIp targetPort)

/-- `port_analyze_pattern`, of at least three observations. -/
def portAnalyzePattern (net : PunchNet) (pred : PortPredictor) : ℤ × PortPredictor :=
  let ports := pred.observations.map PortObservation.port
  let last := ports.getLastD 0
  let diffs := List.zipWith (fun a b => b - a) ports ports.tail
  let firstDiff := diffs.headD 0
  let evenCount := ports.countP fun port => port % 2 = 0
  let oddCount := ports.length - evenCount
  if diffs.all (fun d => d = firstDiff) ∧ 0 < firstDiff ∧ firstDiff < 20 then
    (0, { pred with
      patternDetected := true, patternOffset := firstDiff, confidence := 80
      predictedPort := last + firstDiff })
  else if oddCount * 2 < evenCount then
    (0, { pred with
      patternDetected := true, confidence := 60, predictedPort := last - last % 2 + 2 })
  else if evenCount * 2 < oddCount then
    (0, { pred with
      patternDetected := true, confidence := 60, predictedPort := last - last % 2 + 1 + 2 })
  else
    match if 4 ≤ ports.length then net.regression ports else none with
    | some port =>
      (0, { pred with
        patternDetected := true, confidence := 50
        predictedPort := min (max port portPredictMinPort) portPredictMaxPort })
    | none =>
      (-1, { pred with
        patternDetected := false, confidence := 10
        predictedPort := min (last + net.rand 0 % 5 + 1) portPredictMaxPort })

/-- `port_predictor_predict` -/
def portPredictorPredict (net : PunchNet) (pred : PortPredictor) : ℤ × PortPredictor :=
  if pred.observations.length < 3 then (-1, pred)
  else
    let analyzed := portAnalyzePattern net pred
    if analyzed.1 < 0 then
      let base := (pred.observations.map PortObservation.port).getLastD 0
      let predicted := min (base + net.rand 1 % 5 + 1) portPredictMaxPort
      (predicted, { analyzed.2 with predictedPort := predicted, confidence := 20 })
    else (analyzed.2.predictedPort, { analyzed.2 with lastPrediction := net.now })

/-- The ports from one to another. -/
def portsFrom (first last : ℤ) : List ℤ :=
  (List.range (last + 1 - first).toNat).map fun i : ℕ => first + i

/-- The ports around one that are scanned. -/
def portsAround (port : ℤ) : List ℤ :=
  portsFrom (max (port - portPredictRange) portPredictMinPort)
    (min (port + portPredictRange) portPredictMaxPort)

/-- `port_predict_range` writes the address of the answer into the `PunchState` and nothing else. -/
def portPredictRangeScan (net : PunchNet) (probe targetPort : ℤ) (p : PunchState) : PunchTried :=
  let socket := portPredictorOpenProbeSocket net 6 probe
  if socket < 0 then ⟨-1, p, none, socket⟩
  else
    let found := (portsAround targetPort).findSome? fun port =>
      (net.scanAnswer port).bind fun d =>
        if d.bytes ≠ [] ∧ (strstr (ascii "ORCA_RANGE_RESPONSE") d.text).isSome then some d.sender
        else none
    match found with
    | some sender => ⟨0, p.setPeer sender, some ⟨socket, sender⟩, socket⟩
    | none => ⟨-1, p, none, socket⟩

/-- `punch_send` to a port and `punch_listen`, in turn. -/
def punchAttempts (net : PunchNet) (socket : ℤ) (attempts : List (ℤ × ℕ)) : Option SockAddrIn :=
  attempts.findSome? fun a =>
    if socket < 0 ∨ !net.sent a.1 a.2 then none else punchListen (net.answer a.1 a.2) socket

/-- `port_predictor_punch` -/
def portPredictorPunch (net : PunchNet) (probe : ℤ) (targetIp : IpText) (targetPort : ℤ)
    (p : PunchState) : PunchTried :=
  let probed := portPredictorProbes net probe targetIp targetPort
  if probed.2.observations.length < 3 then portPredictRangeScan net probed.1 targetPort p
  else
    let predicted := (portPredictorPredict net probed.2).1
    if predicted < 0 then portPredictRangeScan net probed.1 targetPort p
    else
      let first := (List.range 3).map fun attempt => (predicted, attempt)
      let range := ((portsAround predicted).filter (· ≠ predicted)).flatMap fun port =>
        (List.range 2).map fun attempt => (port, attempt)
      match punchAttempts net p.udpSocket (first ++ range) with
      | some sender => ⟨0, p.punch sender, some ⟨p.udpSocket, sender⟩, probed.1⟩
      | none => ⟨-1, p, none, probed.1⟩

/-- `punch_try_port_prediction` -/
def punchTryPortPrediction (net : PunchNet) (probe : ℤ) (targetIp : IpText) (targetPort : ℤ)
    (p : PunchState) : PunchTried :=
  portPredictorPunch net probe targetIp targetPort { p with lastTechnique := .portPrediction }

/-- `punch_try_udp`, `punch_try_ttl`, `punch_try_simultaneous`, `punch_try_port_prediction`, and
`punch_try_tcp`, which is not implemented. -/
def punchTry (net : PunchNet) (probe : ℤ) (targetIp : IpText) (targetPort : ℤ) (p : PunchState) :
    PunchTechnique → PunchTried
  | .udp => punchTryUdp net probe p
  | .ttl => punchTryTtl net probe p
  | .simultaneous => punchTrySimultaneous net probe targetIp targetPort p
  | .portPrediction => punchTryPortPrediction net probe targetIp targetPort p
  | .tcp => ⟨-1, { p with lastTechnique := .tcp }, none, probe⟩

/-- `punch_get_peer`. -/
def punchGetPeer (p : PunchState) : Option (IpText × ℤ) :=
  if p.punched then some (p.peerIp, p.peerPort) else none

/-! ## The executors of `parallel_runner.c` -/

/-- `StrategyType` -/
inductive StrategyType where
  | none
  | ipv6Direct
  | upnp
  | udpPunch
  | ttlPunch
  | simultaneousOpen
  | portPrediction
  | tcpPunch
  | friendRelay
  | turnRelay
  | manualPort
  deriving DecidableEq

/-- `ConnectionResult` -/
structure ConnectionResult where
  strategy : StrategyType
  success : Bool
  socketFd : ℤ
  peerIp : IpText
  peerPort : ℤ
  errorCode : ℤ
  errorMsg : CString
  startTime : Time
  endTime : Time
  elapsedMs : ℤ
  deriving DecidableEq

/-- `calloc` of a result. -/
def ConnectionResult.zero : ConnectionResult where
  strategy := .none
  success := false
  socketFd := 0
  peerIp := IpText.empty
  peerPort := 0
  errorCode := 0
  errorMsg := []
  startTime := 0
  endTime := 0
  elapsedMs := 0

/-- An executor that fails. -/
def ConnectionResult.fail (msg : String) (result : ConnectionResult) : ℤ × ConnectionResult :=
  (-1, { result with errorCode := -1, errorMsg := ascii msg })

/-- The executors of the four techniques: `p` is what the stack holds, with the socket `punch_init` gets
and whether it can be bound. -/
def executePunch (attempt : PunchState → PunchTried) (port : ℤ) (initMsg msg : String) (socket : ℤ)
    (bound : Bool) (p : PunchState) (result : ConnectionResult) : ℤ × ConnectionResult :=
  let begun := punchInit socket bound port p
  if begun.1 < 0 then result.fail initMsg
  else
    let tried := attempt begun.2
    if tried.ret = 0 then
      (0, { result with
        success := true
        socketFd := tried.left.udpSocket
        peerIp := tried.left.peerIp
        peerPort := tried.left.peerPort })
    else result.fail msg

/-- `PUNCH_PORT` -/
def punchPort : ℤ := 33445

/-- `execute_udp_punch` -/
def executeUdpPunch (net : PunchNet) (probe : ℤ) : ℤ → Bool → PunchState → ConnectionResult →
    ℤ × ConnectionResult :=
  executePunch (punchTryConnect net probe) punchPort "Failed to init punch" "UDP punch failed"

/-- `execute_ttl_punch` -/
def executeTtlPunch (net : PunchNet) (probe : ℤ) : ℤ → Bool → PunchState → ConnectionResult →
    ℤ × ConnectionResult :=
  executePunch (punchTryTtl net probe) (punchPort + 1) "Failed to init TTL punch" "TTL punch failed"

/-- `execute_simultaneous_open` -/
def executeSimultaneousOpen (net : PunchNet) (probe : ℤ) (ip : IpText) (port : ℤ) :
    ℤ → Bool → PunchState → ConnectionResult → ℤ × ConnectionResult :=
  executePunch (punchTrySimultaneous net probe ip port) (punchPort + 2)
    "Failed to init simultaneous open" "Simultaneous open failed"

/-- `execute_port_prediction` -/
def executePortPrediction (net : PunchNet) (probe : ℤ) (ip : IpText) (port : ℤ) :
    ℤ → Bool → PunchState → ConnectionResult → ℤ × ConnectionResult :=
  executePunch (punchTryPortPrediction net probe ip port) (punchPort + 3)
    "Failed to init port prediction" "Port prediction failed"

end Orcashi
