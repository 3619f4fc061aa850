import Orcashi.Lib.History
import Orcashi.P2P.Peer

/-!
# The P2P manager

The table of peers, the calls into it, and the two threads that work on it: the listener, which
maps a datagram to a record by the sender's address, and the keepalive thread.  A function that
holds a `P2PPeer*` holds a cursor into the table.  `g_p2p_mutex` is taken as re-entrant, so that a
call, a datagram and a turn of the keepalive thread are one step each.
-/

namespace Orcashi

open CMemory

/-! ## The table -/

/-- `P2P_MAX_PEERS` -/
def p2pMaxPeers : ℕ := 256

/-- The state of the P2P manager and of what it shares with the rest of the node. -/
structure Node where
  peers : List P2PPeer
  initialized : Bool
  shared : Shared

/-- A node after `state_init` and `p2p_init`. -/
def Node.init : Node := ⟨[], true, .init⟩

/-- What a function did with the peer it holds a pointer to. -/
def Node.write (node : Node) (c : Cursor P2PPeer) (h : Handled) : Node :=
  { node with peers := (c.set h.peer).toList, shared := h.shared }

/-- The effects a step added. -/
def news (before after : Node) : List Effect :=
  after.shared.trace.drop before.shared.trace.length

/-- `find_peer`, with what is before and behind the record. -/
def findPeer (id : CString) (peers : List P2PPeer) : Option (Cursor P2PPeer) :=
  Cursor.find (fun p => isSameId p.id.val (normalizeId id)) peers

/-- What `find_peer` compares: the texts are equal exactly if the ids are. -/
theorem isSameId_val_iff {x : NormId} {id : CString} :
    isSameId x.val (normalizeId id) = true ↔ x = NormId.of id := by
  rw [isSameId_normalizeId_right, isSameId_iff, NormId.normalizeId_val]
  constructor
  · intro same
    exact NormId.ext same
  · rintro rfl
    rfl

theorem findPeer_eq_none_iff {id : CString} {peers : List P2PPeer} :
    findPeer id peers = none ↔ ∀ p ∈ peers, p.id ≠ NormId.of id := by
  unfold findPeer
  rw [Cursor.find_eq_none_iff]
  refine forall₂_congr fun p _ => ?_
  rw [ne_eq, ← isSameId_val_iff, Bool.not_eq_true]

/-- The pointer `add_peer` returns, to a new record at the end if there was none. -/
def addPeer (env : Env) (id : CString) (peers : List P2PPeer) (sh : Shared) :
    Option (Cursor P2PPeer × Shared) :=
  match findPeer id peers with
  | some c => some (c, sh)
  | none =>
    if p2pMaxPeers ≤ peers.length then none
    else some (⟨peers, .fresh env (.of id), []⟩, sh.record [.disconnected (.of id)])

theorem addPeer_cases {env : Env} {id : CString} {peers : List P2PPeer} {sh sh' : Shared}
    {c : Cursor P2PPeer} (h : addPeer env id peers sh = some (c, sh')) :
    (findPeer id peers = some c ∧ sh' = sh) ∨
      (findPeer id peers = none ∧ c = ⟨peers, .fresh env (.of id), []⟩ ∧
        sh' = sh.record [.disconnected (.of id)]) := by
  unfold addPeer at h
  cases found : findPeer id peers with
  | some c' =>
    rw [found] at h
    obtain ⟨rfl, rfl⟩ := Prod.mk.inj (Option.some.inj h)
    exact Or.inl ⟨rfl, rfl⟩
  | none =>
    rw [found] at h
    by_cases full : p2pMaxPeers ≤ peers.length
    · simp [full] at h
    · simp only [if_neg full] at h
      obtain ⟨rfl, rfl⟩ := Prod.mk.inj (Option.some.inj h)
      exact Or.inr ⟨rfl, rfl, rfl⟩

/-- `add_peer` adds no id twice. -/
theorem nodup_ids_addPeer {env : Env} {id : CString} {peers : List P2PPeer} {sh sh' : Shared}
    {c : Cursor P2PPeer} (nodup : (peers.map P2PPeer.id).Nodup)
    (added : addPeer env id peers sh = some (c, sh')) : (c.toList.map P2PPeer.id).Nodup := by
  rcases addPeer_cases added with ⟨found, -⟩ | ⟨absent, rfl, -⟩
  · rw [Cursor.toList_of_find found]
    exact nodup
  · -- a search by the id found nothing, so the new id is not in the table
    have new := findPeer_eq_none_iff.1 absent
    simp only [Cursor.toList, List.map_append, List.map_cons, List.map_nil]
    rw [List.nodup_append]
    refine ⟨nodup, by simp, ?_⟩
    intro x hx y hy
    obtain ⟨p, hp, rfl⟩ := List.mem_map.1 hx
    rw [List.mem_singleton.1 hy]
    exact new p hp

/-- `add_peer` adds no record to a full table. -/
theorem length_addPeer_le {env : Env} {id : CString} {peers : List P2PPeer} {sh sh' : Shared}
    {c : Cursor P2PPeer} (room : peers.length ≤ p2pMaxPeers)
    (added : addPeer env id peers sh = some (c, sh')) : c.toList.length ≤ p2pMaxPeers := by
  rcases addPeer_cases added with ⟨found, -⟩ | ⟨absent, rfl, -⟩
  · rw [Cursor.toList_of_find found]
    exact room
  · have free : ¬ p2pMaxPeers ≤ peers.length := by
      intro full
      simp [addPeer, absent, full] at added
    simp only [Cursor.toList, List.length_append, List.length_cons, List.length_nil]
    omega

/-! ## Calls -/

/-- `p2p_hole_punch` -/
def p2pHolePunch (env : Env) (ip : CString) (port : ℤ) : ℤ :=
  if port ≤ 0 then -1 else env.punchMultiStrategy ip port

/-- The failure exits of `p2p_connect` once there is a socket. -/
def abandonConnect (peer : P2PPeer) (sh : Shared) : Handled :=
  ⟨-1, { peer with udpSocket := -1, state := .disconnected },
    sh.record [.closed peer.udpSocket, .disconnected peer.id]⟩

/-- `p2p_connect` from the pointer of `add_peer` on. -/
def connectPeer (env : Env) (ip : IpText) (port : ℤ) (peer : P2PPeer) (sh : Shared) : Handled :=
  let peer :=
    { peer with
      ip := ip
      port := port
      state := .connecting
      isInitiator := true
      lastActivity := env.now
      addr := .make ip.val port
      udpSocket := env.createUdpSocket }
  if peer.udpSocket < 0 then
    ⟨-1, { peer with state := .disconnected }, sh.record [.disconnected peer.id]⟩
  else
    let sh := sh.record [.opened peer.udpSocket]
    if p2pHolePunch env ip.val port < 0 then abandonConnect peer sh
    else
      let h := sendHandshake env peer sh
      if h.ret < 0 then abandonConnect h.peer h.shared
      else ⟨0, { h.peer with state := .handshake }, h.shared⟩

/-- `p2p_connect` -/
def p2pConnect (env : Env) (peerId : CString) (node : Node) : ℤ × Node :=
  if !node.initialized then (-1, node)
  else if (findPeer peerId node.peers).any fun c => P2PState.handshake.code ≤ c.val.state.code then
    (0, node)
  else
    match env.dhtNodeLookup.bind fun lookup => lookup (normalizeId peerId) with
    | none => (-1, node)
    | some (ip, port) =>
      match addPeer env peerId node.peers node.shared with
      | none => (-1, node)
      | some (c, sh) =>
        let h := connectPeer env ip port c.val sh
        (h.ret, node.write c h)

/-- `p2p_accept` from the pointer of `find_peer` on. -/
def acceptPeer (env : Env) (peer : P2PPeer) (sh : Shared) : Handled :=
  if peer.state ≠ .handshake then ⟨-1, peer, sh⟩
  else
    let h := establishSecureChannel env peer sh
    if h.ret < 0 then ⟨-1, h.peer, h.shared⟩
    else
      let peer :=
        { h.peer with state := .established, isSecure := true, lastActivity := env.now }
      ⟨0, peer, h.shared.onStore fun s =>
        s |>.call (stateUpdatePeer env.now peer.id.val .friend)
          |>.push (eventCreate env.now .acceptConfirm peer.id.val)⟩

/-- `p2p_accept` -/
def p2pAccept (env : Env) (peerId : CString) (node : Node) : ℤ × Node :=
  match findPeer peerId node.peers with
  | none => (-1, node)
  | some c =>
    let h := acceptPeer env c.val node.shared
    (h.ret, node.write c h)

/-- `p2p_disconnect` from the pointer of `find_peer` on. -/
def disconnectPeer (env : Env) (peer : P2PPeer) (sh : Shared) : Handled :=
  let h : Handled :=
    if 0 ≤ peer.udpSocket then
      let h := sendMessage env peer .close [0] sh
      ⟨0, { h.peer with udpSocket := -1 }, h.shared.record [.closed peer.udpSocket]⟩
    else ⟨0, peer, sh⟩
  let peer :=
    { h.peer with state := .disconnected, isSecure := false, lastActivity := env.now }
  ⟨0, peer, (h.shared.record [.disconnected peer.id]).onStore fun s =>
    s |>.call (stateSetOnline env.now peer.id.val false)
      |>.push (eventCreate env.now .peerOffline peer.id.val)⟩

/-- `p2p_disconnect` -/
def p2pDisconnect (env : Env) (peerId : CString) (node : Node) : ℤ × Node :=
  match findPeer peerId node.peers with
  | none => (-1, node)
  | some c =>
    let h := disconnectPeer env c.val node.shared
    (h.ret, node.write c h)

/-- `p2p_send_secure` from the pointer of `find_peer` on. -/
def sendSecure (env : Env) (peer : P2PPeer) (data : Bytes) (sh : Shared) : Handled :=
  if peer.state ≠ .established ∨ !peer.isSecure then ⟨-1, peer, sh⟩
  else
    match env.crypto.aesGcmEncrypt data peer.aesKey env.nonce with
    | none => ⟨-1, peer, sh⟩
    | some (tag, ciphertext) =>
      let h := sendMessage env peer .data (env.nonce ++ tag ++ ciphertext) sh
      if h.ret < 0 then h
      else ⟨h.ret, h.peer, h.shared.record [.sent h.peer.id.val data]⟩

/-- `p2p_send_secure` -/
def p2pSendSecure (env : Env) (peerId : CString) (data : Bytes) (node : Node) : ℤ × Node :=
  if data = [] then (-1, node)
  else
    match findPeer peerId node.peers with
    | none => (-1, node)
    | some c =>
      let h := sendSecure env c.val data node.shared
      (h.ret, node.write c h)

/-- `send_message` records the text of an unencrypted message, `p2p_send_secure` that of an
encrypted one. -/
def p2pSend (env : Env) (peerId message : CString) (node : Node) : ℤ × Node :=
  match findPeer peerId node.peers with
  | none => (-1, node)
  | some c =>
    if c.val.state ≠ .established then (-1, node)
    else if c.val.isSecure then p2pSendSecure env peerId message node
    else
      let h := sendMessage env c.val .data message node.shared
      (h.ret, node.write c h)

/-- `p2p_is_connected` -/
def p2pIsConnected (peerId : CString) (node : Node) : Bool :=
  (findPeer peerId node.peers).any fun c => c.val.state == .established

/-! ## The listener -/

/-- `sizeof(buffer)` in `listener_thread`. -/
def bufferSize : ℕ := 4096

/-- The record the listener maps a sender to. -/
def findAddr (sender : SockAddrIn) (peers : List P2PPeer) : Option (Cursor P2PPeer) :=
  Cursor.find (fun p => p.port == sender.port && p.ip == sender.ip) peers

/-- The record of a handshake from an unknown address, before it is processed. -/
def handshakeFrom (env : Env) (sender : SockAddrIn) (peer : P2PPeer) : P2PPeer :=
  { peer with
    ip := sender.ip
    port := sender.port
    state := .handshake
    udpSocket := -1
    isInitiator := false
    lastActivity := env.now
    addr := .make sender.ip.val sender.port }

/-- The listener's work on a HANDSHAKE from an unknown address. -/
def listenerHandshake (env : Env) (sender : SockAddrIn) (msg : P2PMessage) (n : ℕ) (node : Node) :
    Option ℤ × Node :=
  let sh := node.shared.record [loadField msg.payload 0]
  match strchr msg.payload 0 separator with
  | none => (none, { node with shared := sh })
  | some bar =>
    let msg := { msg with payload := msg.payload.set bar 0 }
    let sh := sh.record [.store bar, loadStr msg.payload 0]
    match addPeer env (strAt msg.payload 0) node.peers sh with
    | none => (none, { node with shared := sh })
    | some (c, sh) =>
      let sh := sh.record [.copy inetAddrStrLen sender.ip.val.length]
      let h := processMessage env (handshakeFrom env sender c.val) msg n sh
      (some h.ret, node.write c h)

/-- One turn of `listener_thread`: `recvfrom` put `n` bytes into `buffer`, over what earlier
datagrams left there.  The first component is what `process_message` returned, if it was called. -/
def listenerReceive (env : Env) (sender : SockAddrIn) (buffer : Bytes) (n : ℕ) (node : Node) :
    Option ℤ × Node :=
  let msg := P2PMessage.ofBuffer buffer
  if n < headerSize then (none, node)
  else if msg.magic ≠ p2pMagic then (none, node)
  else
    match findAddr sender node.peers with
    | some c =>
      let h := processMessage env c.val msg n node.shared
      (some h.ret, node.write c h)
    | none =>
      if msg.type = P2PMessageType.handshake.code then listenerHandshake env sender msg n node
      else (none, node)

/-- The ways through `listener_thread`: drop the datagram, process it for the record of its address,
or take it as a HANDSHAKE from an unknown address. -/
theorem listenerReceive_cases (env : Env) (sender : SockAddrIn) (buffer : Bytes) (n : ℕ)
    (node : Node) :
    listenerReceive env sender buffer n node = (none, node) ∨
    (∃ c, findAddr sender node.peers = some c ∧
      listenerReceive env sender buffer n node =
        let h := processMessage env c.val (P2PMessage.ofBuffer buffer) n node.shared
        (some h.ret, node.write c h)) ∨
    (findAddr sender node.peers = none ∧
      (P2PMessage.ofBuffer buffer).type = P2PMessageType.handshake.code ∧
      listenerReceive env sender buffer n node =
        listenerHandshake env sender (P2PMessage.ofBuffer buffer) n node) := by
  unfold listenerReceive
  dsimp only
  by_cases short : n < headerSize
  · rw [if_pos short]
    exact Or.inl rfl
  rw [if_neg short]
  by_cases magic : (P2PMessage.ofBuffer buffer).magic ≠ p2pMagic
  · rw [if_pos magic]
    exact Or.inl rfl
  rw [if_neg magic]
  cases found : findAddr sender node.peers with
  | some c => exact Or.inr (Or.inl ⟨c, rfl, rfl⟩)
  | none =>
    dsimp only
    by_cases type : (P2PMessage.ofBuffer buffer).type = P2PMessageType.handshake.code
    · rw [if_pos type]
      exact Or.inr (Or.inr ⟨rfl, type, rfl⟩)
    · rw [if_neg type]
      exact Or.inl rfl

/-- A message with a good header from the address of a record gets to the `switch`. -/
theorem listenerReceive_known {env : Env} {sender : SockAddrIn} {buffer : Bytes} {n : ℕ} {node : Node}
    {c : Cursor P2PPeer} (found : findAddr sender node.peers = some c)
    (header : headerOk (P2PMessage.ofBuffer buffer) n = true) :
    listenerReceive env sender buffer n node =
      let h := dispatch env c.val (P2PMessage.ofBuffer buffer) node.shared
      (some h.ret, node.write c h) := by
  have checks := header
  unfold headerOk at checks
  rw [Bool.and_eq_true, Bool.and_eq_true, decide_eq_true_eq, beq_iff_eq] at checks
  unfold listenerReceive
  dsimp only
  rw [if_neg (Nat.not_lt.2 checks.1.1), if_neg (not_not_intro checks.1.2), found]
  dsimp only
  rw [processMessage_accepted header]

/-! ## The keepalive thread -/

/-- `P2P_KEEPALIVE_INTERVAL` -/
def p2pKeepaliveInterval : ℤ := 30

/-- The body of the keepalive loop for one record. -/
def keepalivePeer (env : Env) (peer : P2PPeer) (sh : Shared) : Handled :=
  if peer.state ≠ .established then ⟨0, peer, sh⟩
  else
    let h :=
      if p2pKeepaliveInterval * 2 < env.now - peer.lastActivity then
        sendMessage env peer .keepalive [0] sh
      else ⟨0, peer, sh⟩
    if p2pKeepaliveInterval * 5 < env.now - h.peer.lastActivity then
      let peer := { h.peer with state := .disconnected, isSecure := false }
      ⟨0, peer, (h.shared.record [.disconnected peer.id]).onStore fun s =>
        s |>.call (stateSetOnline env.now peer.id.val false)
          |>.push (eventCreate env.now .peerOffline peer.id.val)⟩
    else ⟨0, h.peer, h.shared⟩

/-- The keepalive loop over the table. -/
def keepaliveLoop (env : Env) : List P2PPeer → Shared → List P2PPeer × Shared
  | [], sh => ([], sh)
  | p :: ps, sh =>
    let h := keepalivePeer env p sh
    let r := keepaliveLoop env ps h.shared
    (h.peer :: r.1, r.2)

/-- A round of `keepalive_thread`. -/
def keepaliveTick (env : Env) (node : Node) : Node :=
  let r := keepaliveLoop env node.peers node.shared
  { node with peers := r.1, shared := r.2 }

/-- A connection that was ended on this side. -/
def goOffline (env : Env) (id : CString) (s : Store) : Store :=
  s |>.call (stateSetOnline env.now id false) |>.push (eventCreate env.now .peerOffline id)

/-- Whether a keepalive message leaves for the peer. -/
def keepaliveSent (env : Env) (peer : P2PPeer) : Bool :=
  decide (0 ≤ peer.udpSocket) &&
    env.sendto peer.udpSocket (P2PMessage.make env.now .keepalive [0]).toBytes peer.addr

/-- What the history shows of a keepalive message. -/
def keepaliveEffects (env : Env) (peer : P2PPeer) : List Effect :=
  [.sendto peer.udpSocket (P2PMessage.make env.now .keepalive [0]).toBytes peer.addr,
    .sent peer.id.val [0]]

theorem sendMessage_keepalive {env : Env} {peer : P2PPeer} (established : peer.state = .established)
    (sh : Shared) :
    (keepaliveSent env peer = true ∧ sendMessage env peer .keepalive [0] sh =
      ⟨0, { peer with lastActivity := env.now }, sh.record (keepaliveEffects env peer)⟩) ∨
    (keepaliveSent env peer = false ∧ sendMessage env peer .keepalive [0] sh = ⟨-1, peer, sh⟩) := by
  have open_ : ¬ (peer.state ≠ .established ∧ P2PMessageType.keepalive ≠ .handshake ∧
      P2PMessageType.keepalive ≠ .handshakeResponse) := fun closed => closed.1 established
  unfold sendMessage keepaliveSent
  rw [if_neg open_]
  by_cases socket : peer.udpSocket < 0
  · rw [if_pos socket, decide_eq_false (Int.not_le.2 socket)]
    exact Or.inr ⟨rfl, rfl⟩
  · rw [if_neg socket, decide_eq_true (Int.not_lt.1 socket), Bool.true_and]
    dsimp only
    cases env.sendto peer.udpSocket (P2PMessage.make env.now .keepalive [0]).toBytes peer.addr with
    | true => exact Or.inl ⟨rfl, rfl⟩
    | false => exact Or.inr ⟨rfl, rfl⟩

/-- Whether the keepalive thread gives the record up: it was silent for five intervals, and no
keepalive message can be sent. -/
def timesOut (env : Env) (peer : P2PPeer) : Bool :=
  peer.state == .established && decide (p2pKeepaliveInterval * 5 < env.now - peer.lastActivity) &&
    !keepaliveSent env peer

/-- The keepalive thread gives a record up, or leaves it alone, or sends to it and notes the time. -/
theorem keepalivePeer_cases (env : Env) (peer : P2PPeer) (sh : Shared) :
    (timesOut env peer = true ∧ keepalivePeer env peer sh =
      ⟨0, { peer with state := .disconnected, isSecure := false },
        (sh.record [.disconnected peer.id]).onStore (goOffline env peer.id.val)⟩) ∨
    (timesOut env peer = false ∧ (keepalivePeer env peer sh = ⟨0, peer, sh⟩ ∨
      keepalivePeer env peer sh =
        ⟨0, { peer with lastActivity := env.now }, sh.record (keepaliveEffects env peer)⟩)) := by
  unfold keepalivePeer timesOut
  by_cases established : peer.state = .established
  swap
  · have closed : (peer.state == .established) = false := beq_eq_false_iff_ne.2 established
    rw [if_pos established, closed]
    exact Or.inr ⟨rfl, Or.inl rfl⟩
  have open_ : (peer.state == .established) = true := beq_iff_eq.2 established
  rw [if_neg (not_not_intro established), open_, Bool.true_and]
  have later : ¬ p2pKeepaliveInterval * 5 < env.now - env.now := by
    unfold p2pKeepaliveInterval
    omega
  by_cases silent : p2pKeepaliveInterval * 5 < env.now - peer.lastActivity
  · have early : p2pKeepaliveInterval * 2 < env.now - peer.lastActivity := by
      unfold p2pKeepaliveInterval at silent ⊢
      omega
    rw [if_pos early, decide_eq_true silent, Bool.true_and]
    rcases sendMessage_keepalive established sh with ⟨sent, h⟩ | ⟨sent, h⟩
    · rw [h, sent]
      dsimp only
      rw [if_neg later]
      exact Or.inr ⟨rfl, Or.inr rfl⟩
    · rw [h, sent]
      dsimp only
      rw [if_pos silent]
      exact Or.inl ⟨rfl, rfl⟩
  · rw [decide_eq_false silent, Bool.false_and]
    refine Or.inr ⟨rfl, ?_⟩
    by_cases early : p2pKeepaliveInterval * 2 < env.now - peer.lastActivity
    · rw [if_pos early]
      rcases sendMessage_keepalive established sh with ⟨-, h⟩ | ⟨-, h⟩
      · rw [h]
        dsimp only
        rw [if_neg later]
        exact Or.inr rfl
      · rw [h]
        dsimp only
        rw [if_neg silent]
        exact Or.inl rfl
    · rw [if_neg early]
      dsimp only
      rw [if_neg silent]
      exact Or.inl rfl

/-- A pass takes the records one by one. -/
theorem exists_mem_keepaliveLoop (env : Env) {peers : List P2PPeer} {p : P2PPeer} (hp : p ∈ peers)
    (sh : Shared) : ∃ sh', (keepalivePeer env p sh').peer ∈ (keepaliveLoop env peers sh).1 := by
  induction peers generalizing sh with
  | nil => cases hp
  | cons q peers ih =>
    rcases List.mem_cons.1 hp with rfl | hp
    · exact ⟨sh, List.mem_cons_self⟩
    · obtain ⟨sh', h⟩ := ih hp (keepalivePeer env q sh).shared
      exact ⟨sh', List.mem_cons_of_mem _ h⟩

theorem exists_of_mem_keepaliveLoop {env : Env} {peers : List P2PPeer} {sh : Shared} {p' : P2PPeer}
    (hp' : p' ∈ (keepaliveLoop env peers sh).1) :
    ∃ p ∈ peers, ∃ sh', p' = (keepalivePeer env p sh').peer := by
  induction peers generalizing sh with
  | nil => cases hp'
  | cons q peers ih =>
    rcases List.mem_cons.1 hp' with rfl | hp'
    · exact ⟨q, List.mem_cons_self, sh, rfl⟩
    · obtain ⟨p, hp, sh', h⟩ := ih hp'
      exact ⟨p, List.mem_cons_of_mem q hp, sh', h⟩

/-! ## Runs -/

/-- What can happen to the P2P manager. -/
inductive P2PCall where
  | connect (peerId : CString)
  | accept (peerId : CString)
  | disconnect (peerId : CString)
  | send (peerId message : CString)
  | sendSecure (peerId : CString) (data : Bytes)
  | datagram (sender : SockAddrIn) (buffer : Bytes) (n : ℕ)
  | keepalive

/-- The node after a call. -/
def P2PCall.step (env : Env) (node : Node) : P2PCall → Node
  | .connect peerId => (p2pConnect env peerId node).2
  | .accept peerId => (p2pAccept env peerId node).2
  | .disconnect peerId => (p2pDisconnect env peerId node).2
  | .send peerId message => (p2pSend env peerId message node).2
  | .sendSecure peerId data => (p2pSendSecure env peerId data node).2
  | .datagram sender buffer n => (listenerReceive env sender buffer n node).2
  | .keepalive => keepaliveTick env node

/-- A step of the P2P manager in the surroundings of its moment. -/
def p2pStep (node : Node) (l : Env × P2PCall) : Node := l.2.step l.1 node

/-! ## What a step does -/

/-- What a call does with the record it has a pointer to. -/
inductive P2PCall.Works (env : Env) : P2PCall → P2PPeer → Shared → Handled → Prop where
  | connect (peerId : CString) (ip : IpText) (port : ℤ) (p : P2PPeer) (sh : Shared) :
    Works env (.connect peerId) p sh (connectPeer env ip port p sh)
  | accept (peerId : CString) (p : P2PPeer) (sh : Shared) :
    Works env (.accept peerId) p sh (acceptPeer env p sh)
  | disconnect (peerId : CString) (p : P2PPeer) (sh : Shared) :
    Works env (.disconnect peerId) p sh (disconnectPeer env p sh)
  | send (peerId message : CString) (p : P2PPeer) (sh : Shared) :
    Works env (.send peerId message) p sh (sendMessage env p .data message sh)
  | sendSealed (peerId message : CString) (p : P2PPeer) (sh : Shared) :
    Works env (.send peerId message) p sh (Orcashi.sendSecure env p message sh)
  | sendSecure (peerId : CString) (data : Bytes) (p : P2PPeer) (sh : Shared) :
    Works env (.sendSecure peerId data) p sh (Orcashi.sendSecure env p data sh)

/-- How a step can end: nothing was done, or the record under the pointer of a search or of `add_peer`
was worked on, or a datagram was taken, or the keepalive thread went over the table. -/
inductive P2PCall.Outcome (env : Env) (node : Node) : P2PCall → Node → Prop where
  | nothing (call : P2PCall) : Outcome env node call node
  | found {call : P2PCall} {q : P2PPeer → Bool} {c : Cursor P2PPeer} {h : Handled}
    (found : Cursor.find q node.peers = some c) (works : call.Works env c.val node.shared h) :
    Outcome env node call (node.write c h)
  | added {call : P2PCall} {id : CString} {c : Cursor P2PPeer} {sh : Shared} {h : Handled}
    (added : addPeer env id node.peers node.shared = some (c, sh)) (works : call.Works env c.val sh h) :
    Outcome env node call (node.write c h)
  | datagram (sender : SockAddrIn) (buffer : Bytes) (n : ℕ) {c : Cursor P2PPeer}
    (found : findAddr sender node.peers = some c) :
    Outcome env node (.datagram sender buffer n)
      (node.write c (processMessage env c.val (P2PMessage.ofBuffer buffer) n node.shared))
  | handshake (sender : SockAddrIn) (buffer : Bytes) (n : ℕ)
    (unknown : findAddr sender node.peers = none)
    (type : (P2PMessage.ofBuffer buffer).type = P2PMessageType.handshake.code) :
    Outcome env node (.datagram sender buffer n)
      (listenerHandshake env sender (P2PMessage.ofBuffer buffer) n node).2
  | keepalive : Outcome env node .keepalive (keepaliveTick env node)

section

variable (env : Env) (node : Node)

theorem p2pConnect_outcome (peerId : CString) :
    P2PCall.Outcome env node (.connect peerId) (p2pConnect env peerId node).2 := by
  unfold p2pConnect
  split_ifs
  · exact .nothing _
  · exact .nothing _
  · cases env.dhtNodeLookup.bind fun lookup => lookup (normalizeId peerId) with
    | none => exact .nothing _
    | some place =>
      dsimp only
      cases added : addPeer env peerId node.peers node.shared with
      | none => exact .nothing _
      | some r => exact .added added (.connect peerId place.1 place.2 r.1.val r.2)

theorem p2pSendSecure_outcome {call : P2PCall} (peerId : CString) (data : Bytes)
    (works : ∀ p sh, call.Works env p sh (sendSecure env p data sh)) :
    call.Outcome env node (p2pSendSecure env peerId data node).2 := by
  unfold p2pSendSecure
  split_ifs
  · exact .nothing _
  · cases found : findPeer peerId node.peers with
    | none => exact .nothing _
    | some c => exact .found found (works c.val node.shared)

theorem p2pSend_outcome (peerId message : CString) :
    P2PCall.Outcome env node (.send peerId message) (p2pSend env peerId message node).2 := by
  unfold p2pSend
  cases found : findPeer peerId node.peers with
  | none => exact .nothing _
  | some c =>
    dsimp only
    split_ifs
    · exact .nothing _
    · exact p2pSendSecure_outcome env node peerId message fun p sh => .sendSealed peerId message p sh
    · exact .found found (.send peerId message c.val node.shared)

theorem listenerReceive_outcome (sender : SockAddrIn) (buffer : Bytes) (n : ℕ) :
    P2PCall.Outcome env node (.datagram sender buffer n) (listenerReceive env sender buffer n node).2 := by
  rcases listenerReceive_cases env sender buffer n node with
    h | ⟨c, found, h⟩ | ⟨unknown, type, h⟩ <;> rw [h]
  · exact .nothing _
  · exact .datagram sender buffer n found
  · exact .handshake sender buffer n unknown type

/-- Every step has one of the outcomes. -/
theorem P2PCall.step_outcome (call : P2PCall) : call.Outcome env node (call.step env node) := by
  cases call with
  | connect peerId => exact p2pConnect_outcome env node peerId
  | accept peerId =>
    dsimp only [P2PCall.step]
    unfold p2pAccept
    cases found : findPeer peerId node.peers with
    | none => exact .nothing _
    | some c => exact .found found (.accept peerId c.val node.shared)
  | disconnect peerId =>
    dsimp only [P2PCall.step]
    unfold p2pDisconnect
    cases found : findPeer peerId node.peers with
    | none => exact .nothing _
    | some c => exact .found found (.disconnect peerId c.val node.shared)
  | send peerId message => exact p2pSend_outcome env node peerId message
  | sendSecure peerId data =>
    exact p2pSendSecure_outcome env node peerId data fun p sh => .sendSecure peerId data p sh
  | datagram sender buffer n => exact listenerReceive_outcome env node sender buffer n
  | keepalive => exact .keepalive

end

end Orcashi
