import Orcashi.Daemon
import Orcashi.FailedHandshake
import Orcashi.PeerRecord
import Orcashi.StoreEffects

/-!
# Ways of losing a connection

A record leaves ESTABLISHED when the user disconnects, when a CLOSE arrives and when the keepalive
thread gives the peer up.  Only `p2p_disconnect` cleans up: the other two leave the socket open, and a
CLOSE does not tell anybody either.
-/

namespace Orcashi

open CMemory

/-! ## A clean loss -/

/-- The descriptors that were closed. -/
def closings (es : List Effect) : List ℤ :=
  es.filterMap fun e =>
    match e with
    | .closed fd => some fd
    | _ => none

/-- The record is DISCONNECTED and not secure, its descriptor is closed, once if it was open; the state
manager shows the peer offline, and one event says so. -/
structure CleanLoss (p : P2PPeer) (sh : Shared) (h : Handled) : Prop where
  state : h.peer.state = .disconnected
  secure : h.peer.isSecure = false
  socket : h.peer.udpSocket = -1
  closed : closings (h.shared.trace.drop sh.trace.length) =
    if 0 ≤ p.udpSocket then [p.udpSocket] else []
  offline : ∀ q, stateGetPeer p.id.val h.shared.sm = some q → q.online = false
  event : ∃ ev, h.shared.queue.toList = sh.queue.toList ++ [ev] ∧ ev.type = .peerOffline ∧
    ev.peerId = p.id.val

theorem goOffline_offline (env : Env) (id : CString) (s : Store) (q : Peer)
    (h : stateGetPeer id (goOffline env id s).sm = some q) : q.online = false := by
  have set : (goOffline env id s).sm = (stateSetOnline env.now id false s.sm).2 := rfl
  unfold stateSetOnline at set
  rw [set, stateGetPeer_modifyPeer_self id (by intro p; rfl)] at h
  obtain ⟨p, -, rfl⟩ := Option.map_eq_some_iff.1 h
  rfl

theorem goOffline_queue (env : Env) (id : CString) (s : Store) :
    (goOffline env id s).queue.toList =
      s.queue.toList ++ [eventCreate env.now .peerOffline id].take (eventQueueSize - s.queue.count) := by
  show (eventQueuePush (eventCreate env.now .peerOffline id) s.queue).2.toList = _
  rw [eventQueuePush_snd]
  exact toList_offer _ _

/-- Telling the rest of the node that a peer is gone is clean if there is room for the event. -/
theorem cleanLoss_goOffline_iff {env : Env} {p p' : P2PPeer} {sh : Shared} {es : List Effect}
    (state : p'.state = .disconnected) (secure : p'.isSecure = false) (ret : ℤ) :
    CleanLoss p sh ⟨ret, p', (sh.record es).onStore (goOffline env p.id.val)⟩ ↔
      p'.udpSocket = -1 ∧ closings es = (if 0 ≤ p.udpSocket then [p.udpSocket] else []) ∧
        sh.queue.count < eventQueueSize := by
  have trace : ((sh.record es).onStore (goOffline env p.id.val)).trace.drop sh.trace.length = es :=
    List.drop_left
  have queue : ((sh.record es).onStore (goOffline env p.id.val)).queue.toList = _ :=
    goOffline_queue env p.id.val sh.toStore
  constructor
  · intro h
    refine ⟨h.socket, trace ▸ h.closed, ?_⟩
    obtain ⟨ev, pushed, -⟩ := h.event
    by_contra full
    rw [queue, Nat.sub_eq_zero_of_le (Nat.not_lt.1 full)] at pushed
    simp at pushed
  · rintro ⟨socket, closed, room⟩
    refine ⟨state, secure, socket, trace.symm ▸ closed, goOffline_offline env _ _, ?_⟩
    refine ⟨eventCreate env.now .peerOffline p.id.val, ?_, rfl, ?_⟩
    · rw [queue, List.take_of_length_le (by rw [List.length_singleton]; omega)]
    · have short := p.id.length_lt
      exact List.take_of_length_le (by omega)

/-! ## The three paths -/

/-- What `p2p_disconnect` makes of a record. -/
theorem disconnectPeer_eq (env : Env) (p : P2PPeer) (sh : Shared) :
    ∃ es, closings es = (if 0 ≤ p.udpSocket then [p.udpSocket] else []) ∧
      disconnectPeer env p sh =
        ⟨0, { p with
            udpSocket := if 0 ≤ p.udpSocket then -1 else p.udpSocket
            state := .disconnected
            isSecure := false
            lastActivity := env.now },
          (sh.record es).onStore (goOffline env p.id.val)⟩ := by
  unfold disconnectPeer
  by_cases socket : 0 ≤ p.udpSocket
  · rw [if_pos socket, if_pos socket, if_pos socket]
    rcases sendMessage_cases env p .close [0] sh with h | ⟨-, h⟩ <;> rw [h]
    · refine ⟨[.closed p.udpSocket, .disconnected p.id], rfl, ?_⟩
      dsimp only
      rw [Shared.record_record]
      rfl
    · refine ⟨[.sendto p.udpSocket (P2PMessage.make env.now .close [0]).toBytes p.addr,
        .sent p.id.val [0], .closed p.udpSocket, .disconnected p.id], rfl, ?_⟩
      dsimp only
      rw [Shared.record_record, Shared.record_record]
      rfl
  · rw [if_neg socket, if_neg socket, if_neg socket]
    exact ⟨[.disconnected p.id], rfl, rfl⟩

/-- The user's way is clean if there is room for the event. -/
theorem disconnectPeer_clean_iff {p : P2PPeer} (real : -1 ≤ p.udpSocket) (env : Env) (sh : Shared) :
    CleanLoss p sh (disconnectPeer env p sh) ↔ sh.queue.count < eventQueueSize := by
  obtain ⟨es, closed, h⟩ := disconnectPeer_eq env p sh
  have socket : (if 0 ≤ p.udpSocket then -1 else p.udpSocket) = -1 := by
    split_ifs <;> omega
  rw [h, cleanLoss_goOffline_iff rfl rfl]
  exact ⟨fun h => h.2.2, fun room => ⟨socket, closed, room⟩⟩

/-- The keepalive thread's way is clean if there is no socket to close and room for the event. -/
theorem keepalivePeer_clean_iff {p : P2PPeer} (real : -1 ≤ p.udpSocket) {env : Env}
    (out : timesOut env p = true) (sh : Shared) :
    CleanLoss p sh (keepalivePeer env p sh) ↔
      p.udpSocket < 0 ∧ sh.queue.count < eventQueueSize := by
  rcases keepalivePeer_cases env p sh with ⟨-, h⟩ | ⟨alive, -⟩
  · rw [h, cleanLoss_goOffline_iff rfl rfl]
    constructor
    · rintro ⟨socket, -, room⟩
      dsimp only at socket
      exact ⟨by omega, room⟩
    · rintro ⟨socket, room⟩
      refine ⟨?_, ?_, room⟩
      · show p.udpSocket = -1
        omega
      · rw [if_neg (Int.not_le.2 socket)]
        rfl
  · rw [alive] at out
    cases out

/-- A CLOSE is never clean: nobody is told. -/
theorem close_not_clean (env : Env) (p : P2PPeer) {msg : P2PMessage}
    (close : msg.type = P2PMessageType.close.code) (sh : Shared) :
    ¬ CleanLoss p sh (dispatch env p msg sh) := by
  intro h
  obtain ⟨ev, pushed, -⟩ := h.event
  rw [dispatch_close close] at pushed
  simp at pushed

/-! ## What a step does to a record -/

/-- A step of the P2P manager works on a record and leaves another in its place. -/
inductive Touches (node : Node) : Env × P2PCall → P2PPeer → P2PPeer → Prop where
  | connect (env : Env) (peerId : CString) (ip : IpText) (port : ℤ) (p : P2PPeer) (sh : Shared) :
    Touches node (env, .connect peerId) p (connectPeer env ip port p sh).peer
  | accept (env : Env) (peerId : CString) (p : P2PPeer) (sh : Shared) :
    Touches node (env, .accept peerId) p (acceptPeer env p sh).peer
  | disconnect (env : Env) (peerId : CString) (p : P2PPeer) (sh : Shared) :
    Touches node (env, .disconnect peerId) p (disconnectPeer env p sh).peer
  | send (env : Env) (peerId message : CString) (p : P2PPeer) (sh : Shared) :
    Touches node (env, .send peerId message) p (sendMessage env p .data message sh).peer
  | sendSealed (env : Env) (peerId message : CString) (p : P2PPeer) (sh : Shared) :
    Touches node (env, .send peerId message) p (sendSecure env p message sh).peer
  | sendSecure (env : Env) (peerId : CString) (data : Bytes) (p : P2PPeer) (sh : Shared) :
    Touches node (env, .sendSecure peerId data) p (sendSecure env p data sh).peer
  | datagram (env : Env) (sender : SockAddrIn) (buffer : Bytes) (n : ℕ) {c : Cursor P2PPeer}
    (found : findAddr sender node.peers = some c) (sh : Shared)
    (header : headerOk (P2PMessage.ofBuffer buffer) n = true) :
    Touches node (env, .datagram sender buffer n) c.val
      (dispatch env c.val (P2PMessage.ofBuffer buffer) sh).peer
  | handshake (env : Env) (sender : SockAddrIn) (buffer : Bytes) (n : ℕ) (p : P2PPeer) :
    Touches node (env, .datagram sender buffer n) p (handshakeFrom env sender p)
  | keepalive (env : Env) (p : P2PPeer) (sh : Shared) :
    Touches node (env, .keepalive) p (keepalivePeer env p sh).peer

/-- Where a record of the table comes from: it was there before, or the step made it of a record that
was there or that it added. -/
def Arises (node : Node) (l : Env × P2PCall) (p' : P2PPeer) : Prop :=
  p' ∈ node.peers ∨ ∃ p, (p ∈ node.peers ∨ ∃ id, p = .fresh l.1 id) ∧ Touches node l p p'

/-- How a step leaves the table: as it was, with a record rewritten under the pointer of a search or of
`add_peer`, or with every record visited by the keepalive thread. -/
inductive Rewrites (node : Node) (l : Env × P2PCall) : List P2PPeer → Prop where
  | same : Rewrites node l node.peers
  | found {q : P2PPeer → Bool} {c : Cursor P2PPeer} {p' : P2PPeer}
    (found : Cursor.find q node.peers = some c) (touches : Touches node l c.val p') :
    Rewrites node l (c.set p').toList
  | added {id : CString} {sh sh' : Shared} {c : Cursor P2PPeer} {p' : P2PPeer}
    (added : addPeer l.1 id node.peers sh = some (c, sh')) (touches : Touches node l c.val p') :
    Rewrites node l (c.set p').toList
  | visited (pass : l.2 = .keepalive) (sh : Shared) :
    Rewrites node l (keepaliveLoop l.1 node.peers sh).1

theorem P2PCall.Works.touches {env : Env} {call : P2PCall} {p : P2PPeer} {sh : Shared} {h : Handled}
    (works : call.Works env p sh h) (node : Node) : Touches node (env, call) p h.peer := by
  cases works with
  | connect peerId ip port => exact .connect env peerId ip port p sh
  | accept peerId => exact .accept env peerId p sh
  | disconnect peerId => exact .disconnect env peerId p sh
  | send peerId message => exact .send env peerId message p sh
  | sendSealed peerId message => exact .sendSealed env peerId message p sh
  | sendSecure peerId data => exact .sendSecure env peerId data p sh

/-- What a step of the P2P manager does to the table. -/
theorem p2pStep_rewrites (node : Node) (l : Env × P2PCall) :
    Rewrites node l (p2pStep node l).peers := by
  obtain ⟨env, call⟩ := l
  unfold p2pStep
  have outcome := call.step_outcome env node
  generalize call.step env node = after at outcome ⊢
  cases outcome with
  | nothing => exact .same
  | found found works => exact .found found (works.touches node)
  | added added works => exact .added added (works.touches node)
  | @datagram sender buffer n c found =>
    by_cases header : headerOk (P2PMessage.ofBuffer buffer) n = true
    · rw [processMessage_accepted header]
      exact .found found (.datagram env sender buffer n found node.shared header)
    · rw [processMessage_rejected header]
      have same : (node.write c ⟨-1, c.val, node.shared⟩).peers = node.peers :=
        Cursor.toList_of_find found
      rw [same]
      exact .same
  | handshake sender buffer n unknown type =>
    rcases listenerHandshake_cases env sender n node type with
      ⟨-, same⟩ | ⟨-, bar, c, sh, sh', -, added, same⟩ <;> rw [same]
    · exact .same
    · exact .added added (.handshake env sender buffer n c.val)
  | keepalive => exact .visited rfl node.shared

/-- The records after a step. -/
theorem Rewrites.arises {node : Node} {l : Env × P2PCall} {peers' : List P2PPeer}
    (h : Rewrites node l peers') : ∀ p' ∈ peers', Arises node l p' := by
  intro p' hp'
  -- the record under the pointer is the new one, and the others were there before
  have written {c : Cursor P2PPeer} (list : c.toList = node.peers) {p : P2PPeer}
      (touches : Touches node l c.val p) (hp' : p' ∈ (c.set p).toList) : Arises node l p' := by
    rcases Cursor.mem_toList_set hp' with rfl | hp' | hp'
    · exact Or.inr ⟨c.val, Or.inl (list ▸ c.val_mem_toList), touches⟩
    · exact Or.inl (list ▸ Cursor.mem_toList.2 (Or.inl hp'))
    · exact Or.inl (list ▸ Cursor.mem_toList.2 (Or.inr (Or.inr hp')))
  cases h with
  | same => exact Or.inl hp'
  | found found touches => exact written (Cursor.toList_of_find found) touches hp'
  | added added touches =>
    rcases addPeer_cases added with ⟨found, -⟩ | ⟨-, rfl, -⟩
    · exact written (Cursor.toList_of_find found) touches hp'
    · rcases Cursor.mem_toList_set hp' with rfl | hp' | hp'
      · exact Or.inr ⟨_, Or.inr ⟨_, rfl⟩, touches⟩
      · exact Or.inl hp'
      · cases hp'
  | visited pass sh =>
    obtain ⟨p, hp, sh', rfl⟩ := exists_of_mem_keepaliveLoop hp'
    obtain ⟨env, call⟩ := l
    obtain rfl : call = .keepalive := pass
    exact Or.inr ⟨p, Or.inl hp, .keepalive env p sh'⟩

/-! ## Open sockets -/

/-- A record that is DISCONNECTED has no open socket, and none is left CONNECTING; without a socket the
descriptor is -1. -/
structure Tended (p : P2PPeer) : Prop where
  real : -1 ≤ p.udpSocket
  settled : p.state ≠ .connecting
  closed : p.state = .disconnected → p.udpSocket < 0

theorem Tended.of_same {p p' : P2PPeer} (h : Tended p) (state : p'.state = p.state)
    (socket : p'.udpSocket = p.udpSocket) : Tended p' where
  real := by rw [socket]; exact h.real
  settled := by rw [state]; exact h.settled
  closed := by rw [state, socket]; exact h.closed

theorem Tended.of_established {p p' : P2PPeer} (h : Tended p) (state : p'.state = .established)
    (socket : p'.udpSocket = p.udpSocket) : Tended p' where
  real := by rw [socket]; exact h.real
  settled := by rw [state]; decide
  closed := by rw [state]; exact fun h => by cases h

theorem sendMessage_same (env : Env) (p : P2PPeer) (type : P2PMessageType) (payload : Bytes)
    (sh : Shared) : (sendMessage env p type payload sh).peer.state = p.state ∧
      (sendMessage env p type payload sh).peer.udpSocket = p.udpSocket := by
  rcases sendMessage_cases env p type payload sh with h | ⟨-, h⟩ <;> rw [h] <;> exact ⟨rfl, rfl⟩

theorem sendHandshake_same (env : Env) (p : P2PPeer) (sh : Shared) :
    (sendHandshake env p sh).peer.udpSocket = p.udpSocket := by
  unfold sendHandshake
  cases env.identity with
  | none => rfl
  | some identity =>
    dsimp only
    cases env.crypto.rsaSignString (handshakeData identity.id identity.name identity.publicKey env.now)
      identity.privateKeyEncrypted with
    | none => rfl
    | some signature => exact (sendMessage_same env p _ _ sh).2

theorem sendSecure_same (env : Env) (p : P2PPeer) (data : Bytes) (sh : Shared) :
    (sendSecure env p data sh).peer.state = p.state ∧
      (sendSecure env p data sh).peer.udpSocket = p.udpSocket := by
  unfold sendSecure
  split_ifs
  · exact ⟨rfl, rfl⟩
  · cases env.crypto.aesGcmEncrypt data p.aesKey env.nonce with
    | none => exact ⟨rfl, rfl⟩
    | some sealed =>
      dsimp only
      split_ifs <;> exact sendMessage_same env p _ _ sh

/-- However `p2p_connect` ends, the record has a socket of its own or none. -/
theorem connectPeer_tended {env : Env} (real : -1 ≤ env.createUdpSocket) (ip : IpText) (port : ℤ)
    (p : P2PPeer) (sh : Shared) : Tended (connectPeer env ip port p sh).peer := by
  unfold connectPeer
  dsimp only
  split_ifs with failed punch refused
  · exact ⟨real, by simp, fun _ => failed⟩
  · exact ⟨Int.le_refl _, by simp [abandonConnect], fun _ => by simp [abandonConnect]⟩
  · exact ⟨Int.le_refl _, by simp [abandonConnect], fun _ => by simp [abandonConnect]⟩
  · refine ⟨?_, by simp, fun h => by cases h⟩
    show -1 ≤ (sendHandshake env _ _).peer.udpSocket
    rw [sendHandshake_same]
    exact real

theorem acceptPeer_tended {env : Env} {p : P2PPeer} (h : Tended p) (sh : Shared) :
    Tended (acceptPeer env p sh).peer := by
  unfold acceptPeer
  split_ifs
  · exact h
  · rcases establishSecureChannel_cases env p sh with ⟨-, e⟩ | ⟨_, _, -, e | ⟨_, e⟩⟩ <;> rw [e]
    · exact h
    · exact h.of_same rfl rfl
    · exact h.of_established rfl rfl

theorem disconnectPeer_tended {env : Env} {p : P2PPeer} (h : Tended p) (sh : Shared) :
    Tended (disconnectPeer env p sh).peer := by
  obtain ⟨es, -, e⟩ := disconnectPeer_eq env p sh
  have real := h.real
  rw [e]
  refine ⟨?_, by simp, fun _ => ?_⟩ <;> dsimp only <;> split_ifs <;> omega

theorem dispatch_tended {env : Env} {p : P2PPeer} (h : Tended p) {msg : P2PMessage}
    (close : msg.type = P2PMessageType.close.code → p.udpSocket < 0) (sh : Shared) :
    Tended (dispatch env p msg sh).peer := by
  obtain ⟨-, -, socket, state | state | ⟨state, type⟩⟩ := dispatch_handles env p msg sh
  · exact h.of_same state socket
  · exact h.of_established state socket
  · refine ⟨?_, by rw [state]; decide, fun _ => ?_⟩ <;> rw [socket]
    · exact h.real
    · exact close type

theorem handshakeFrom_tended (env : Env) (sender : SockAddrIn) (p : P2PPeer) :
    Tended (handshakeFrom env sender p) :=
  ⟨Int.le_refl _, by simp [handshakeFrom], fun h => by cases h⟩

theorem keepalivePeer_tended {env : Env} {p : P2PPeer} (h : Tended p)
    (out : timesOut env p = true → p.udpSocket < 0) (sh : Shared) :
    Tended (keepalivePeer env p sh).peer := by
  rcases keepalivePeer_cases env p sh with ⟨gone, e⟩ | ⟨-, e | e⟩ <;> rw [e]
  · exact ⟨h.real, by simp, fun _ => out gone⟩
  · exact h
  · exact h.of_same rfl rfl

/-! ## Steps -/

/-- A function took the peer from ESTABLISHED to DISCONNECTED. -/
structure Loss where
  peer : P2PPeer
  before : Shared
  after : Handled

/-- The loss of a connection, if it was established and is not any more. -/
def lossOf (p : P2PPeer) (sh : Shared) (h : Handled) : List Loss :=
  if p.state = .established ∧ h.peer.state = .disconnected then [⟨p, sh, h⟩] else []

/-- The losses of a pass of the keepalive thread. -/
def keepaliveLosses (env : Env) : List P2PPeer → Shared → List Loss
  | [], _ => []
  | p :: ps, sh =>
    let h := keepalivePeer env p sh
    lossOf p sh h ++ keepaliveLosses env ps h.shared

/-- The losses of a step, on any of the three paths. -/
def losses (node : Node) (l : Env × P2PCall) : List Loss :=
  match l.2 with
  | .disconnect peerId =>
    match findPeer peerId node.peers with
    | none => []
    | some c => lossOf c.val node.shared (disconnectPeer l.1 c.val node.shared)
  | .datagram sender buffer n =>
    match findAddr sender node.peers with
    | none => []
    | some c =>
      lossOf c.val node.shared
        (processMessage l.1 c.val (P2PMessage.ofBuffer buffer) n node.shared)
  | .keepalive => keepaliveLosses l.1 node.peers node.shared
  | _ => []

/-- All losses of the step are clean, a connect leaves the records with open sockets as they are, and
afterwards no DISCONNECTED record has one. -/
structure LosesCleanly (node : Node) (l : Env × P2PCall) : Prop where
  losses : ∀ x ∈ losses node l, CleanLoss x.peer x.before x.after
  connect : ∀ peerId, l.2 = .connect peerId →
    ∀ p ∈ node.peers, 0 ≤ p.udpSocket → p ∈ (p2pStep node l).peers
  closed : ∀ p ∈ (p2pStep node l).peers, p.state = .disconnected → p.udpSocket < 0

/-- A CLOSE arrives only for a record that has neither a connection nor an open socket, only records
without an open socket time out, and there is room for the events of those that are lost. -/
def CleansUp (node : Node) (l : Env × P2PCall) : Prop :=
  match l.2 with
  | .disconnect peerId =>
    ∀ c, findPeer peerId node.peers = some c → c.val.state = .established →
      node.shared.queue.count < eventQueueSize
  | .datagram sender buffer n =>
    ∀ c, findAddr sender node.peers = some c → headerOk (P2PMessage.ofBuffer buffer) n = true →
      (P2PMessage.ofBuffer buffer).type = P2PMessageType.close.code →
        c.val.state ≠ .established ∧ c.val.udpSocket < 0
  | .keepalive =>
    (∀ p ∈ node.peers, timesOut l.1 p = true → p.udpSocket < 0) ∧
      node.shared.queue.count + (node.peers.filter (timesOut l.1)).length ≤ eventQueueSize
  | _ => True

/-- Steps that clean up leave no socket behind. -/
theorem p2pStep_tended {node : Node} {l : Env × P2PCall} (h : ∀ p ∈ node.peers, Tended p)
    (real : -1 ≤ l.1.createUdpSocket) (clean : CleansUp node l) :
    ∀ p ∈ (p2pStep node l).peers, Tended p := by
  intro p' hp'
  rcases (p2pStep_rewrites node l).arises p' hp' with hp' | ⟨p, origin, touches⟩
  · exact h p' hp'
  have tended : Tended p := by
    rcases origin with hp | ⟨id, rfl⟩
    · exact h p hp
    · exact ⟨Int.le_refl _, by simp [P2PPeer.fresh], fun _ => by simp [P2PPeer.fresh]⟩
  cases touches with
  | connect env peerId ip port => exact connectPeer_tended real ip port _ _
  | accept => exact acceptPeer_tended tended _
  | disconnect => exact disconnectPeer_tended tended _
  | send => exact tended.of_same (sendMessage_same _ _ _ _ _).1 (sendMessage_same _ _ _ _ _).2
  | sendSealed | sendSecure =>
    exact tended.of_same (sendSecure_same _ _ _ _).1 (sendSecure_same _ _ _ _).2
  | datagram env sender buffer n found sh header =>
    exact dispatch_tended tended (fun close => (clean _ found header close).2) sh
  | handshake => exact handshakeFrom_tended _ _ _
  | keepalive env p sh =>
    rcases origin with hp | ⟨id, rfl⟩
    · exact keepalivePeer_tended tended (clean.1 p hp) sh
    · exact keepalivePeer_tended tended (fun out => by simp [timesOut, P2PPeer.fresh] at out) sh

theorem lossOf_clean_iff {p : P2PPeer} {sh : Shared} {h : Handled} :
    (∀ x ∈ lossOf p sh h, CleanLoss x.peer x.before x.after) ↔
      (p.state = .established → h.peer.state = .disconnected → CleanLoss p sh h) := by
  unfold lossOf
  split_ifs with lost
  · exact ⟨fun clean _ _ => clean _ List.mem_cons_self,
      fun clean x hx => List.mem_singleton.1 hx ▸ clean lost.1 lost.2⟩
  · exact iff_of_true (fun x hx => by cases hx) fun open_ gone => absurd ⟨open_, gone⟩ lost

/-- `p2p_connect` gives a socket only to a record that has none. -/
theorem p2pConnect_keeps {node : Node} (h : ∀ p ∈ node.peers, Tended p) (env : Env)
    (peerId : CString) {p : P2PPeer} (hp : p ∈ node.peers) (socket : 0 ≤ p.udpSocket) :
    p ∈ (p2pConnect env peerId node).2.peers := by
  unfold p2pConnect
  split_ifs with started busy
  · exact hp
  · exact hp
  · cases env.dhtNodeLookup.bind fun lookup => lookup (normalizeId peerId) with
    | none => exact hp
    | some at_ =>
      dsimp only
      cases added : addPeer env peerId node.peers node.shared with
      | none => exact hp
      | some r =>
        obtain ⟨c, sh⟩ := r
        rcases addPeer_cases added with ⟨found, -⟩ | ⟨-, rfl, -⟩
        · have list : c.toList = node.peers := Cursor.toList_of_find found
          rw [found] at busy
          have idle : ¬ P2PState.handshake.code ≤ c.val.state.code := by simpa using busy
          have tended := h c.val (list ▸ c.val_mem_toList)
          have closed : c.val.udpSocket < 0 := by
            apply tended.closed
            have settled := tended.settled
            revert idle settled
            cases c.val.state <;> decide
          rw [← list] at hp
          rcases Cursor.mem_toList.1 hp with hp | rfl | hp
          · exact Cursor.mem_toList.2 (Or.inl hp)
          · omega
          · exact Cursor.mem_toList.2 (Or.inr (Or.inr hp))
        · exact Cursor.mem_toList.2 (Or.inl hp)

theorem goOffline_count {s : Store} (room : s.queue.count < eventQueueSize) (env : Env) (id : CString) :
    (goOffline env id s).queue.count = s.queue.count + 1 := by
  rw [← RingBuffer.length_toList, goOffline_queue, List.length_append, RingBuffer.length_toList,
    List.length_take, List.length_singleton]
  omega

/-- The losses of a pass are clean if none of them leaves a socket open and there is room for all
their events. -/
theorem keepaliveLosses_clean_iff (env : Env) {peers : List P2PPeer}
    (real : ∀ p ∈ peers, -1 ≤ p.udpSocket) (sh : Shared) :
    (∀ x ∈ keepaliveLosses env peers sh, CleanLoss x.peer x.before x.after) ↔
      (∀ p ∈ peers, timesOut env p = true → p.udpSocket < 0) ∧
        sh.queue.count + (peers.filter (timesOut env)).length ≤ eventQueueSize := by
  induction peers generalizing sh with
  | nil => simpa [keepaliveLosses] using sh.queue.count_le
  | cons p peers ih =>
    have rest := ih (fun q hq => real q (List.mem_cons_of_mem p hq)) (keepalivePeer env p sh).shared
    simp only [keepaliveLosses, List.forall_mem_append, rest, List.forall_mem_cons]
    rcases keepalivePeer_cases env p sh with ⟨out, h⟩ | ⟨alive, h⟩
    · -- the head is lost
      have open_ : p.state = .established := by
        simp only [timesOut, Bool.and_eq_true, beq_iff_eq] at out
        exact out.1.1
      have gone : (keepalivePeer env p sh).peer.state = .disconnected := by rw [h]
      have clean := keepalivePeer_clean_iff (real p List.mem_cons_self) out sh
      simp only [lossOf_clean_iff, open_, gone, true_imp_iff, clean, List.filter_cons_of_pos out,
        List.length_cons]
      have after : (keepalivePeer env p sh).shared.queue = (goOffline env p.id.val sh.toStore).queue := by
        rw [h]
        rfl
      rw [after]
      constructor
      · rintro ⟨⟨socket, room⟩, sockets, rooms⟩
        rw [goOffline_count room] at rooms
        exact ⟨⟨fun _ => socket, sockets⟩, by omega⟩
      · rintro ⟨⟨socket, sockets⟩, rooms⟩
        have room : sh.queue.count < eventQueueSize := by omega
        refine ⟨⟨socket out, room⟩, sockets, ?_⟩
        rw [goOffline_count room]
        omega
    · -- the head stays
      have state : (keepalivePeer env p sh).peer.state = p.state := by
        rcases h with h | h <;> rw [h]
      have stays (open_ : p.state = .established) :
          (keepalivePeer env p sh).peer.state ≠ .disconnected := by
        rw [state, open_]
        decide
      have queue : (keepalivePeer env p sh).shared.queue = sh.queue := by
        rcases h with h | h
        · rw [h]
        · rw [h]
          rfl
      have none_lost : p.state = .established →
          (keepalivePeer env p sh).peer.state = .disconnected →
            CleanLoss p sh (keepalivePeer env p sh) :=
        fun open_ gone => absurd gone (stays open_)
      rw [and_iff_right (lossOf_clean_iff.2 none_lost), queue,
        List.filter_cons_of_neg (by rw [alive]; decide), alive]
      simp

/-- A datagram loses nothing if it is no CLOSE of an ESTABLISHED record. -/
theorem datagram_loses_nothing {env : Env} {p : P2PPeer} {msg : P2PMessage} {n : ℕ} (sh : Shared)
    (close : headerOk msg n = true → msg.type = P2PMessageType.close.code → p.state ≠ .established)
    (open_ : p.state = .established) : (processMessage env p msg n sh).peer.state ≠ .disconnected := by
  by_cases header : headerOk msg n = true
  · rw [processMessage_accepted header]
    obtain state | state | ⟨-, type⟩ := (dispatch_handles env p msg sh).state
    · rw [state, open_]
      decide
    · rw [state]
      decide
    · exact absurd open_ (close header type)
  · rw [processMessage_rejected header, open_]
    decide

/-- A CLOSE with a good header is clean only for a record without connection and socket. -/
theorem losesCleanly_close {node : Node} {env : Env} {sender : SockAddrIn} {buffer : Bytes} {n : ℕ}
    (clean : LosesCleanly node (env, .datagram sender buffer n)) {c : Cursor P2PPeer}
    (found : findAddr sender node.peers = some c)
    (header : headerOk (P2PMessage.ofBuffer buffer) n = true)
    (type : (P2PMessage.ofBuffer buffer).type = P2PMessageType.close.code) :
    c.val.state ≠ .established ∧ c.val.udpSocket < 0 := by
  have closed := dispatch_close type env c.val node.shared
  constructor
  · intro open_
    have lost := clean.losses
    simp only [losses, found, lossOf_clean_iff, processMessage_accepted header] at lost
    exact close_not_clean env c.val type node.shared (lost open_ (by rw [closed]))
  · have step : (p2pStep node (env, .datagram sender buffer n)).peers =
        (c.set { c.val with state := .disconnected }).toList := by
      show (listenerReceive env sender buffer n node).2.peers = _
      rw [listenerReceive_known found header, closed]
      rfl
    exact clean.closed { c.val with state := .disconnected }
      (by rw [step]; exact Cursor.val_mem_toList _) rfl

/-- The losses of a step are clean if the step cleans up, and only then. -/
theorem losesCleanly_iff {node : Node} {l : Env × P2PCall} (h : ∀ p ∈ node.peers, Tended p)
    (real : -1 ≤ l.1.createUdpSocket) : LosesCleanly node l ↔ CleansUp node l := by
  obtain ⟨env, call⟩ := l
  have of_losses (clean : CleansUp node (env, call))
      (lost : ∀ x ∈ losses node (env, call), CleanLoss x.peer x.before x.after) :
      LosesCleanly node (env, call) := by
    refine ⟨lost, ?_, fun p hp => (p2pStep_tended h real clean p hp).closed⟩
    rintro peerId rfl p hp socket
    exact p2pConnect_keeps h env peerId hp socket
  cases call with
  | connect peerId => exact iff_of_true (of_losses trivial (by simp [losses])) trivial
  | accept peerId => exact iff_of_true (of_losses trivial (by simp [losses])) trivial
  | send peerId message => exact iff_of_true (of_losses trivial (by simp [losses])) trivial
  | sendSecure peerId data => exact iff_of_true (of_losses trivial (by simp [losses])) trivial
  | keepalive =>
    have pass := keepaliveLosses_clean_iff env (fun p hp => (h p hp).real) node.shared
    exact ⟨fun clean => pass.1 clean.losses, fun clean => of_losses clean (pass.2 clean)⟩
  | disconnect peerId =>
    have clean : (∀ x ∈ losses node (env, .disconnect peerId), CleanLoss x.peer x.before x.after) ↔
        CleansUp node (env, .disconnect peerId) := by
      cases found : findPeer peerId node.peers with
      | none => simp [losses, CleansUp, found]
      | some c =>
        have tended := h c.val (Cursor.toList_of_find found ▸ c.val_mem_toList)
        have gone : (disconnectPeer env c.val node.shared).peer.state = .disconnected := by
          obtain ⟨es, -, e⟩ := disconnectPeer_eq env c.val node.shared
          rw [e]
        simp only [losses, CleansUp, found, lossOf_clean_iff, gone, true_imp_iff,
          disconnectPeer_clean_iff tended.real, Option.some.injEq, forall_eq']
    exact ⟨fun all => clean.1 all.losses, fun cond => of_losses cond (clean.2 cond)⟩
  | datagram sender buffer n =>
    refine ⟨fun clean c found header type => losesCleanly_close clean found header type, fun cond => ?_⟩
    apply of_losses cond
    cases found : findAddr sender node.peers with
    | none => simp [losses, found]
    | some c =>
      simp only [losses, found, lossOf_clean_iff]
      intro open_ gone
      have close := fun header type => (cond c found header type).1
      exact absurd gone (datagram_loses_nothing node.shared close open_)

/-! ## Runs -/

/-- A step of the P2P manager, or whatever else works on the state manager and the event queue. -/
inductive Turn where
  | p2p (env : Env) (call : P2PCall)
  | other (f : Store → Store)

/-- A call, or a change by another thread. -/
def turnStep (node : Node) : Turn → Node
  | .p2p env call => p2pStep node (env, call)
  | .other f => node.onStore f

/-- `create_udp_socket` returns a descriptor or -1. -/
def Turn.Real : Turn → Prop
  | .p2p env _ => -1 ≤ env.createUdpSocket
  | .other _ => True

/-- The connections that a turn loses are lost cleanly. -/
def Turn.LosesCleanly (node : Node) : Turn → Prop
  | .p2p env call => Orcashi.LosesCleanly node (env, call)
  | .other _ => True

/-- The condition for it. -/
def Turn.CleansUp (node : Node) : Turn → Prop
  | .p2p env call => Orcashi.CleansUp node (env, call)
  | .other _ => True

/-- In every run, all losses are clean, no `p2p_connect` overwrites an open socket and no DISCONNECTED
record ever has one, exactly if every step of the run cleans up. -/
theorem connections_lost_cleanly_iff {node : Node} (empty : node.peers = []) {ts : List Turn}
    (real : ∀ t ∈ ts, t.Real) :
    History.Meets turnStep Turn.LosesCleanly node ts ↔
      History.Meets turnStep Turn.CleansUp node ts := by
  apply History.meets_iff_of_invariant (fun node => ∀ p ∈ node.peers, Tended p) Turn.Real
  · intro node t h real
    cases t with
    | p2p env call =>
      have decided : LosesCleanly node (env, call) ↔ CleansUp node (env, call) :=
        losesCleanly_iff h real
      exact decided
    | other f => exact Iff.rfl
  · intro node t h real clean
    cases t with
    | p2p env call =>
      have decided : LosesCleanly node (env, call) ↔ CleansUp node (env, call) :=
        losesCleanly_iff h real
      exact p2pStep_tended h real (decided.1 clean)
    | other f => exact h
  · rw [empty]
    exact fun p hp => by cases hp
  · exact real

/-- A session with `bob` that the user ends. -/
def endedSession : List Turn :=
  [.p2p reachesBob (.connect (ascii "bob")), .p2p reachesBob (datagramOf .handshakeResponse [1]),
    .p2p reachesBob (.disconnect (ascii "bob"))]

theorem connections_lost_cleanly_iff_ended :
    History.Meets turnStep Turn.LosesCleanly .init endedSession ↔
      History.Meets turnStep Turn.CleansUp .init endedSession := by
  refine connections_lost_cleanly_iff rfl fun t ht => ?_
  simp only [endedSession, List.mem_cons, List.not_mem_nil, or_false] at ht
  rcases ht with rfl | rfl | rfl <;> exact (by decide : (-1 : ℤ) ≤ 3)

/-- After a CLOSE of `bob` his record is DISCONNECTED, but secure and with its socket, and no event was
pushed; the next `p2p_connect` overwrites the descriptor, which nobody closes. -/
theorem close_leaks_socket :
    let closed := History.run turnStep .init
      [.p2p reachesBob (.connect (ascii "bob")), .p2p reachesBob (datagramOf .handshakeResponse [1]),
        .p2p reachesBob (datagramOf .close [0])]
    let again := turnStep closed (.p2p { reachesBob with createUdpSocket := 4 } (.connect (ascii "bob")))
    closed.peers.map (fun p => (p.state, p.isSecure, p.udpSocket)) = [(.disconnected, true, 3)] ∧
      closed.shared.queue.count = 0 ∧ again.peers.map P2PPeer.udpSocket = [4] ∧
      closings again.shared.trace = [] ∧
      ¬ History.Meets turnStep Turn.LosesCleanly .init
        [.p2p reachesBob (.connect (ascii "bob")), .p2p reachesBob (datagramOf .handshakeResponse [1]),
          .p2p reachesBob (datagramOf .close [0])] := by
  intro closed again
  have leak : ∃ p ∈ closed.peers, p.state = .disconnected ∧ ¬ p.udpSocket < 0 := by decide
  refine ⟨by decide, by decide, by decide, by decide, fun meets => ?_⟩
  obtain ⟨p, hp, gone, open_⟩ := leak
  exact open_ (meets.2.2.1.closed p hp gone)

end Orcashi
