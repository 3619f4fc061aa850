import Orcashi.Daemon
import Orcashi.ReceiveGate

/-!
# Two threads on one socket

`listener_thread` and `daemon_p2p_thread` receive from the same socket, and each receive takes a
datagram away from the other.  The listener gives it to `process_message`, the other thread pushes
its bytes as the text of an event.  A datagram is processed exactly once if it is the listener that
gets it.
-/

namespace Orcashi

open CMemory

/-! ## Datagrams of known peers -/

/-- A `P2PMessage` on its way from an address. -/
structure Datagram where
  sender : SockAddrIn
  msg : P2PMessage
  deriving DecidableEq

/-- A message of the protocol. -/
structure Datagram.WellFormed (d : Datagram) : Prop where
  magic : d.msg.magic = p2pMagic
  version : d.msg.version = p2pProtocolVersion
  type : ∃ t : P2PMessageType, d.msg.type = t.code
  length : d.msg.payloadLen.toNat = d.msg.payload.length

/-- The address by which the listener finds a record. -/
def P2PPeer.address (p : P2PPeer) : IpText × ℤ := (p.ip, p.port)

/-- The listener has a record for the address. -/
def Knows (node : Node) (sender : SockAddrIn) : Prop := (findAddr sender node.peers).isSome = true

theorem knows_iff {node : Node} {sender : SockAddrIn} :
    Knows node sender ↔ (sender.ip, sender.port) ∈ node.peers.map P2PPeer.address := by
  unfold Knows findAddr
  rw [Option.isSome_iff_ne_none, Ne, Cursor.find_eq_none_iff]
  simp only [List.mem_map, P2PPeer.address, Prod.mk.injEq]
  constructor
  · intro h
    by_contra none_there
    apply h
    intro p hp
    by_contra hit
    simp only [Bool.and_eq_false_iff, beq_eq_false_iff_ne, not_or, not_not] at hit
    exact none_there ⟨p, hp, hit.2, hit.1⟩
  · rintro ⟨p, hp, ip, port⟩ h
    simpa [ip, port] using h p hp

/-! ## Processing keeps addresses -/

theorem processMessage_address (env : Env) (peer : P2PPeer) (msg : P2PMessage) (msgLen : ℕ)
    (sh : Shared) : (processMessage env peer msg msgLen sh).peer.address = peer.address :=
  have same := processMessage_handles env peer msg msgLen sh
  Prod.ext same.ip same.port

/-! ## The socket -/

/-- The node and the datagrams that wait in its socket. -/
structure SocketState where
  node : Node
  pending : List Datagram

/-- A datagram arrives, or one of the two threads receives.  `rest` is what earlier datagrams left
in the buffer of the listener. -/
inductive SocketCall where
  | arrive (d : Datagram)
  | listener (env : Env) (rest : Bytes)
  | daemonP2P (env : Env)

/-- The datagram in the buffer of the listener. -/
def Datagram.inListener (d : Datagram) (rest : Bytes) : Bytes := d.msg.toBytes.take bufferSize ++ rest

/-- The datagram in the buffer of `daemon_p2p_thread`, which keeps a byte for the NUL. -/
def Datagram.inDaemon (d : Datagram) : Bytes := d.msg.toBytes.take (bufferSize - 1) ++ [0]

/-- `listener_thread` on the datagram. -/
def Datagram.listen (env : Env) (rest : Bytes) (d : Datagram) (node : Node) : Option ℤ × Node :=
  listenerReceive env d.sender (d.inListener rest) (min bufferSize d.msg.toBytes.length) node

/-- The socket after a step. -/
def socketStep (s : SocketState) : SocketCall → SocketState
  | .arrive d => { s with pending := s.pending ++ [d] }
  | .listener env rest =>
    match s.pending with
    | [] => s
    | d :: ds => ⟨(d.listen env rest s.node).2, ds⟩
  | .daemonP2P env =>
    match s.pending with
    | [] => s
    | d :: ds => ⟨daemonP2PReceive env d.sender d.inDaemon s.node, ds⟩

/-- What happens to a datagram. -/
inductive Fate where
  | arrived (d : Datagram)
  /-- the listener passed it to `process_message` -/
  | processed (d : Datagram)
  /-- the listener dropped it -/
  | dropped (d : Datagram)
  /-- `daemon_p2p_thread` received it; its bytes entered the queue as the text of an event -/
  | raw (d : Datagram) (delivered : Bool)
  deriving DecidableEq

/-- The bytes of the datagram entered the queue as the text of a received message. -/
def deliveredRaw (d : Datagram) (before after : Node) : Bool :=
  (after.shared.queue.toList.drop before.shared.queue.count).any fun ev =>
    ev.type == .messageReceived && ev.message == strAt d.inDaemon 0

/-- What becomes of datagrams in a step. -/
def fates (s : SocketState) : SocketCall → List Fate
  | .arrive d => [.arrived d]
  | .listener env rest =>
    match s.pending with
    | [] => []
    | d :: _ => if (d.listen env rest s.node).1.isSome then [.processed d] else [.dropped d]
  | .daemonP2P env =>
    match s.pending with
    | [] => []
    | d :: _ => [.raw d (deliveredRaw d s.node (daemonP2PReceive env d.sender d.inDaemon s.node))]

/-- The datagram that arrives. -/
def Fate.arrival : Fate → Option Datagram
  | .arrived d => some d
  | _ => none

/-- The datagram that is processed. -/
def Fate.processing : Fate → Option Datagram
  | .processed d => some d
  | _ => none

/-- The datagrams `daemon_p2p_thread` takes from the listener. -/
def Fate.theft : Fate → Option Datagram
  | .raw d _ => some d
  | _ => none

/-- What happened to the datagrams of a run that starts with an empty socket. -/
def history (node : Node) (ls : List SocketCall) : List Fate :=
  History.outputs socketStep fates ⟨node, []⟩ ls

/-- Every datagram that arrived is processed exactly once, if it does not wait any more, and none is
delivered as a text. -/
structure ProcessedOnce (node : Node) (ls : List SocketCall) : Prop where
  once : ((history node ls).filterMap Fate.processing ++
      (History.run socketStep ⟨node, []⟩ ls).pending).Perm ((history node ls).filterMap Fate.arrival)
  never_raw : ∀ d, .raw d true ∉ history node ls

/-- Only well-formed datagrams of known peers arrive. -/
def FromKnownPeers (s : SocketState) : SocketCall → Prop
  | .arrive d => d.WellFormed ∧ Knows s.node d.sender
  | _ => True

/-! ## What a receive does -/

theorem ofBuffer_inListener (d : Datagram) (rest : Bytes) :
    P2PMessage.ofBuffer (d.inListener rest) =
      { d.msg with payload := d.msg.payload.take (bufferSize - headerSize) ++ rest } := by
  unfold Datagram.inListener
  rw [P2PMessage.take_toBytes_append _ (by decide), P2PMessage.ofBuffer_toBytes]

/-- The listener processes a well-formed datagram of a known peer, and afterwards it knows the same
peers. -/
theorem listen_known {d : Datagram} {node : Node} (wellFormed : d.WellFormed)
    (known : Knows node d.sender) (env : Env) (rest : Bytes) :
    (d.listen env rest node).1.isSome = true ∧
      ∀ sender, Knows (d.listen env rest node).2 sender ↔ Knows node sender := by
  obtain ⟨c, found⟩ := Option.isSome_iff_exists.1 known
  have long : ¬ min bufferSize d.msg.toBytes.length < headerSize := by
    rw [P2PMessage.length_toBytes]
    simp only [bufferSize, headerSize]
    omega
  have magic : ¬ (P2PMessage.ofBuffer (d.inListener rest)).magic ≠ p2pMagic := by
    rw [ofBuffer_inListener]
    exact not_not_intro wellFormed.magic
  unfold Datagram.listen listenerReceive
  dsimp only
  rw [if_neg long, if_neg magic, found]
  refine ⟨rfl, fun sender => ?_⟩
  have addresses : (c.set (processMessage env c.val (P2PMessage.ofBuffer (d.inListener rest))
      (min bufferSize d.msg.toBytes.length) node.shared).peer).toList.map P2PPeer.address =
      node.peers.map P2PPeer.address := by
    rw [Cursor.map_toList_set (processMessage_address _ _ _ _ _), Cursor.toList_of_find found]
  rw [knows_iff, knows_iff]
  exact iff_of_eq (congrArg ((sender.ip, sender.port) ∈ ·) addresses)

/-- What has arrived was processed, was taken by the other thread, or waits. -/
structure Tally (s : SocketState) (given : List Fate) : Prop where
  known : ∀ d ∈ s.pending, d.WellFormed ∧ Knows s.node d.sender
  total : (given.filterMap Fate.processing ++ given.filterMap Fate.theft ++ s.pending).Perm
    (given.filterMap Fate.arrival)

theorem Tally.step {s : SocketState} {l : SocketCall} {given : List Fate} (h : Tally s given)
    (fits : FromKnownPeers s l) : Tally (socketStep s l) (given ++ fates s l) := by
  obtain ⟨known, total⟩ := h
  have counts := List.perm_iff_count.1 total
  cases l with
  | arrive d =>
    refine ⟨?_, List.perm_iff_count.2 fun x => ?_⟩
    · intro d' hd'
      rcases List.mem_append.1 hd' with hd' | hd'
      · exact known d' hd'
      · rw [List.mem_singleton.1 hd']
        exact fits
    · have := counts x
      simp only [socketStep, fates, List.filterMap_append, List.filterMap_cons, List.filterMap_nil,
        Fate.processing, Fate.theft, Fate.arrival, List.count_append, List.count_nil] at this ⊢
      omega
  | listener env rest =>
    obtain ⟨node, pending⟩ := s
    cases pending with
    | nil => simpa [socketStep, fates] using Tally.mk known total
    | cons d ds =>
      have here := known d List.mem_cons_self
      obtain ⟨processed, same⟩ := listen_known here.1 here.2 env rest
      refine ⟨?_, List.perm_iff_count.2 fun x => ?_⟩
      · intro d' hd'
        obtain ⟨wellFormed, knows⟩ := known d' (List.mem_cons_of_mem d hd')
        exact ⟨wellFormed, (same d'.sender).2 knows⟩
      · have := counts x
        simp only [socketStep, fates, processed, if_true, List.filterMap_append,
          List.filterMap_cons, List.filterMap_nil, Fate.processing, Fate.theft, Fate.arrival,
          List.count_append, List.count_cons, List.count_nil] at this ⊢
        omega
  | daemonP2P env =>
    obtain ⟨node, pending⟩ := s
    cases pending with
    | nil => simpa [socketStep, fates] using Tally.mk known total
    | cons d ds =>
      refine ⟨?_, List.perm_iff_count.2 fun x => ?_⟩
      · intro d' hd'
        exact known d' (List.mem_cons_of_mem d hd')
      · have := counts x
        simp only [socketStep, fates, List.filterMap_append, List.filterMap_cons,
          List.filterMap_nil, Fate.processing, Fate.theft, Fate.arrival, List.count_append,
          List.count_cons, List.count_nil] at this ⊢
        omega

/-! ## Schedules -/

/-- The step does not take a datagram into `daemon_p2p_thread`. -/
def NotStolen (s : SocketState) : SocketCall → Prop
  | .daemonP2P _ => s.pending = []
  | _ => True

theorem notStolen_iff (s : SocketState) (l : SocketCall) :
    NotStolen s l ↔ ∀ e ∈ fates s l, e.theft = none := by
  cases l with
  | arrive d => simp [NotStolen, fates, Fate.theft]
  | listener env rest =>
    cases hp : s.pending with
    | nil => simp [NotStolen, fates, hp]
    | cons d ds => by_cases h : (d.listen env rest s.node).1.isSome <;>
        simp [NotStolen, fates, hp, h, Fate.theft]
  | daemonP2P env =>
    cases hp : s.pending <;> simp [NotStolen, fates, hp, Fate.theft]

/-- However datagrams of known peers arrive and the two threads take turns, every datagram is
processed exactly once and none is delivered as a text, exactly if `daemon_p2p_thread` finds the
socket empty at all its turns. -/
theorem processed_once_iff {node : Node} {ls : List SocketCall}
    (fits : History.Meets socketStep FromKnownPeers ⟨node, []⟩ ls) :
    ProcessedOnce node ls ↔ History.Meets socketStep NotStolen ⟨node, []⟩ ls := by
  have tally : Tally (History.run socketStep ⟨node, []⟩ ls) (history node ls) := by
    have start : Tally ⟨node, []⟩ [] := ⟨by simp, by simp⟩
    exact History.run_invariant_outputs Tally (fun s l given h => h.step) start fits
  have unstolen : (History.Meets socketStep NotStolen ⟨node, []⟩ ls) ↔
      ∀ e ∈ history node ls, e.theft = none := by
    unfold history
    rw [History.forall_mem_outputs_iff]
    simp only [← notStolen_iff]
  rw [unstolen]
  constructor
  · intro h
    have size := tally.total.length_eq.trans h.once.length_eq.symm
    simp only [List.length_append] at size
    have none_stolen : (history node ls).filterMap Fate.theft = [] :=
      List.length_eq_zero_iff.1 (by omega)
    simpa [List.filterMap_eq_nil_iff] using none_stolen
  · intro h
    have none_stolen : (history node ls).filterMap Fate.theft = [] :=
      List.filterMap_eq_nil_iff.2 h
    refine ⟨?_, ?_⟩
    · simpa [none_stolen] using tally.total
    · intro d hd
      cases h _ hd

/-- A node that has an ESTABLISHED session with `bob`. -/
def nodeOfBob : Node :=
  History.run p2pStep .init
    [(reachesBob, .connect (ascii "bob")), (reachesBob, datagramOf .handshakeResponse [1])]

/-- A message of `bob`. -/
def hiFromBob : Datagram := ⟨bobAddr, .make 0 .data (ascii "hi")⟩

theorem hiFromBob_known : hiFromBob.WellFormed ∧ Knows nodeOfBob hiFromBob.sender := by
  refine ⟨⟨rfl, rfl, ⟨P2PMessageType.data, rfl⟩, by decide⟩, ?_⟩
  unfold Knows
  decide

theorem processed_once_iff_hi :
    ProcessedOnce nodeOfBob [.arrive hiFromBob, .listener reachesBob [], .daemonP2P reachesBob] ↔
      History.Meets socketStep NotStolen ⟨nodeOfBob, []⟩
        [.arrive hiFromBob, .listener reachesBob [], .daemonP2P reachesBob] :=
  processed_once_iff ⟨hiFromBob_known, trivial, trivial, trivial⟩

/-- A message of a known peer that `daemon_p2p_thread` receives is never processed, and its bytes
are delivered as a text. -/
theorem message_delivered_raw :
    History.Meets socketStep FromKnownPeers ⟨nodeOfBob, []⟩
        [.arrive hiFromBob, .daemonP2P reachesBob, .listener reachesBob []] ∧
      history nodeOfBob [.arrive hiFromBob, .daemonP2P reachesBob, .listener reachesBob []] =
        [.arrived hiFromBob, .raw hiFromBob true] ∧
      ¬ ProcessedOnce nodeOfBob
        [.arrive hiFromBob, .daemonP2P reachesBob, .listener reachesBob []] := by
  have fits : History.Meets socketStep FromKnownPeers ⟨nodeOfBob, []⟩
      [.arrive hiFromBob, .daemonP2P reachesBob, .listener reachesBob []] :=
    ⟨hiFromBob_known, trivial, trivial, trivial⟩
  have raw : history nodeOfBob [.arrive hiFromBob, .daemonP2P reachesBob, .listener reachesBob []] =
      [.arrived hiFromBob, .raw hiFromBob true] := by
    decide
  refine ⟨fits, raw, fun h => h.never_raw hiFromBob ?_⟩
  rw [raw]
  exact List.mem_cons_of_mem _ List.mem_cons_self

end Orcashi
