import Orcashi.Disconnection

/-!
# Pointers into the peer table

`find_peer` and `add_peer` release `g_p2p_mutex` before they return, so `p2p_connect`, `p2p_accept`,
`p2p_disconnect` and the functions that send write through a pointer without it.  Here every
assignment through a pointer may be a step of its own, and whatever other threads do comes between two
of them.

No record moves, because `add_peer` writes an id once, in its normal form and at the end, and all other
functions assign other fields.
-/

namespace Orcashi

open CMemory

/-! ## Assignments -/

/-- An assignment through a `P2PPeer*`.  The fields without one are written by `add_peer` alone. -/
inductive Assignment where
  | ip (ip : IpText)
  | port (port : ℤ)
  | state (state : P2PState)
  | udpSocket (fd : ℤ)
  | addr (addr : SockAddrIn)
  | sharedSecret (sharedSecret : Bytes)
  | aesKey (aesKey : Bytes)
  | lastActivity (now : Time)
  | isSecure (isSecure : Bool)
  | isInitiator (isInitiator : Bool)
  | publicKey (publicKey : CString)

/-- A record after an assignment. -/
def P2PPeer.assign (p : P2PPeer) : Assignment → P2PPeer
  | .ip ip => { p with ip := ip }
  | .port port => { p with port := port }
  | .state state => { p with state := state }
  | .udpSocket fd => { p with udpSocket := fd }
  | .addr addr => { p with addr := addr }
  | .sharedSecret sharedSecret => { p with sharedSecret := sharedSecret }
  | .aesKey aesKey => { p with aesKey := aesKey }
  | .lastActivity now => { p with lastActivity := now }
  | .isSecure isSecure => { p with isSecure := isSecure }
  | .isInitiator isInitiator => { p with isInitiator := isInitiator }
  | .publicKey publicKey => { p with publicKey := publicKey }

theorem P2PPeer.assign_id (p : P2PPeer) (a : Assignment) : (p.assign a).id = p.id := by
  cases a <;> rfl

/-- `p'` is `p` after assignments through a pointer to it. -/
def Assigned (p p' : P2PPeer) : Prop := ∃ as : List Assignment, as.foldl P2PPeer.assign p = p'

namespace Assigned

variable {p q r : P2PPeer}

theorem refl (p : P2PPeer) : Assigned p p := ⟨[], rfl⟩

theorem trans (h : Assigned p q) (h' : Assigned q r) : Assigned p r := by
  obtain ⟨as, rfl⟩ := h
  obtain ⟨bs, rfl⟩ := h'
  exact ⟨as ++ bs, List.foldl_append⟩

theorem id (h : Assigned p q) : q.id = p.id := by
  obtain ⟨as, rfl⟩ := h
  induction as generalizing p with
  | nil => rfl
  | cons a as ih => exact ih.trans (p.assign_id a)

end Assigned

/-! ## What the functions assign -/

section

variable (env : Env) (p : P2PPeer) (sh : Shared)

theorem sendMessage_assigned (type : P2PMessageType) (payload : Bytes) :
    Assigned p (sendMessage env p type payload sh).peer := by
  rcases sendMessage_cases env p type payload sh with h | ⟨-, h⟩ <;> rw [h]
  · exact .refl p
  · exact ⟨[.lastActivity env.now], rfl⟩

theorem sendHandshake_assigned : Assigned p (sendHandshake env p sh).peer := by
  unfold sendHandshake
  cases env.identity with
  | none => exact .refl p
  | some identity =>
    dsimp only
    cases env.crypto.rsaSignString (handshakeData identity.id identity.name identity.publicKey env.now)
      identity.privateKeyEncrypted with
    | none => exact .refl p
    | some signature => exact sendMessage_assigned env p sh _ _

theorem connectPeer_assigned (ip : IpText) (port : ℤ) :
    Assigned p (connectPeer env ip port p sh).peer := by
  unfold connectPeer
  dsimp only
  have dialled : Assigned p
      { p with
        ip := ip, port := port, state := .connecting, isInitiator := true, lastActivity := env.now,
        addr := .make ip.val port, udpSocket := env.createUdpSocket } :=
    ⟨[.ip ip, .port port, .state .connecting, .isInitiator true, .lastActivity env.now,
      .addr (.make ip.val port), .udpSocket env.createUdpSocket], rfl⟩
  have abandoned (q : P2PPeer) (s : Shared) : Assigned q (abandonConnect q s).peer :=
    ⟨[.udpSocket (-1), .state .disconnected], rfl⟩
  have shaken (s : Shared) := dialled.trans (sendHandshake_assigned env _ s)
  split_ifs
  · exact dialled.trans ⟨[.state .disconnected], rfl⟩
  · exact dialled.trans (abandoned _ _)
  · exact (shaken _).trans (abandoned _ _)
  · exact (shaken _).trans ⟨[.state .handshake], rfl⟩

theorem acceptPeer_assigned : Assigned p (acceptPeer env p sh).peer := by
  unfold acceptPeer
  split_ifs
  · exact .refl p
  rcases establishSecureChannel_cases env p sh with
    ⟨-, h⟩ | ⟨sharedSecret, aesKey, -, h | ⟨datagram, h⟩⟩ <;> rw [h]
  · exact .refl p
  · exact ⟨[.sharedSecret sharedSecret, .aesKey aesKey], rfl⟩
  · exact ⟨[.sharedSecret sharedSecret, .aesKey aesKey, .state .established, .isSecure true,
      .lastActivity env.now], rfl⟩

theorem disconnectPeer_assigned : Assigned p (disconnectPeer env p sh).peer := by
  unfold disconnectPeer
  have closed (q : P2PPeer) : Assigned q
      { q with state := .disconnected, isSecure := false, lastActivity := env.now } :=
    ⟨[.state .disconnected, .isSecure false, .lastActivity env.now], rfl⟩
  by_cases socket : 0 ≤ p.udpSocket
  · rw [if_pos socket]
    have sent := sendMessage_assigned env p sh .close [0]
    exact (sent.trans ⟨[.udpSocket (-1)], rfl⟩).trans (closed _)
  · rw [if_neg socket]
    exact closed p

theorem sendSecure_assigned (data : Bytes) : Assigned p (sendSecure env p data sh).peer := by
  unfold sendSecure
  split_ifs
  · exact .refl p
  · cases env.crypto.aesGcmEncrypt data p.aesKey env.nonce with
    | none => exact .refl p
    | some sealed =>
      dsimp only
      split_ifs <;> exact sendMessage_assigned env p sh _ _

theorem handleHandshake_assigned (msg : P2PMessage) :
    Assigned p (handleHandshake env p msg sh).peer := by
  obtain ⟨es, -, ⟨-, h⟩ | ⟨id, pubkey, signature, identity, -, -, h⟩⟩ :=
    handleHandshake_cases env p msg sh
  · rw [h]
    exact .refl p
  have keyed (sharedSecret aesKey : Bytes) : Assigned p
      { p with
        publicKey := pubkey, isSecure := true, sharedSecret := sharedSecret, aesKey := aesKey } :=
    ⟨[.publicKey pubkey, .isSecure true, .sharedSecret sharedSecret, .aesKey aesKey], rfl⟩
  rw [h]
  rcases acceptHandshake_cases env p identity id pubkey signature (sh.record es) with
    ⟨-, h⟩ | ⟨-, ⟨-, h⟩ | ⟨sharedSecret, aesKey, -, h | ⟨datagram, h⟩⟩⟩ <;> rw [h]
  · exact .refl p
  · exact ⟨[.publicKey pubkey, .isSecure true], rfl⟩
  · exact keyed sharedSecret aesKey
  · exact (keyed sharedSecret aesKey).trans ⟨[.state .established, .lastActivity env.now], rfl⟩

theorem handleData_assigned (msg : P2PMessage) : Assigned p (handleData env p msg sh).peer := by
  have noted : Assigned p { p with lastActivity := env.now } := ⟨[.lastActivity env.now], rfl⟩
  unfold handleData
  split_ifs
  · cases openPayload env p msg with
    | none => exact .refl p
    | some plaintext => exact noted
  · exact noted

theorem dispatch_assigned (msg : P2PMessage) : Assigned p (dispatch env p msg sh).peer := by
  unfold dispatch
  cases P2PMessageType.ofCode msg.type with
  | none => exact .refl p
  | some type =>
    cases type with
    | handshake => exact handleHandshake_assigned env p sh msg
    | handshakeResponse =>
      exact ⟨[.state .established, .isSecure true, .lastActivity env.now], rfl⟩
    | data => exact handleData_assigned env p sh msg
    | keepalive => exact ⟨[.lastActivity env.now], rfl⟩
    | close => exact ⟨[.state .disconnected], rfl⟩
    | addRequest | acceptConfirm | rejectConfirm => exact .refl p

theorem handshakeFrom_assigned (sender : SockAddrIn) : Assigned p (handshakeFrom env sender p) :=
  ⟨[.ip sender.ip, .port sender.port, .state .handshake, .udpSocket (-1), .isInitiator false,
    .lastActivity env.now, .addr (.make sender.ip.val sender.port)], rfl⟩

theorem keepalivePeer_assigned : Assigned p (keepalivePeer env p sh).peer := by
  rcases keepalivePeer_cases env p sh with ⟨-, h⟩ | ⟨-, h | h⟩ <;> rw [h]
  · exact ⟨[.state .disconnected, .isSecure false], rfl⟩
  · exact .refl p
  · exact ⟨[.lastActivity env.now], rfl⟩

end

/-- All that any function does with the record under its pointer are assignments. -/
theorem Touches.assigned {node : Node} {l : Env × P2PCall} {p p' : P2PPeer} (h : Touches node l p p') :
    Assigned p p' := by
  cases h with
  | connect env peerId ip port sh => exact connectPeer_assigned env p _ ip port
  | accept env peerId sh => exact acceptPeer_assigned env p _
  | disconnect env peerId sh => exact disconnectPeer_assigned env p _
  | send env peerId message sh => exact sendMessage_assigned env p _ _ _
  | sendSealed env peerId message sh => exact sendSecure_assigned env p _ message
  | sendSecure env peerId data sh => exact sendSecure_assigned env p _ data
  | datagram env sender buffer n found sh header => exact dispatch_assigned env _ sh _
  | handshake env sender buffer n => exact handshakeFrom_assigned env p sender
  | keepalive env sh => exact keepalivePeer_assigned env p _

/-! ## The table -/

/-- No id twice, and no more records than there is room for. -/
structure TableInv (peers : List P2PPeer) : Prop where
  ids : (peers.map P2PPeer.id).Nodup
  room : peers.length ≤ p2pMaxPeers

/-- Every id keeps its index, and new ones come after it. -/
structure Extends (peers peers' : List P2PPeer) : Prop where
  ids : peers.map P2PPeer.id <+: peers'.map P2PPeer.id
  inv : TableInv peers → TableInv peers'

namespace Extends

variable {peers peers' peers'' : List P2PPeer}

theorem refl (peers : List P2PPeer) : Extends peers peers := ⟨List.prefix_rfl, fun h => h⟩

theorem trans (h : Extends peers peers') (h' : Extends peers' peers'') : Extends peers peers'' :=
  ⟨h.ids.trans h'.ids, fun inv => h'.inv (h.inv inv)⟩

theorem of_ids (same : peers'.map P2PPeer.id = peers.map P2PPeer.id) : Extends peers peers' := by
  constructor
  · exact same ▸ List.prefix_rfl
  · intro inv
    constructor
    · rw [same]
      exact inv.ids
    · have length := congrArg List.length same
      rw [List.length_map, List.length_map] at length
      rw [length]
      exact inv.room

theorem set {c : Cursor P2PPeer} {p' : P2PPeer} (h : Assigned c.val p') :
    Extends c.toList (c.set p').toList :=
  of_ids (Cursor.map_toList_set h.id)

theorem add {env : Env} {id : CString} {sh sh' : Shared} {c : Cursor P2PPeer}
    (added : addPeer env id peers sh = some (c, sh')) : Extends peers c.toList := by
  refine ⟨?_, fun inv => ⟨nodup_ids_addPeer inv.ids added, length_addPeer_le inv.room added⟩⟩
  rcases addPeer_cases added with ⟨found, -⟩ | ⟨-, rfl, -⟩
  · obtain rfl := Cursor.toList_of_find found
    exact List.prefix_rfl
  · rw [Cursor.toList, List.map_append]
    exact List.prefix_append _ _

/-- An assignment at any index. -/
theorem modify (i : ℕ) (a : Assignment) : Extends peers (peers.modify i fun p => p.assign a) := by
  apply of_ids
  apply List.ext_getElem?
  intro j
  rw [List.getElem?_map, List.getElem?_map, List.getElem?_modify, Option.map_eq_map, Option.map_map]
  congr 1
  funext p
  show (if i = j then p.assign a else p).id = p.id
  split_ifs
  · exact p.assign_id a
  · rfl

theorem getElem? (h : Extends peers peers') {i : ℕ} {p : P2PPeer} (hp : peers[i]? = some p) :
    ∃ p', peers'[i]? = some p' ∧ p'.id = p.id := by
  obtain ⟨new, ids⟩ := h.ids
  have here : (peers.map P2PPeer.id)[i]? = some p.id := by
    rw [List.getElem?_map, hp]
    rfl
  have bound := (List.getElem?_eq_some_iff.1 here).1
  have kept : (peers.map P2PPeer.id ++ new)[i]? = (peers.map P2PPeer.id)[i]? :=
    List.getElem?_append_left bound
  rw [← kept, ids, List.getElem?_map] at here
  exact Option.map_eq_some_iff.1 here

end Extends

theorem map_id_keepaliveLoop (env : Env) (peers : List P2PPeer) (sh : Shared) :
    (keepaliveLoop env peers sh).1.map P2PPeer.id = peers.map P2PPeer.id := by
  induction peers generalizing sh with
  | nil => rfl
  | cons p peers ih =>
    show (keepalivePeer env p sh).peer.id :: _ = p.id :: _
    rw [(keepalivePeer_assigned env p sh).id, ih]

/-- Whatever a step of the P2P manager does to the table, no record moves. -/
theorem Rewrites.extends {node : Node} {l : Env × P2PCall} {peers' : List P2PPeer}
    (h : Rewrites node l peers') : Extends node.peers peers' := by
  cases h with
  | same => exact .refl _
  | found found touches =>
    rw [← Cursor.toList_of_find found]
    exact .set touches.assigned
  | added added touches => exact (Extends.add added).trans (.set touches.assigned)
  | visited pass sh => exact .of_ids (map_id_keepaliveLoop l.1 node.peers sh)

/-- The record with the id is the only one, or there is none: what `find_peer` says of `x`. -/
def FindsOnly (x : CString) (peers : List P2PPeer) : Prop :=
  match findPeer x peers with
  | none => ∀ p ∈ peers, p.id.val ≠ normalizeId x
  | some c => c.toList = peers ∧
    ∀ i p, peers[i]? = some p → (p.id.val = normalizeId x ↔ i = c.before.length)

theorem TableInv.findsOnly {peers : List P2PPeer} (inv : TableInv peers) (x : CString) :
    FindsOnly x peers := by
  unfold FindsOnly
  cases found : findPeer x peers with
  | none =>
    intro p hp same
    exact findPeer_eq_none_iff.1 found p hp (NormId.ext same)
  | some c =>
    obtain ⟨list, hit, -⟩ := Cursor.find_eq_some found
    have named : c.val.id = NormId.of x := isSameId_val_iff.1 hit
    refine ⟨list, fun i p hp => ?_⟩
    have only := inv.ids
    rw [← list] at only hp
    rw [← Cursor.key_eq_iff_of_nodup only hp, named]
    constructor
    · intro same
      exact NormId.ext same
    · intro same
      rw [same]
      rfl

/-! ## Threads with pointers -/

/-- A `P2PPeer*`: the index of the record, and the peer it was returned for. -/
structure PeerPtr where
  index : ℕ
  id : NormId

/-- The record under the pointer is that of its peer. -/
def PeerPtr.Denotes (ptr : PeerPtr) (peers : List P2PPeer) : Prop :=
  ∃ p, peers[ptr.index]? = some p ∧ p.id = ptr.id

theorem PeerPtr.Denotes.extend {ptr : PeerPtr} {peers peers' : List P2PPeer} (h : ptr.Denotes peers)
    (ext : Extends peers peers') : ptr.Denotes peers' := by
  obtain ⟨p, hp, same⟩ := h
  obtain ⟨p', hp', kept⟩ := ext.getElem? hp
  exact ⟨p', hp', kept.trans same⟩

/-- The node, and every pointer that a thread has got. -/
structure P2PThreads where
  node : Node
  held : List PeerPtr

/-- Nobody has a pointer after `p2p_init`. -/
def P2PThreads.init : P2PThreads := ⟨.init, []⟩

/-- Return a pointer, for good. -/
def P2PThreads.hold (w : P2PThreads) (c : Cursor P2PPeer) (id : NormId) : P2PThreads :=
  { w with held := w.held ++ [⟨c.before.length, id⟩] }

/-- What a thread does next: a call, a turn of the listener or one of the keepalive thread as a whole,
a search or an addition alone, or an assignment through the `k`th pointer that was returned. -/
inductive P2PAction where
  | call (call : P2PCall)
  | find (id : CString)
  | add (id : CString)
  | findAddr (sender : SockAddrIn)
  | assign (k : ℕ) (a : Assignment)

/-- The threads after a step. -/
def threadStep (w : P2PThreads) (l : Env × P2PAction) : P2PThreads :=
  match l.2 with
  | .call call => { w with node := p2pStep w.node (l.1, call) }
  | .find id =>
    match findPeer id w.node.peers with
    | none => w
    | some c => w.hold c (.of id)
  | .add id =>
    match addPeer l.1 id w.node.peers w.node.shared with
    | none => w
    | some (c, sh) =>
      let node := { w.node with peers := c.toList, shared := sh }
      { w with node := node }.hold c (.of id)
  | .findAddr sender =>
    match findAddr sender w.node.peers with
    | none => w
    | some c => w.hold c c.val.id
  | .assign k a =>
    match w.held[k]? with
    | none => w
    | some ptr =>
      let node := { w.node with peers := w.node.peers.modify ptr.index fun p => p.assign a }
      { w with node := node }

/-! ## Steps -/

theorem threadStep_extends (w : P2PThreads) (l : Env × P2PAction) :
    Extends w.node.peers (threadStep w l).node.peers := by
  obtain ⟨env, action⟩ := l
  unfold threadStep
  cases action with
  | call call => exact (p2pStep_rewrites w.node (env, call)).extends
  | find id =>
    dsimp only
    cases findPeer id w.node.peers <;> exact .refl _
  | add id =>
    dsimp only
    cases added : addPeer env id w.node.peers w.node.shared with
    | none => exact .refl _
    | some r => exact .add added
  | findAddr sender =>
    dsimp only
    cases findAddr sender w.node.peers <;> exact .refl _
  | assign k a =>
    dsimp only
    cases w.held[k]? with
    | none => exact .refl _
    | some ptr => exact .modify ptr.index a

/-- A pointer that is returned is to the record of the peer. -/
theorem denotes_hold {w : P2PThreads} {c : Cursor P2PPeer} {id : NormId} (list : c.toList = w.node.peers)
    (same : c.val.id = id) (h : ∀ ptr ∈ w.held, ptr.Denotes w.node.peers) :
    ∀ ptr ∈ (w.hold c id).held, ptr.Denotes (w.hold c id).node.peers := by
  intro ptr held
  rcases List.mem_append.1 held with held | new
  · exact h ptr held
  · rw [List.mem_singleton.1 new]
    refine ⟨c.val, ?_, same⟩
    show w.node.peers[c.before.length]? = some c.val
    rw [← list, Cursor.getElem?_toList]

theorem threadStep_denotes {w : P2PThreads} (l : Env × P2PAction)
    (h : ∀ ptr ∈ w.held, ptr.Denotes w.node.peers) :
    ∀ ptr ∈ (threadStep w l).held, ptr.Denotes (threadStep w l).node.peers := by
  obtain ⟨env, action⟩ := l
  unfold threadStep
  cases action with
  | call call => exact fun ptr held => (h ptr held).extend (p2pStep_rewrites w.node (env, call)).extends
  | find id =>
    dsimp only
    cases found : findPeer id w.node.peers with
    | none => exact h
    | some c =>
      obtain ⟨list, hit, -⟩ := Cursor.find_eq_some found
      exact denotes_hold list (isSameId_val_iff.1 hit) h
  | add id =>
    dsimp only
    cases added : addPeer env id w.node.peers w.node.shared with
    | none => exact h
    | some r =>
      obtain ⟨c, sh⟩ := r
      have named : c.val.id = NormId.of id := by
        rcases addPeer_cases added with ⟨found, -⟩ | ⟨-, rfl, -⟩
        · exact isSameId_val_iff.1 (Cursor.find_eq_some found).2.1
        · rfl
      exact denotes_hold rfl named fun ptr held => (h ptr held).extend (.add added)
  | findAddr sender =>
    dsimp only
    cases found : findAddr sender w.node.peers with
    | none => exact h
    | some c => exact denotes_hold (Cursor.toList_of_find found) rfl h
  | assign k a =>
    dsimp only
    cases w.held[k]? with
    | none => exact h
    | some ptr => exact fun ptr' held => (h ptr' held).extend (.modify ptr.index a)

/-! ## Runs -/

/-- Between `p2p_init` and `p2p_cleanup`, whatever is called, received and assigned in any order and by
any number of threads: the ids of the table are different normal forms and fit the table; from any moment
to any later one the table does not get shorter and no index gets another id; a search finds the only
record with the id or there is none; and a pointer that was returned is still one to the record of its
peer. -/
theorem peer_records_never_move (before after : List (Env × P2PAction)) :
    let w := History.run threadStep P2PThreads.init before
    let w' := History.run threadStep w after
    ((w.node.peers.map P2PPeer.id).Nodup ∧ w.node.peers.length ≤ p2pMaxPeers ∧
      ∀ p ∈ w.node.peers, 60 ∉ p.id.val ∧ 62 ∉ p.id.val ∧ p.id.val.length ≤ 63) ∧
    (w.node.peers.length ≤ w'.node.peers.length ∧
      ∀ (i : ℕ) (p : P2PPeer), w.node.peers[i]? = some p →
        ∃ p' : P2PPeer, w'.node.peers[i]? = some p' ∧ p'.id = p.id) ∧
    (∀ x, FindsOnly x w.node.peers) ∧
    ∀ ptr ∈ w.held, ptr.Denotes w'.node.peers := by
  intro w w'
  have always {start : P2PThreads} {ls : List (Env × P2PAction)} :
      History.Meets threadStep (fun _ _ => True) start ls :=
    History.meets_of_forall fun _ _ => trivial
  have empty : TableInv P2PThreads.init.node.peers := ⟨List.nodup_nil, Nat.zero_le _⟩
  have inv : TableInv w.node.peers :=
    History.run_invariant (fun w : P2PThreads => TableInv w.node.peers)
      (fun w l inv _ => (threadStep_extends w l).inv inv) empty always
  have denotes : ∀ ptr ∈ w.held, ptr.Denotes w.node.peers :=
    History.run_invariant (fun w : P2PThreads => ∀ ptr ∈ w.held, ptr.Denotes w.node.peers)
      (fun w l h _ => threadStep_denotes l h) (by simp [P2PThreads.init]) always
  have ext : Extends w.node.peers w'.node.peers :=
    History.run_invariant (fun w' : P2PThreads => Extends w.node.peers w'.node.peers)
      (fun w' l ext _ => ext.trans (threadStep_extends w' l)) (.refl _) always
  refine ⟨⟨inv.ids, inv.room, ?_⟩, ⟨?_, fun i p hp => ext.getElem? hp⟩, inv.findsOnly, ?_⟩
  · intro p hp
    obtain ⟨open_, close⟩ := p.id.bracket_notMem
    exact ⟨open_, close, Nat.lt_succ_iff.1 p.id.length_lt⟩
  · have length := ext.ids.length_le
    rw [List.length_map, List.length_map] at length
    exact length
  · intro ptr held
    exact (denotes ptr held).extend ext

/-- While a thread holds a pointer to `bob`, `alice` comes and a forger takes the record over; what the
thread assigns then is still assigned to the record of `bob`. -/
example :
    let w := History.run threadStep P2PThreads.init
      [(reachesBob, .find (ascii "bob")), (reachesBob, .add (ascii "<bob>")),
        (reachesBob, .add (ascii "alice")),
        (reachesBob, .call (.datagram malloryAddr forgedHandshake 37)),
        (reachesBob, .assign 0 (.state .established))]
    w.held.map (fun ptr => (ptr.index, ptr.id.val)) = [(0, ascii "bob"), (1, ascii "alice")] ∧
      w.node.peers.map (fun p => (p.id.val, p.port, p.state)) =
        [(ascii "bob", 6666, .established), (ascii "alice", 0, .disconnected)] := by
  decide

end Orcashi
