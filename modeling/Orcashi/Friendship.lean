import Orcashi.Daemon
import Orcashi.StoreEffects

/-!
# Friends stay friends

Of all that can happen to a node, what takes a friend out of state FRIEND is a request in the name
of the friend, once when it arrives and once when its event is processed, and a rejection in the
friend's name.
-/

namespace Orcashi

open CMemory

/-! ## The state of a record -/

/-- There is a record of `x`, and its state is FRIEND. -/
def IsFriend (x : CString) (sm : StateManager) : Prop :=
  (stateGetPeer x sm).map Peer.state = some .friend

theorem stateIsFriend_iff {x : CString} {sm : StateManager} :
    stateIsFriend x sm = true ↔ IsFriend x sm := by
  unfold stateIsFriend IsFriend
  cases stateGetPeer x sm with
  | none => simp
  | some p => simp

namespace IsFriend

variable {x : CString} {sm : StateManager}

theorem modify (h : IsFriend x sm) (id : CString) {f : Peer → Peer} (keeps : ∀ p, (f p).id = p.id)
    (same : ∀ p, (f p).state = p.state) : IsFriend x (modifyPeer id f sm).2 := by
  unfold IsFriend
  rw [getPeer_map_modifyPeer x id keeps same]
  exact h

theorem update (h : IsFriend x sm) (now : Time) {id : CString} {st : PeerState}
    (spares : normalizeId id = normalizeId x → st = .friend) :
    IsFriend x (stateUpdatePeer now id st sm).2 := by
  unfold stateUpdatePeer IsFriend
  rw [stateGetPeer_modifyPeer x id (by intro p; rfl)]
  by_cases same : normalizeId id = normalizeId x
  · obtain ⟨p, found, -⟩ := Option.map_eq_some_iff.1 h
    rw [if_pos same, found, Option.map_some, Option.map_some, spares same]
  · rw [if_neg same]
    exact h

theorem setOnline (h : IsFriend x sm) (now : Time) (id : CString) (online : Bool) :
    IsFriend x (stateSetOnline now id online sm).2 :=
  h.modify id (by intro p; rfl) (by intro p; rfl)

theorem setIp (h : IsFriend x sm) (id ip : CString) : IsFriend x (stateSetIp id ip sm).2 :=
  h.modify id (by intro p; rfl) (by intro p; rfl)

theorem setPort (h : IsFriend x sm) (id : CString) (port : ℤ) :
    IsFriend x (stateSetPort id port sm).2 :=
  h.modify id (by intro p; rfl) (by intro p; rfl)

theorem remove (h : IsFriend x sm) {id : CString} (spares : normalizeId id ≠ normalizeId x) :
    IsFriend x (stateRemovePeer id sm).2 := by
  unfold IsFriend
  rw [stateGetPeer_removePeer spares]
  exact h

theorem add (h : IsFriend x sm) (now : Time) (id : CString) :
    IsFriend x (stateAddPeer now id sm).2 := by
  obtain ⟨p, found, state⟩ := Option.map_eq_some_iff.1 h
  unfold IsFriend
  rw [stateGetPeer_addPeer found, Option.map_some, state]

theorem deliver {s : Store} (h : IsFriend x s.sm) (now : Time) (id : CString) :
    IsFriend x (s.deliver now id).sm := by
  unfold IsFriend
  rw [getPeer_map_deliver (by intro p n; rfl)]
  exact h

theorem addGhost (h : IsFriend x sm) (now : Time) (rand : ℕ) (toId message : CString) :
    IsFriend x (stateAddGhostMessage now rand toId message sm).2 := by
  unfold IsFriend
  rw [getPeer_map_addGhost (by intro p n; rfl)]
  exact h

theorem addMessage (h : IsFriend x sm) (fromId message : CString) :
    IsFriend x (stateAddMessage fromId message sm).2 := by
  unfold IsFriend
  rw [stateGetPeer_addMessage]
  exact h

end IsFriend

/-! ## Events and messages -/

/-- An event that is neither a request nor a rejection in the name of `x`. -/
def Event.SparesFriend (x : CString) (ev : Event) : Prop :=
  ev.type = .addRequest ∨ ev.type = .rejectConfirm → normalizeId ev.fromId ≠ normalizeId x

theorem eventProcess_friend {x : CString} {ev : Event} (spares : ev.SparesFriend x) (now : Time)
    {s : Store} (h : IsFriend x s.sm) : IsFriend x (eventProcess now ev s).2.sm := by
  unfold Event.SparesFriend at spares
  unfold eventProcess
  cases ht : ev.type with
  | none | ghostDelivered | error => exact h
  | addRequest =>
    have other := spares (Or.inl ht)
    exact ((h.update now fun same => absurd same other).setIp _ _).setPort _ _
  | acceptConfirm =>
    exact ((((h.update now fun _ => rfl).setOnline now _ true).setIp _ _).setPort _ _).deliver now _
  | rejectConfirm => exact h.remove (spares (Or.inr ht))
  | messageReceived =>
    have seen : IsFriend x (stateUpdateLastSeen now ev.fromId
        (stateSetOnline now ev.fromId true s.sm).2).2 :=
      (h.setOnline now _ true).modify ev.fromId (by intro p; rfl) (by intro p; rfl)
    exact seen.addMessage _ _
  | peerOnline => exact (((h.setOnline now _ true).setIp _ _).setPort _ _).deliver now _
  | peerOffline | dhtNotFound => exact h.setOnline now _ false
  | statusUpdate =>
    apply eventHandleStatusUpdate_preserves (P := fun t => IsFriend x t.sm) _ _ _ h
    · exact fun t ht => ht.setIp ev.peerId ev.ip
    · exact fun t ht => ht.setPort ev.peerId ev.port
    · exact fun t ht => ht.modify ev.peerId (by intro p; rfl) (by intro p; rfl)
  | dhtFound => exact ((h.setIp _ _).setPort _ _).setOnline now _ true

theorem messageEffect_friend {x : CString} {env : Env} {peer : P2PPeer} {text : CString}
    {type : P2PMessageType}
    (spares : type = .addRequest ∨ type = .rejectConfirm → normalizeId text ≠ normalizeId x)
    {s : Store} (h : IsFriend x s.sm) : IsFriend x (messageEffect env peer text s type).sm := by
  cases type with
  | handshake =>
    exact (((h.update env.now fun _ => rfl).setOnline env.now _ true).setIp _ _).setPort _ _
  | handshakeResponse | keepalive | close => exact h
  | data => exact h.addMessage _ _
  | addRequest =>
    have other := spares (Or.inl rfl)
    exact ((h.update env.now fun same => absurd same other).setIp _ _).setPort _ _
  | acceptConfirm =>
    have friend : IsFriend x ((((s.call (stateUpdatePeer env.now text .friend)).call
        (stateSetOnline env.now text true)).call (stateSetIp text peer.ip.val)).call
          (stateSetPort text peer.port)).sm :=
      (((h.update env.now fun _ => rfl).setOnline env.now _ true).setIp _ _).setPort _ _
    exact friend.deliver env.now text
  | rejectConfirm => exact h.remove (spares (Or.inr rfl))

theorem p2pAccept_friend {x : CString} {node : Node} (h : IsFriend x node.shared.sm) (env : Env)
    (peerId : CString) : IsFriend x (p2pAccept env peerId node).2.shared.sm := by
  rcases p2pAccept_store env peerId node with same | ⟨c, -, store⟩
  · rw [same]
    exact h
  · rw [store]
    exact h.update env.now fun _ => rfl

/-! ## Commands -/

theorem daemonCmdAdd_friend {x : CString} {node : Node} (h : IsFriend x node.shared.sm) (env : Env)
    (args : Option CString) : IsFriend x (daemonCmdAdd env args node).node.shared.sm := by
  cases args with
  | none => exact h
  | some args =>
    unfold daemonCmdAdd
    dsimp only
    have added : IsFriend x (if (stateGetPeer (peerIdArg args) node.shared.sm).isNone then
        node.onStore fun s => s.call (stateAddPeer env.now (peerIdArg args)) else node).shared.sm := by
      split_ifs
      · exact h.add env.now _
      · exact h
    generalize (if (stateGetPeer (peerIdArg args) node.shared.sm).isNone then
      node.onStore fun s => s.call (stateAddPeer env.now (peerIdArg args)) else node) = node at added ⊢
    cases found : stateGetPeer (peerIdArg args) node.shared.sm with
    | none => exact added
    | some peer =>
      dsimp only
      by_cases already : peer.state = .friend
      · rw [if_pos already]
        exact added
      · rw [if_neg already]
        -- whoever is asked here is not a friend yet
        have other : normalizeId (peerIdArg args) ≠ normalizeId x := by
          intro same
          obtain ⟨p, hp, state⟩ := Option.map_eq_some_iff.1 added
          rw [← stateGetPeer_congr same, found] at hp
          exact already (Option.some.inj hp ▸ state)
        have asked : IsFriend x
            (stateUpdatePeer env.now (peerIdArg args) .requestSent node.shared.sm).2 :=
          added.update env.now fun same => absurd same other
        by_cases address : peer.ip ≠ [] ∧ 0 < peer.port
        · rw [if_pos address]
          show IsFriend x (p2pConnect env _ _).2.shared.sm
          rw [p2pConnect_store]
          exact asked
        · rw [if_neg address]
          exact asked

theorem daemonCmdAccept_friend {x : CString} {node : Node} (h : IsFriend x node.shared.sm)
    (env : Env) (args : Option CString) :
    IsFriend x (daemonCmdAccept env args node).node.shared.sm := by
  cases args with
  | none => exact h
  | some args =>
    unfold daemonCmdAccept
    dsimp only
    cases stateGetPeer (peerIdArg args) node.shared.sm with
    | none => exact h
    | some peer =>
      dsimp only
      by_cases pending : peer.state ≠ .requestReceived
      · rw [if_pos pending]
        exact h
      · rw [if_neg pending]
        have updated : IsFriend x
            (stateUpdatePeer env.now (peerIdArg args) .friend node.shared.sm).2 :=
          h.update env.now fun _ => rfl
        by_cases address : peer.ip ≠ [] ∧ 0 < peer.port
        · rw [if_pos address]
          exact IsFriend.deliver (p2pAccept_friend updated env _) env.now _
        · rw [if_neg address]
          exact IsFriend.deliver updated env.now _

theorem daemonCmdReject_friend {x : CString} {node : Node} (h : IsFriend x node.shared.sm)
    (args : Option CString) : IsFriend x (daemonCmdReject args node).node.shared.sm := by
  cases args with
  | none => exact h
  | some args =>
    unfold daemonCmdReject
    dsimp only
    cases found : stateGetPeer (peerIdArg args) node.shared.sm with
    | none => exact h
    | some peer =>
      dsimp only
      split_ifs with pending
      · exact h
      · apply IsFriend.remove h
        intro same
        obtain ⟨p, hp, state⟩ := Option.map_eq_some_iff.1 h
        rw [← stateGetPeer_congr same, found] at hp
        obtain rfl := Option.some.inj hp
        exact pending (by rw [state]; decide)

theorem daemonCmdChatSend_friend {x : CString} {node : Node} (h : IsFriend x node.shared.sm)
    (env : Env) (args : Option CString) :
    IsFriend x (daemonCmdChatSend env args node).node.shared.sm := by
  cases args with
  | none => exact h
  | some args =>
    unfold daemonCmdChatSend
    dsimp only
    cases splitArgs args with
    | none => exact h
    | some parts =>
      have sent : IsFriend x (p2pSend env parts.1 parts.2 node).2.shared.sm := by
        rw [p2pSend_store]
        exact h
      dsimp only
      split_ifs
      · exact h
      · exact sent.addMessage _ _
      · exact sent

theorem daemonCmdGhost_friend {x : CString} {node : Node} (h : IsFriend x node.shared.sm)
    (env : Env) (args : Option CString) :
    IsFriend x (daemonCmdGhost env args node).node.shared.sm := by
  cases args with
  | none => exact h
  | some args =>
    unfold daemonCmdGhost
    dsimp only
    cases splitArgs args with
    | none => exact h
    | some parts => exact h.addGhost env.now env.rand _ _

theorem daemonCmdSearch_friend {x : CString} {node : Node} (h : IsFriend x node.shared.sm)
    (env : Env) (dht : Option (CString → Option (IpText × ℤ))) (args : Option CString) :
    IsFriend x (daemonCmdSearch env dht args node).node.shared.sm := by
  cases args with
  | none => exact h
  | some args =>
    cases dht with
    | none => exact h
    | some lookup =>
      unfold daemonCmdSearch
      dsimp only
      cases lookup (peerIdArg args) with
      | none => exact h.setOnline env.now _ false
      | some place => exact ((h.setIp _ _).setPort _ _).setOnline env.now _ true

/-! ## Runs -/

/-- The step handles no request and no rejection in the name of `x`: no such message arrives from a
known address, and no such event is taken from the queue. -/
def Spares (x : CString) (node : Node) (l : Env × NodeCall) : Prop :=
  match l.2 with
  | .daemon (.p2p (.datagram sender buffer n)) =>
    findAddr sender node.peers ≠ none → headerOk (P2PMessage.ofBuffer buffer) n = true →
      ((P2PMessage.ofBuffer buffer).type = P2PMessageType.addRequest.code ∨
        (P2PMessage.ofBuffer buffer).type = P2PMessageType.rejectConfirm.code) →
      normalizeId (payloadText (P2PMessage.ofBuffer buffer)) ≠ normalizeId x
  | .daemon .processEvent => ∀ ev ∈ node.shared.queue.toList.head?, ev.SparesFriend x
  | _ => True

theorem p2pStep_friend {x : CString} {node : Node} (h : IsFriend x node.shared.sm) {env : Env}
    {call : P2PCall} (spares : Spares x node (env, .daemon (.p2p call))) :
    IsFriend x (call.step env node).shared.sm := by
  show IsFriend x (call.step env node).shared.toStore.sm
  rcases p2pStep_store node env call with
    ⟨-, store⟩ | ⟨-, a, arrived, store⟩ | ⟨-, -, id, store⟩ <;> rw [store]
  · apply List.foldlRecOn (motive := fun s : Store => IsFriend x s.sm)
    · exact h
    · exact fun s hs id _ => hs.setOnline env.now id.val false
  · obtain ⟨sender, buffer, n, rfl, accepts, text⟩ := accepts_of_arrival arrived
    obtain ⟨c, found, -⟩ := accepts.found
    have known : findAddr sender node.peers ≠ none := by
      rw [found]
      exact Option.some_ne_none c
    have code := accepts.type
    apply messageEffect_friend _ h
    rintro (request | rejection)
    · rw [request] at code text
      rw [text]
      exact spares known accepts.header (Or.inl code)
    · rw [rejection] at code text
      rw [text]
      exact spares known accepts.header (Or.inr code)
  · exact h.update env.now fun _ => rfl

theorem nodeStep_friend {x : CString} {node : Node} (h : IsFriend x node.shared.sm)
    {l : Env × NodeCall} (spares : Spares x node l) : IsFriend x (nodeStep node l).shared.sm := by
  obtain ⟨env, call⟩ := l
  cases call with
  | search dht args => exact daemonCmdSearch_friend h env dht args
  | daemon call =>
    cases call with
    | add args => exact daemonCmdAdd_friend h env args
    | accept args => exact daemonCmdAccept_friend h env args
    | reject args => exact daemonCmdReject_friend h args
    | chatSend args => exact daemonCmdChatSend_friend h env args
    | ghost args => exact daemonCmdGhost_friend h env args
    | pushEvent ev => exact h
    | rawDatagram sender buffer => exact h
    | p2p call => exact p2pStep_friend h spares
    | processEvent =>
      show IsFriend x (eventLoopStep env.now node.shared.toStore).sm
      unfold eventLoopStep
      cases pop : node.shared.queue.pop with
      | none => exact h
      | some r =>
        have head : node.shared.queue.toList.head? = some r.1 := by
          rw [RingBuffer.toList_pop pop]
          rfl
        have own : IsFriend x (Store.mk node.shared.sm r.2).sm := h
        exact eventProcess_friend (spares r.1 head) env.now own

/-- In every run without requests and rejections in the name of a friend, the friend stays in state
FRIEND. -/
theorem friend_stable {x : CString} {node : Node} (start : stateIsFriend x node.shared.sm = true)
    {ls : List (Env × NodeCall)} (spares : History.Meets nodeStep (Spares x) node ls) :
    stateIsFriend x (History.run nodeStep node ls).shared.sm = true := by
  rw [stateIsFriend_iff] at start ⊢
  exact History.run_invariant (fun node => IsFriend x node.shared.sm)
    (fun _ _ h meets => nodeStep_friend h meets) start spares

/-- `bob` is asked, reached, asks back and is accepted. -/
def bobAccepted : Node :=
  History.run nodeStep .init
    [(reachesBob, .daemon (.add (some (ascii "bob")))),
      (reachesBob, .daemon (.p2p (.connect (ascii "bob")))),
      (reachesBob, .daemon (.p2p (datagramOf .handshakeResponse [1]))),
      (reachesBob, .daemon (.p2p (datagramOf .addRequest (ascii "bob")))),
      (reachesBob, .daemon (.accept (some (ascii "bob"))))]

theorem friend_stable_bob :
    stateIsFriend (ascii "bob") (History.run nodeStep bobAccepted
      [(reachesBob, .daemon (.p2p (datagramOf .keepalive [0]))),
        (reachesBob, .search (some fun _ => none) (some (ascii "bob"))),
        (reachesBob, .daemon (.p2p (.disconnect (ascii "bob"))))]).shared.sm = true := by
  apply friend_stable
  · decide
  · refine ⟨?_, trivial, trivial, trivial⟩
    intro _ _ request
    exact absurd request (by decide)

/-- The event of the request that was accepted takes the friend back to a request, and so does another
request. -/
theorem request_unfriends :
    stateIsFriend (ascii "bob") bobAccepted.shared.sm = true ∧
      stateGetState (ascii "bob")
        (nodeStep bobAccepted (reachesBob, .daemon .processEvent)).shared.sm = .requestReceived ∧
      stateGetState (ascii "bob") (nodeStep bobAccepted
        (reachesBob, .daemon (.p2p (datagramOf .addRequest (ascii "bob"))))).shared.sm =
          .requestReceived := by
  decide

end Orcashi
