import Orcashi.Daemon
import Orcashi.ReceiveGate

/-!
# Ghost messages and what was sent

A ghost message should be marked delivered only after its text was sent to its recipient.  Marking
is done by `state_deliver_ghost_messages` alone, which sends nothing; so the property of a whole run
rests on what had been sent before each delivery.
-/

namespace Orcashi

open CMemory

/-! ## The property -/

/-- The effect is a successful send of the text of the message to its recipient. -/
def Effect.carries (gm : GhostMessage) : Effect → Bool
  | .sent id text => isSameId gm.toId id && text == gm.message
  | _ => false

/-- The text of the message was sent to its recipient. -/
def WasSent (t : List Effect) (gm : GhostMessage) : Prop := ∃ e ∈ t, e.carries gm = true

instance (t : List Effect) (gm : GhostMessage) : Decidable (WasSent t gm) :=
  inferInstanceAs (Decidable (∃ e ∈ t, e.carries gm = true))

/-- Every message marked delivered was sent. -/
def DeliveredSent (sh : Shared) : Prop :=
  ∀ gm ∈ sh.sm.ghosts, gm.delivered = true → WasSent sh.trace gm

theorem WasSent.mono {t t' : List Effect} {gm : GhostMessage} (h : WasSent t gm) (ht : t <+: t') :
    WasSent t' gm := by
  obtain ⟨e, he, carries⟩ := h
  exact ⟨e, ht.subset he, carries⟩

/-! ## Steps that deliver nothing -/

/-- The ghost messages stay as they are and the history is extended. -/
structure Quiet (sh sh' : Shared) : Prop where
  ghosts : sh'.sm.ghosts = sh.sm.ghosts
  trace : sh.trace <+: sh'.trace

namespace Quiet

variable {a b c : Shared}

theorem refl (sh : Shared) : Quiet sh sh := ⟨rfl, List.prefix_rfl⟩

theorem trans (hab : Quiet a b) (hbc : Quiet b c) : Quiet a c :=
  ⟨hbc.ghosts.trans hab.ghosts, hab.trace.trans hbc.trace⟩

theorem record (h : Quiet a b) (es : List Effect) : Quiet a (b.record es) :=
  ⟨h.ghosts, h.trace.trans (List.prefix_append _ _)⟩

theorem onStore (h : Quiet a b) {f : Store → Store}
    (ghosts : (f b.toStore).sm.ghosts = b.sm.ghosts) : Quiet a (b.onStore f) :=
  ⟨ghosts.trans h.ghosts, h.trace⟩

end Quiet

theorem sendMessage_quiet (env : Env) (p : P2PPeer) (type : P2PMessageType) (payload : Bytes)
    (sh : Shared) : Quiet sh (sendMessage env p type payload sh).shared := by
  rcases sendMessage_cases env p type payload sh with h | ⟨-, h⟩ <;> rw [h]
  · exact .refl sh
  · exact (Quiet.refl sh).record _

theorem sendHandshake_quiet (env : Env) (p : P2PPeer) (sh : Shared) :
    Quiet sh (sendHandshake env p sh).shared := by
  unfold sendHandshake
  cases env.identity with
  | none => exact .refl sh
  | some identity =>
    dsimp only
    cases env.crypto.rsaSignString (handshakeData identity.id identity.name identity.publicKey env.now)
      identity.privateKeyEncrypted with
    | none => exact .refl sh
    | some signature => exact sendMessage_quiet env p _ _ sh

theorem connectPeer_quiet (env : Env) (ip : IpText) (port : ℤ) (p : P2PPeer) (sh : Shared) :
    Quiet sh (connectPeer env ip port p sh).shared := by
  unfold connectPeer abandonConnect
  dsimp only
  split_ifs
  · exact (Quiet.refl sh).record _
  · exact ((Quiet.refl sh).record _).record _
  · exact (((Quiet.refl sh).record _).trans (sendHandshake_quiet env _ _)).record _
  · exact ((Quiet.refl sh).record _).trans (sendHandshake_quiet env _ _)

theorem acceptPeer_quiet (env : Env) (p : P2PPeer) (sh : Shared) :
    Quiet sh (acceptPeer env p sh).shared := by
  unfold acceptPeer
  split_ifs
  · exact .refl sh
  rcases establishSecureChannel_cases env p sh with
    ⟨-, h⟩ | ⟨sharedSecret, aesKey, -, h | ⟨datagram, h⟩⟩ <;> rw [h]
  · exact .refl sh
  · exact (Quiet.refl sh).record _
  · dsimp only
    rw [if_neg (by decide)]
    dsimp only
    refine Quiet.onStore (((Quiet.refl sh).record _).record _) ?_
    simp

theorem disconnectPeer_quiet (env : Env) (p : P2PPeer) (sh : Shared) :
    Quiet sh (disconnectPeer env p sh).shared := by
  unfold disconnectPeer
  dsimp only
  split_ifs
  · refine Quiet.onStore (((sendMessage_quiet env p .close [0] sh).record _).record _) ?_
    simp
  · refine Quiet.onStore ((Quiet.refl sh).record _) ?_
    simp

theorem sendSecure_quiet (env : Env) (p : P2PPeer) (data : Bytes) (sh : Shared) :
    Quiet sh (sendSecure env p data sh).shared := by
  unfold sendSecure
  split_ifs
  · exact .refl sh
  · cases env.crypto.aesGcmEncrypt data p.aesKey env.nonce with
    | none => exact .refl sh
    | some sealed =>
      dsimp only
      have sent := sendMessage_quiet env p .data (env.nonce ++ sealed.1 ++ sealed.2) sh
      split_ifs
      · exact sent
      · exact sent.record _

theorem keepalivePeer_quiet (env : Env) (p : P2PPeer) (sh : Shared) :
    Quiet sh (keepalivePeer env p sh).shared := by
  rcases keepalivePeer_cases env p sh with ⟨-, h⟩ | ⟨-, h | h⟩ <;> rw [h]
  · refine Quiet.onStore ((Quiet.refl sh).record _) ?_
    simp [goOffline]
  · exact .refl sh
  · exact (Quiet.refl sh).record _

theorem keepaliveLoop_quiet (env : Env) (peers : List P2PPeer) :
    ∀ sh, Quiet sh (keepaliveLoop env peers sh).2 := by
  induction peers with
  | nil => exact Quiet.refl
  | cons p peers ih =>
    intro sh
    exact (keepalivePeer_quiet env p sh).trans (ih _)

theorem handleHandshake_quiet (env : Env) (p : P2PPeer) (msg : P2PMessage) (sh : Shared) :
    Quiet sh (handleHandshake env p msg sh).shared := by
  obtain ⟨es, -, ⟨-, h⟩ | ⟨id, pubkey, signature, identity, -, -, h⟩⟩ :=
    handleHandshake_cases env p msg sh <;> rw [h]
  · exact (Quiet.refl sh).record es
  · have parsed := (Quiet.refl sh).record es
    rcases acceptHandshake_cases env p identity id pubkey signature (sh.record es) with
      ⟨-, h⟩ | ⟨-, ⟨-, h⟩ | ⟨sharedSecret, aesKey, -, h | ⟨datagram, h⟩⟩⟩ <;> rw [h]
    · exact parsed
    · exact parsed.record _
    · exact (parsed.record _).record _
    · refine Quiet.onStore (((parsed.record _).record _).record _) ?_
      simp [announceFriend]

theorem handleData_quiet (env : Env) (p : P2PPeer) (msg : P2PMessage) (sh : Shared) :
    Quiet sh (handleData env p msg sh).shared := by
  have received : ∀ text (s : Shared), Quiet sh s → Quiet sh (receiveText env p text s) := by
    intro text s h
    unfold receiveText
    dsimp only
    refine Quiet.onStore (h.record _) ?_
    simp
  unfold handleData
  split_ifs
  · cases openPayload env p msg with
    | none => exact (Quiet.refl sh).record _
    | some plaintext => exact received _ _ ((Quiet.refl sh).record _)
  · exact received _ _ ((Quiet.refl sh).record _)

/-! ## Steps that deliver to one recipient -/

/-- A message afterwards was there before, or is new, or was delivered to one of the recipients. -/
structure Marks (ids : Option CString) (sh sh' : Shared) : Prop where
  ghosts : ∀ gm ∈ sh'.sm.ghosts, gm ∈ sh.sm.ghosts ∨ gm.delivered = false ∨
    ∃ id ∈ ids, ∃ gm₀ ∈ sh.sm.ghosts, deliverable id gm₀ = true ∧
      gm.toId = gm₀.toId ∧ gm.message = gm₀.message
  trace : sh.trace <+: sh'.trace

theorem Quiet.marks {ids : Option CString} {a b : Shared} (h : Quiet a b) : Marks ids a b :=
  ⟨fun _ hgm => Or.inl (h.ghosts ▸ hgm), h.trace⟩

/-- A delivery between steps that deliver nothing. -/
theorem Marks.deliver {now : Time} {id : CString} {a b c : Shared} (before : Quiet a b)
    (after : Quiet (b.onStore fun s => s.deliver now id) c) : Marks (some id) a c := by
  refine ⟨?_, before.trace.trans after.trace⟩
  intro gm hgm
  rw [after.ghosts] at hgm
  rcases mem_deliver_ghosts hgm with h | ⟨gm₀, hgm₀, due, rfl⟩
  · exact Or.inl (before.ghosts ▸ h)
  · exact Or.inr (Or.inr ⟨id, rfl, gm₀, before.ghosts ▸ hgm₀, due, rfl, rfl⟩)

/-- A message is stored undelivered. -/
theorem stateAddGhostMessage_mem {now : Time} {rand : ℕ} {toId message : CString} {sm : StateManager}
    {gm : GhostMessage} (h : gm ∈ (stateAddGhostMessage now rand toId message sm).2.ghosts) :
    gm ∈ sm.ghosts ∨ gm.delivered = false := by
  unfold stateAddGhostMessage at h
  dsimp only at h
  split_ifs at h
  · exact Or.inl h
  · exact Or.inl h
  · rcases List.mem_append.1 h with h | h
    · exact Or.inl h
    · rw [List.mem_singleton.1 h]
      exact Or.inr rfl

/-- The recipient an event makes its handler deliver to. -/
def Event.recipient (ev : Event) : Option CString :=
  match ev.type with
  | .acceptConfirm => some ev.fromId
  | .peerOnline => some ev.peerId
  | _ => none

theorem eventProcess_marks (now : Time) (ev : Event) (sh : Shared) :
    Marks ev.recipient sh (sh.onStore fun s => (eventProcess now ev s).2) := by
  have silent : ∀ f : Store → Store, (f sh.toStore).sm.ghosts = sh.sm.ghosts →
      Marks none sh (sh.onStore f) := fun f h => ((Quiet.refl sh).onStore h).marks
  unfold eventProcess Event.recipient
  cases ev.type with
  | addRequest => exact silent _ (by simp [eventHandleAddRequest])
  | acceptConfirm =>
    have before : Quiet sh (sh.onStore fun s =>
        s |>.call (stateUpdatePeer now ev.fromId .friend)
          |>.call (stateSetOnline now ev.fromId true)
          |>.call (stateSetIp ev.fromId ev.ip)
          |>.call (stateSetPort ev.fromId ev.port)) := by
      refine Quiet.onStore (.refl sh) ?_
      simp
    exact .deliver before (.refl _)
  | rejectConfirm => exact silent _ (by simp [eventHandleRejectConfirm])
  | messageReceived =>
    refine silent _ ?_
    simp [eventHandleMessageReceived, stateUpdateLastSeen]
  | peerOnline =>
    have before : Quiet sh (sh.onStore fun s =>
        s |>.call (stateSetOnline now ev.peerId true)
          |>.call (stateSetIp ev.peerId ev.ip)
          |>.call (stateSetPort ev.peerId ev.port)) := by
      refine Quiet.onStore (.refl sh) ?_
      simp
    exact .deliver before (.refl _)
  | peerOffline => exact silent _ (by simp [eventHandlePeerOffline])
  | statusUpdate =>
    refine silent _ ?_
    unfold eventHandleStatusUpdate
    split_ifs <;> simp [stateSetSecure]
  | dhtFound => exact silent _ (by simp [eventHandleDhtFound])
  | dhtNotFound => exact silent _ (by simp [eventHandleDhtNotFound])
  | ghostDelivered => exact silent _ rfl
  | error => exact silent _ rfl
  | none => exact silent _ rfl

/-- The recipient a message makes its handler deliver to. -/
def P2PMessage.recipient (msg : P2PMessage) (msgLen : ℕ) : Option CString :=
  if headerOk msg msgLen = true ∧ P2PMessageType.ofCode msg.type = some .acceptConfirm then
    some (payloadText msg)
  else none

theorem processMessage_marks (env : Env) (p : P2PPeer) (msg : P2PMessage) (msgLen : ℕ) (sh : Shared) :
    Marks (msg.recipient msgLen) sh (processMessage env p msg msgLen sh).shared := by
  by_cases header : headerOk msg msgLen = true
  swap
  · rw [processMessage_rejected header]
    exact (Quiet.refl sh).marks
  rw [processMessage_accepted header]
  have text := (Quiet.refl sh).record (textEffects msg)
  unfold dispatch
  cases type : P2PMessageType.ofCode msg.type with
  | none => exact (Quiet.refl sh).marks
  | some type' =>
    cases type' with
    | handshake => exact (handleHandshake_quiet env p msg sh).marks
    | handshakeResponse => exact (Quiet.refl sh).marks
    | data => exact (handleData_quiet env p msg sh).marks
    | keepalive => exact (Quiet.refl sh).marks
    | close => exact ((Quiet.refl sh).record _).marks
    | addRequest =>
      refine Quiet.marks ?_
      dsimp only [handleAddRequest]
      refine Quiet.onStore ((Quiet.refl sh).record _) ?_
      simp
    | acceptConfirm =>
      have before : Quiet sh ((sh.record (textEffects msg)).onStore fun s =>
          s |>.call (stateUpdatePeer env.now (payloadText msg) .friend)
            |>.call (stateSetOnline env.now (payloadText msg) true)
            |>.call (stateSetIp (payloadText msg) p.ip.val)
            |>.call (stateSetPort (payloadText msg) p.port)) := by
        refine Quiet.onStore text ?_
        simp
      have recipient : msg.recipient msgLen = some (payloadText msg) := if_pos ⟨header, type⟩
      rw [recipient]
      exact .deliver before ⟨rfl, List.prefix_rfl⟩
    | rejectConfirm =>
      refine Quiet.marks ?_
      dsimp only [handleRejectConfirm]
      refine Quiet.onStore text ?_
      simp

theorem addPeer_quiet {env : Env} {id : CString} {peers : List P2PPeer} {sh sh' : Shared}
    {c : Cursor P2PPeer} (h : addPeer env id peers sh = some (c, sh')) : Quiet sh sh' := by
  rcases addPeer_cases h with ⟨-, rfl⟩ | ⟨-, -, rfl⟩
  · exact .refl _
  · exact (Quiet.refl _).record _

theorem listenerHandshake_quiet (env : Env) (sender : SockAddrIn) {msg : P2PMessage} (n : ℕ)
    (node : Node) (type : msg.type = P2PMessageType.handshake.code) :
    Quiet node.shared (listenerHandshake env sender msg n node).2.shared := by
  unfold listenerHandshake
  cases strchr msg.payload 0 separator with
  | none => exact (Quiet.refl node.shared).record _
  | some bar =>
    have parsed := ((Quiet.refl node.shared).record [loadField msg.payload 0]).record
      [.store bar, loadStr (msg.payload.set bar 0) 0]
    dsimp only
    cases added : addPeer env (strAt (msg.payload.set bar 0) 0) node.peers
        ((node.shared.record [loadField msg.payload 0]).record
          [.store bar, loadStr (msg.payload.set bar 0) 0]) with
    | none => exact parsed
    | some r =>
      obtain ⟨c, sh⟩ := r
      refine ((parsed.trans (addPeer_quiet added)).record
        [.copy inetAddrStrLen sender.ip.val.length]).trans ?_
      dsimp only [Node.write]
      have cut : ({ msg with payload := msg.payload.set bar 0 } : P2PMessage).type =
          P2PMessageType.handshake.code := type
      rcases processMessage_handshake cut env (handshakeFrom env sender c.val) n
        (sh.record [.copy inetAddrStrLen sender.ip.val.length]) with h | h <;> rw [h]
      · exact .refl _
      · exact handleHandshake_quiet env _ _ _

/-! ## Steps of the daemon -/

/-- The recipient a step of the P2P manager delivers to: a datagram from a known address does, if its
message does. -/
def P2PCall.recipient (node : Node) : P2PCall → Option CString
  | .datagram sender buffer n =>
    if (findAddr sender node.peers).isSome then (P2PMessage.ofBuffer buffer).recipient n else none
  | _ => none

theorem P2PCall.Works.quiet {env : Env} {call : P2PCall} {p : P2PPeer} {sh : Shared} {h : Handled}
    (works : call.Works env p sh h) : Quiet sh h.shared := by
  cases works with
  | connect peerId ip port => exact connectPeer_quiet env ip port p sh
  | accept => exact acceptPeer_quiet env p sh
  | disconnect => exact disconnectPeer_quiet env p sh
  | send peerId message => exact sendMessage_quiet env p .data message sh
  | sendSealed peerId message => exact sendSecure_quiet env p message sh
  | sendSecure peerId data => exact sendSecure_quiet env p data sh

/-- The call is a datagram that comes in. -/
def P2PCall.isDatagram : P2PCall → Bool
  | .datagram _ _ _ => true
  | _ => false

/-- Only a datagram can deliver. -/
theorem p2pCall_quiet (env : Env) (call : P2PCall) (own : call.isDatagram = false) (node : Node) :
    Quiet node.shared (call.step env node).shared := by
  have outcome := call.step_outcome env node
  generalize call.step env node = after at outcome ⊢
  cases outcome with
  | nothing => exact .refl node.shared
  | found found works => exact works.quiet
  | added added works => exact (addPeer_quiet added).trans works.quiet
  | datagram => cases own
  | handshake => cases own
  | keepalive => exact keepaliveLoop_quiet env node.peers node.shared

theorem p2pCall_marks (env : Env) (call : P2PCall) (node : Node) :
    Marks (call.recipient node) node.shared (call.step env node).shared := by
  cases call with
  | datagram sender buffer n =>
    dsimp only [P2PCall.recipient, P2PCall.step]
    rcases listenerReceive_cases env sender buffer n node with
      h | ⟨c, found, h⟩ | ⟨found, type, h⟩ <;> rw [h]
    · exact (Quiet.refl node.shared).marks
    · rw [found]
      exact processMessage_marks env c.val _ n node.shared
    · exact (listenerHandshake_quiet env sender n node type).marks
  | connect | accept | disconnect | send | sendSecure | keepalive =>
    exact (p2pCall_quiet env _ rfl node).marks

/-- The recipient a step of the daemon delivers to. -/
def DaemonCall.recipient (node : Node) : DaemonCall → Option CString
  | .accept (some args) =>
    if (stateGetPeer (peerIdArg args) node.shared.sm).any fun p => p.state == .requestReceived then
      some (peerIdArg args)
    else none
  | .processEvent => node.shared.queue.pop.bind fun r => r.1.recipient
  | .p2p call => call.recipient node
  | _ => none

theorem daemonCmdAdd_quiet (env : Env) (args : Option CString) (node : Node) :
    Quiet node.shared (daemonCmdAdd env args node).node.shared := by
  unfold daemonCmdAdd
  cases args with
  | none => exact .refl node.shared
  | some args =>
    dsimp only
    generalize added : (if (stateGetPeer (peerIdArg args) node.shared.sm).isNone then
      node.onStore fun s => s.call (stateAddPeer env.now (peerIdArg args)) else node) = node₁
    have before : Quiet node.shared node₁.shared := by
      subst added
      split_ifs
      · exact (Quiet.refl node.shared).onStore (by simp)
      · exact .refl node.shared
    cases stateGetPeer (peerIdArg args) node₁.shared.sm with
    | none => exact before
    | some peer =>
      dsimp only
      have requested : Quiet node.shared
          (node₁.onStore fun s => s.call (stateUpdatePeer env.now (peerIdArg args) .requestSent)).shared :=
        before.onStore (by simp)
      have connected : Quiet node.shared
          (if peer.ip ≠ [] ∧ 0 < peer.port then
            p2pConnect env (peerIdArg args)
              (node₁.onStore fun s => s.call (stateUpdatePeer env.now (peerIdArg args) .requestSent))
          else (-1, node₁.onStore fun s =>
            s.call (stateUpdatePeer env.now (peerIdArg args) .requestSent))).2.shared := by
        split_ifs
        · exact requested.trans (p2pCall_quiet env (.connect (peerIdArg args)) rfl _)
        · exact requested
      by_cases friend : peer.state = .friend
      · rw [if_pos friend]
        exact before
      · rw [if_neg friend]
        exact connected

theorem daemonCmdAccept_marks (env : Env) (args : Option CString) (node : Node) :
    Marks (DaemonCall.recipient node (.accept args)) node.shared
      (daemonCmdAccept env args node).node.shared := by
  unfold daemonCmdAccept
  cases args with
  | none => exact (Quiet.refl node.shared).marks
  | some args =>
    dsimp only [DaemonCall.recipient]
    cases stateGetPeer (peerIdArg args) node.shared.sm with
    | none => exact (Quiet.refl node.shared).marks
    | some peer =>
      by_cases pending : peer.state = .requestReceived
      · have befriended : Quiet node.shared
            (node.onStore fun s => s.call (stateUpdatePeer env.now (peerIdArg args) .friend)).shared :=
          (Quiet.refl node.shared).onStore (by simp)
        have accepted : Quiet node.shared
            (if peer.ip ≠ [] ∧ 0 < peer.port then
              p2pAccept env (peerIdArg args)
                (node.onStore fun s => s.call (stateUpdatePeer env.now (peerIdArg args) .friend))
            else (0, node.onStore fun s =>
              s.call (stateUpdatePeer env.now (peerIdArg args) .friend))).2.shared := by
          split_ifs
          · exact befriended.trans (p2pCall_quiet env (.accept (peerIdArg args)) rfl _)
          · exact befriended
        simp only [Option.any_some, pending, beq_self_eq_true, if_true, ne_eq, not_true, if_false]
        exact .deliver accepted (.refl _)
      · simp only [ne_eq, pending, not_false_eq_true, if_true]
        exact (Quiet.refl node.shared).marks

theorem daemonCmdReject_quiet (args : Option CString) (node : Node) :
    Quiet node.shared (daemonCmdReject args node).node.shared := by
  unfold daemonCmdReject
  cases args with
  | none => exact .refl node.shared
  | some args =>
    dsimp only
    cases stateGetPeer (peerIdArg args) node.shared.sm with
    | none => exact .refl node.shared
    | some peer =>
      dsimp only
      split_ifs
      · exact .refl node.shared
      · exact (Quiet.refl node.shared).onStore (by simp)

theorem daemonCmdChatSend_quiet (env : Env) (args : Option CString) (node : Node) :
    Quiet node.shared (daemonCmdChatSend env args node).node.shared := by
  unfold daemonCmdChatSend
  cases args with
  | none => exact .refl node.shared
  | some args =>
    dsimp only
    cases splitArgs args with
    | none => exact .refl node.shared
    | some parts =>
      dsimp only
      split_ifs
      · exact .refl node.shared
      · exact (p2pCall_quiet env (.send parts.1 parts.2) rfl node).onStore (by simp)
      · exact p2pCall_quiet env (.send parts.1 parts.2) rfl node

theorem daemonCmdGhost_marks (env : Env) (args : Option CString) (node : Node) :
    Marks none node.shared (daemonCmdGhost env args node).node.shared := by
  unfold daemonCmdGhost
  cases args with
  | none => exact (Quiet.refl node.shared).marks
  | some args =>
    dsimp only
    cases splitArgs args with
    | none => exact (Quiet.refl node.shared).marks
    | some parts =>
      refine ⟨?_, List.prefix_rfl⟩
      intro gm hgm
      rcases stateAddGhostMessage_mem hgm with h | h
      · exact Or.inl h
      · exact Or.inr (Or.inl h)

/-- A message a step of the daemon marks is one for the recipient the step delivers to. -/
theorem daemonStep_marks (node : Node) (l : Env × DaemonCall) :
    Marks (l.2.recipient node) node.shared (daemonStep node l).shared := by
  obtain ⟨env, call⟩ := l
  unfold daemonStep
  cases call with
  | add args => exact (daemonCmdAdd_quiet env args node).marks
  | accept args => exact daemonCmdAccept_marks env args node
  | reject args => exact (daemonCmdReject_quiet args node).marks
  | chatSend args => exact (daemonCmdChatSend_quiet env args node).marks
  | ghost args => exact daemonCmdGhost_marks env args node
  | pushEvent ev => exact ((Quiet.refl node.shared).onStore rfl).marks
  | processEvent =>
    dsimp only [DaemonCall.step, DaemonCall.recipient, Node.onStore, Shared.onStore]
    unfold eventLoopStep
    cases node.shared.queue.pop with
    | none => exact (Quiet.refl node.shared).marks
    | some r =>
      have popped := eventProcess_marks env.now r.1
        { node.shared with queue := r.2 }
      exact ⟨popped.ghosts, popped.trace⟩
  | rawDatagram sender buffer => exact ((Quiet.refl node.shared).onStore rfl).marks
  | p2p call => exact p2pCall_marks env call node

/-! ## Runs -/

/-- Whatever the step delivers was sent before. -/
def DeliversSent (node : Node) (l : Env × DaemonCall) : Prop :=
  ∀ id ∈ l.2.recipient node, ∀ gm ∈ node.shared.sm.ghosts, deliverable id gm = true →
    WasSent node.shared.trace gm

instance (node : Node) (l : Env × DaemonCall) : Decidable (DeliversSent node l) :=
  inferInstanceAs (Decidable (∀ id ∈ l.2.recipient node, ∀ gm ∈ node.shared.sm.ghosts,
    deliverable id gm = true → WasSent node.shared.trace gm))

theorem WasSent.congr {t : List Effect} {gm gm₀ : GhostMessage} (h : WasSent t gm₀)
    (toId : gm.toId = gm₀.toId) (message : gm.message = gm₀.message) : WasSent t gm := by
  obtain ⟨e, he, carries⟩ := h
  refine ⟨e, he, ?_⟩
  cases e <;> simp_all [Effect.carries]

theorem daemonStep_deliveredSent {node : Node} {l : Env × DaemonCall}
    (h : DeliveredSent node.shared) (sent : DeliversSent node l) :
    DeliveredSent (daemonStep node l).shared := by
  have step := daemonStep_marks node l
  intro gm hgm delivered
  rcases step.ghosts gm hgm with old | new | ⟨id, hid, gm₀, hgm₀, due, toId, message⟩
  · exact (h gm old delivered).mono step.trace
  · rw [new] at delivered
    cases delivered
  · exact ((sent id hid gm₀ hgm₀ due).congr toId message).mono step.trace

/-- In every run whose deliveries find what they deliver already sent, a message that is marked
delivered was sent to its recipient. -/
theorem delivered_was_sent {node : Node}
    (fresh : ∀ gm ∈ node.shared.sm.ghosts, gm.delivered = false) {ls : List (Env × DaemonCall)}
    (sent : History.Meets daemonStep DeliversSent node ls) :
    ∀ gm ∈ (History.run daemonStep node ls).shared.sm.ghosts, gm.delivered = true →
      WasSent (History.run daemonStep node ls).shared.trace gm := by
  have start : DeliveredSent node.shared := by
    intro gm hgm delivered
    rw [fresh gm hgm] at delivered
    cases delivered
  exact History.run_invariant (fun node => DeliveredSent node.shared)
    (fun _ _ h hl => daemonStep_deliveredSent h hl) start sent

/-! ## A message that was sent and one that was not -/

/-- Surroundings in which `bob` is reached and texts are sent as they are. -/
def sendsBob : Env :=
  { reachesBob with
    crypto := { reachesBob.crypto with aesGcmEncrypt := fun data _ _ => some ([], data) } }

/-- A ghost message for `bob`, and his request. -/
def bobAsks : List (Env × DaemonCall) :=
  [(sendsBob, .add (some (ascii "bob"))), (sendsBob, .ghost (some (ascii "bob hi"))),
    (sendsBob, .p2p (.connect (ascii "bob"))), (sendsBob, .p2p (datagramOf .handshakeResponse [1])),
    (sendsBob, .p2p (datagramOf .addRequest (ascii "bob")))]

theorem delivered_was_sent_bob :
    let node := History.run daemonStep .init (bobAsks ++
      [(sendsBob, .p2p (.send (ascii "bob") (ascii "hi"))), (sendsBob, .accept (some (ascii "bob")))])
    node.shared.sm.ghosts.map GhostMessage.delivered = [true] ∧
      ∀ gm ∈ node.shared.sm.ghosts, gm.delivered = true → WasSent node.shared.trace gm := by
  refine ⟨by decide, delivered_was_sent (by decide) ?_⟩
  refine ⟨?_, ?_, ?_, ?_, ?_, ?_, ?_, trivial⟩ <;> decide

/-- Accepting the request of `bob` marks the message delivered and says so, and nothing with its text
was sent. -/
theorem accept_delivers_unsent :
    let node := History.run daemonStep .init bobAsks
    let r := daemonCmdAccept sendsBob (some (ascii "bob")) node
    r.response = ascii "Accepted request from bob\nPeer is offline, will connect when online\nDelivered 1 ghost messages\n" ∧
      r.node.shared.sm.ghosts.map GhostMessage.delivered = [true] ∧
      ∀ gm ∈ r.node.shared.sm.ghosts, ¬ WasSent r.node.shared.trace gm := by
  decide +kernel

end Orcashi
