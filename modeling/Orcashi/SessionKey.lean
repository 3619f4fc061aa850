import Orcashi.FailedHandshake

/-!
# Session keys

A record that is ESTABLISHED and secure should hold a session key that `generate_session_keys` wrote
for it since it was last DISCONNECTED.  The history decides it: some key of the record is in the
trace, it is the one the record holds, and no key and no DISCONNECTED of that record came after.

Every call preserves this, and so does every message but one: HANDSHAKE_RESPONSE establishes the
session without looking at the key.
-/

namespace Orcashi

open CMemory History

/-! ## Sessions in the history -/

/-- The peer whose session an effect starts or ends. -/
def Effect.session : Effect → Option NormId
  | .keyed id _ => some id
  | .disconnected id => some id
  | _ => none

/-- The key of the record was generated for it since it was last DISCONNECTED. -/
def HasSessionKey (t : List Effect) (p : P2PPeer) : Prop :=
  Since (fun e => e = .keyed p.id p.aesKey) (fun e => e.session = some p.id) t

/-- What an ESTABLISHED record satisfies. -/
def Sound (t : List Effect) (p : P2PPeer) : Prop :=
  p.state = .established → p.isSecure = true ∧ HasSessionKey t p

theorem sound_of_not_established {t : List Effect} {p : P2PPeer} (h : p.state ≠ .established) :
    Sound t p :=
  fun he => absurd he h

theorem hasSessionKey_keyed {t u : List Effect} {p : P2PPeer} (quiet : ∀ e ∈ u, e.session = none) :
    HasSessionKey (t ++ .keyed p.id p.aesKey :: u) p := by
  refine Since.prepend (since_cons rfl ?_)
  intro e he
  simp [quiet e he]

/-- What other peers do does not matter. -/
theorem Sound.extend {t u : List Effect} {p : P2PPeer} (h : Sound t p)
    (others : ∀ e ∈ u, e.session ≠ some p.id) : Sound (t ++ u) p :=
  fun he => ⟨(h he).1, (h he).2.append others⟩

/-! ## Steps on one record -/

/-- A step on the record `p` with the history `t` keeps its id, starts and ends no session but its
own, and leaves it as sound as it was. -/
structure Keeps (p : P2PPeer) (t : List Effect) (p' : P2PPeer) (t' : List Effect) : Prop where
  id : p'.id = p.id
  history : ∃ u, t' = t ++ u ∧ ∀ e ∈ u, e.session = none ∨ e.session = some p.id
  sound : Sound t p → Sound t' p'

namespace Keeps

variable {p q r : P2PPeer} {t u v : List Effect}

theorem refl (p : P2PPeer) (t : List Effect) : Keeps p t p t where
  id := rfl
  history := ⟨[], by simp, by simp⟩
  sound h := h

theorem trans (hpq : Keeps p t q u) (hqr : Keeps q u r v) : Keeps p t r v := by
  obtain ⟨w, rfl, hw⟩ := hpq.history
  obtain ⟨w', rfl, hw'⟩ := hqr.history
  refine ⟨hqr.id.trans hpq.id, ⟨w ++ w', List.append_assoc _ _ _, ?_⟩, fun h => hqr.sound (hpq.sound h)⟩
  intro e he
  rcases List.mem_append.1 he with he | he
  · exact hw e he
  · rw [← hpq.id]
    exact hw' e he

/-- A step that touches neither state nor key, and may secure the record. -/
theorem of_quiet (id : q.id = p.id) (state : q.state = p.state)
    (secure : q.isSecure = p.isSecure ∨ q.isSecure = true) (key : q.aesKey = p.aesKey)
    (quiet : ∀ e ∈ u, e.session = none) : Keeps p t q (t ++ u) := by
  refine ⟨id, ⟨u, rfl, fun e he => Or.inl (quiet e he)⟩, ?_⟩
  intro h he
  have before := h (state ▸ he)
  refine ⟨?_, ?_⟩
  · rcases secure with secure | secure
    · rw [secure]
      exact before.1
    · exact secure
  · unfold HasSessionKey
    rw [id, key]
    refine before.2.append ?_
    intro e he'
    simp [quiet e he']

/-- A step that leaves the record in another state than ESTABLISHED. -/
theorem of_closed (id : q.id = p.id) (closed : q.state ≠ .established)
    (own : ∀ e ∈ u, e.session = none ∨ e.session = some p.id) : Keeps p t q (t ++ u) :=
  ⟨id, ⟨u, rfl, own⟩, fun _ => sound_of_not_established closed⟩

theorem of_closed_now (id : q.id = p.id) (closed : q.state ≠ .established) : Keeps p t q t :=
  ⟨id, ⟨[], by simp, by simp⟩, fun _ => sound_of_not_established closed⟩

/-- A step that generates the key of the record. -/
theorem of_keyed (id : q.id = p.id) (secure : q.isSecure = true ∨ q.state ≠ .established)
    (quiet : ∀ e ∈ u, e.session = none) : Keeps p t q (t ++ .keyed p.id q.aesKey :: u) := by
  refine ⟨id, ⟨.keyed p.id q.aesKey :: u, rfl, ?_⟩, ?_⟩
  · intro e he
    rcases List.mem_cons.1 he with rfl | he
    · exact Or.inr rfl
    · exact Or.inl (quiet e he)
  · intro _ he
    refine ⟨secure.resolve_right fun h => h he, ?_⟩
    rw [← id]
    exact hasSessionKey_keyed quiet

end Keeps

theorem session_of_isAccess {e : Effect} (h : e.isAccess = true) : e.session = none := by
  cases e <;> simp_all [Effect.isAccess, Effect.session]

/-! ## Calls -/

theorem sendMessage_keeps (env : Env) (p : P2PPeer) (type : P2PMessageType) (payload : Bytes)
    (sh : Shared) :
    Keeps p sh.trace (sendMessage env p type payload sh).peer
      (sendMessage env p type payload sh).shared.trace := by
  rcases sendMessage_cases env p type payload sh with h | ⟨-, h⟩
  · rw [h]
    exact .refl p sh.trace
  · rw [h]
    exact .of_quiet rfl rfl (Or.inl rfl) rfl (by simp [Effect.session])

theorem sendHandshake_keeps (env : Env) (p : P2PPeer) (sh : Shared) :
    Keeps p sh.trace (sendHandshake env p sh).peer (sendHandshake env p sh).shared.trace := by
  unfold sendHandshake
  cases env.identity with
  | none => exact .refl p sh.trace
  | some identity =>
    dsimp only
    cases env.crypto.rsaSignString (handshakeData identity.id identity.name identity.publicKey env.now)
      identity.privateKeyEncrypted with
    | none => exact .refl p sh.trace
    | some signature => exact sendMessage_keeps env p _ _ sh

theorem connectPeer_keeps (env : Env) (ip : IpText) (port : ℤ) (p : P2PPeer) (sh : Shared) :
    Keeps p sh.trace (connectPeer env ip port p sh).peer
      (connectPeer env ip port p sh).shared.trace := by
  unfold connectPeer
  dsimp only
  by_cases hsock : env.createUdpSocket < 0
  · rw [if_pos hsock]
    exact .of_closed rfl (by simp) (by simp [Effect.session])
  rw [if_neg hsock]
  have opened : Keeps p sh.trace
      { p with
        ip := ip, port := port, state := .connecting, isInitiator := true, lastActivity := env.now,
        addr := .make ip.val port, udpSocket := env.createUdpSocket }
      (sh.record [.opened env.createUdpSocket]).trace :=
    .of_closed rfl (by simp) (by simp [Effect.session])
  have abandoned : ∀ (q : P2PPeer) (s : Shared), Keeps q s.trace (abandonConnect q s).peer
      (abandonConnect q s).shared.trace := fun q s =>
    .of_closed rfl (by simp [abandonConnect]) (by simp [Effect.session])
  have shaken : ∀ (q : P2PPeer) (t : List Effect), Keeps q t { q with state := .handshake } t :=
    fun q t => .of_closed_now rfl (by simp)
  split_ifs
  · exact opened.trans (abandoned _ _)
  · exact (opened.trans (sendHandshake_keeps env _ _)).trans (abandoned _ _)
  · exact (opened.trans (sendHandshake_keeps env _ _)).trans (shaken _ _)

theorem acceptPeer_keeps (env : Env) (p : P2PPeer) (sh : Shared) :
    Keeps p sh.trace (acceptPeer env p sh).peer (acceptPeer env p sh).shared.trace := by
  unfold acceptPeer
  by_cases hst : p.state ≠ .handshake
  · rw [if_pos hst]
    exact .refl p sh.trace
  rw [if_neg hst]
  have handshake : p.state ≠ .established := by
    rw [not_not] at hst
    simp [hst]
  rcases establishSecureChannel_cases env p sh with
    ⟨-, h⟩ | ⟨sharedSecret, aesKey, -, h | ⟨datagram, h⟩⟩ <;> rw [h]
  · exact .refl p sh.trace
  · exact Keeps.of_keyed (q := { p with sharedSecret := sharedSecret, aesKey := aesKey }) rfl
      (Or.inr handshake) (by simp)
  · show Keeps p sh.trace _ ((sh.trace ++ [.keyed p.id aesKey]) ++ _)
    rw [List.append_assoc]
    exact .of_keyed rfl (Or.inl rfl) (by simp [Effect.session])

theorem disconnectPeer_keeps (env : Env) (p : P2PPeer) (sh : Shared) :
    Keeps p sh.trace (disconnectPeer env p sh).peer (disconnectPeer env p sh).shared.trace := by
  unfold disconnectPeer
  by_cases hsock : 0 ≤ p.udpSocket
  · rw [if_pos hsock]
    refine (sendMessage_keeps env p .close [0] sh).trans ?_
    show Keeps _ _ _ ((_ ++ [.closed p.udpSocket]) ++ [.disconnected _])
    rw [List.append_assoc]
    exact .of_closed rfl (by simp) (by simp [Effect.session])
  · rw [if_neg hsock]
    exact .of_closed rfl (by simp) (by simp [Effect.session])

theorem sendSecure_keeps (env : Env) (p : P2PPeer) (data : Bytes) (sh : Shared) :
    Keeps p sh.trace (sendSecure env p data sh).peer (sendSecure env p data sh).shared.trace := by
  unfold sendSecure
  split_ifs
  · exact .refl p sh.trace
  · cases env.crypto.aesGcmEncrypt data p.aesKey env.nonce with
    | none => exact .refl p sh.trace
    | some sealed =>
      dsimp only
      have sent := sendMessage_keeps env p .data (env.nonce ++ sealed.1 ++ sealed.2) sh
      split_ifs
      · exact sent
      · exact sent.trans (.of_quiet rfl rfl (Or.inl rfl) rfl (by simp [Effect.session]))

theorem P2PCall.Works.keeps {env : Env} {call : P2PCall} {p : P2PPeer} {sh : Shared} {h : Handled}
    (works : call.Works env p sh h) : Keeps p sh.trace h.peer h.shared.trace := by
  cases works with
  | connect peerId ip port => exact connectPeer_keeps env ip port p sh
  | accept => exact acceptPeer_keeps env p sh
  | disconnect => exact disconnectPeer_keeps env p sh
  | send peerId message => exact sendMessage_keeps env p .data message sh
  | sendSealed peerId message => exact sendSecure_keeps env p message sh
  | sendSecure peerId data => exact sendSecure_keeps env p data sh

theorem keepalivePeer_keeps (env : Env) (p : P2PPeer) (sh : Shared) :
    Keeps p sh.trace (keepalivePeer env p sh).peer (keepalivePeer env p sh).shared.trace := by
  rcases keepalivePeer_cases env p sh with ⟨-, h⟩ | ⟨-, h | h⟩ <;> rw [h]
  · exact .of_closed rfl (by simp) (by simp [Effect.session])
  · exact .refl p sh.trace
  · exact .of_quiet rfl rfl (Or.inl rfl) rfl (by simp [keepaliveEffects, Effect.session])

/-! ## Messages -/

theorem textEffects_session (msg : P2PMessage) : ∀ e ∈ textEffects msg, e.session = none := by
  simp [textEffects, Effect.session]

theorem receiveText_trace (env : Env) (p : P2PPeer) (text : CString) (sh : Shared) :
    (receiveText env p text sh).trace =
      sh.trace ++ [.copy idSize p.id.val.length, .copy 4096 text.length] := rfl

theorem receiveText_keeps (env : Env) (p : P2PPeer) (text : CString) (sh : Shared) :
    Keeps p sh.trace { p with lastActivity := env.now } (receiveText env p text sh).trace := by
  rw [receiveText_trace]
  exact .of_quiet rfl rfl (Or.inl rfl) rfl (by simp [Effect.session])

theorem handleData_keeps (env : Env) (p : P2PPeer) (msg : P2PMessage) (sh : Shared) :
    Keeps p sh.trace (handleData env p msg sh).peer (handleData env p msg sh).shared.trace := by
  unfold handleData
  split_ifs
  · have read : Keeps p sh.trace p
        (sh.record [.load 0 12, .load 12 28, .load sealSize msg.payloadLen.toNat]).trace :=
      .of_quiet rfl rfl (Or.inl rfl) rfl (by simp [Effect.session])
    cases openPayload env p msg with
    | none => exact read
    | some plaintext => exact read.trans (receiveText_keeps env p _ _)
  · have read : Keeps p sh.trace p (sh.record (textEffects msg)).trace :=
      .of_quiet rfl rfl (Or.inl rfl) rfl (textEffects_session msg)
    exact read.trans (receiveText_keeps env p _ _)

/-- A signature that verifies is followed by a key before the session is ESTABLISHED. -/
theorem acceptHandshake_keeps (env : Env) (p : P2PPeer) (identity : OrcaIdentity)
    (id pubkey signature : CString) (sh : Shared) :
    Keeps p sh.trace (acceptHandshake env p identity id pubkey signature sh).peer
      (acceptHandshake env p identity id pubkey signature sh).shared.trace := by
  have secured : Keeps p sh.trace { p with publicKey := pubkey, isSecure := true }
      (sh.record [.copy 4096 pubkey.length]).trace :=
    .of_quiet rfl rfl (Or.inr rfl) rfl (by simp [Effect.session])
  rcases acceptHandshake_cases env p identity id pubkey signature sh with
    ⟨-, h⟩ | ⟨-, ⟨-, h⟩ | ⟨sharedSecret, aesKey, -, h | ⟨datagram, h⟩⟩⟩ <;> rw [h]
  · exact .refl p sh.trace
  · exact secured
  · exact secured.trans (.of_keyed rfl (Or.inl rfl) (by simp))
  · refine secured.trans ?_
    show Keeps _ _ _ ((_ ++ [.keyed p.id aesKey]) ++ _)
    rw [List.append_assoc]
    exact .of_keyed rfl (Or.inl rfl) (by simp [Effect.session])

theorem handleHandshake_keeps (env : Env) (p : P2PPeer) (msg : P2PMessage) (sh : Shared) :
    Keeps p sh.trace (handleHandshake env p msg sh).peer
      (handleHandshake env p msg sh).shared.trace := by
  obtain ⟨es, access, h⟩ := handleHandshake_cases env p msg sh
  have parsed : Keeps p sh.trace p (sh.record es).trace :=
    .of_quiet rfl rfl (Or.inl rfl) rfl fun e he => session_of_isAccess (access e he)
  rcases h with ⟨-, h⟩ | ⟨id, pubkey, signature, identity, -, -, h⟩ <;> rw [h]
  · exact parsed
  · exact parsed.trans (acceptHandshake_keeps env p identity id pubkey signature _)

/-- Every message keeps its record sound, if a HANDSHAKE_RESPONSE finds a session key. -/
theorem processMessage_keeps (env : Env) (p : P2PPeer) (msg : P2PMessage) (msgLen : ℕ) (sh : Shared)
    (keyed : headerOk msg msgLen = true →
      P2PMessageType.ofCode msg.type = some .handshakeResponse → HasSessionKey sh.trace p) :
    Keeps p sh.trace (processMessage env p msg msgLen sh).peer
      (processMessage env p msg msgLen sh).shared.trace := by
  by_cases header : headerOk msg msgLen = true
  swap
  · rw [processMessage_rejected header]
    exact .refl p sh.trace
  rw [processMessage_accepted header]
  have text : Keeps p sh.trace p (sh.record (textEffects msg)).trace :=
    .of_quiet rfl rfl (Or.inl rfl) rfl (textEffects_session msg)
  unfold dispatch
  cases type : P2PMessageType.ofCode msg.type with
  | none => exact .refl p sh.trace
  | some type' =>
    cases type' with
    | handshake => exact handleHandshake_keeps env p msg sh
    | handshakeResponse =>
      have key := keyed header type
      exact ⟨rfl, ⟨[], by simp, by simp⟩, fun _ _ => ⟨rfl, key⟩⟩
    | data => exact handleData_keeps env p msg sh
    | keepalive =>
      have touched : Keeps p sh.trace { p with lastActivity := env.now } (sh.trace ++ []) :=
        .of_quiet rfl rfl (Or.inl rfl) rfl (by simp)
      rw [List.append_nil] at touched
      exact touched
    | close => exact .of_closed rfl (by simp) (by simp [Effect.session])
    | addRequest =>
      refine .of_quiet rfl rfl (Or.inl rfl) rfl ?_
      intro e he
      rcases List.mem_append.1 he with he | he
      · exact textEffects_session msg e he
      · rw [List.mem_singleton.1 he]
        rfl
    | acceptConfirm => exact text
    | rejectConfirm => exact text

/-! ## The table -/

/-- No two records have one id, and every record is sound. -/
structure KeyInv (peers : List P2PPeer) (t : List Effect) : Prop where
  ids : (peers.map P2PPeer.id).Nodup
  sound : ∀ p ∈ peers, Sound t p

/-- A step on the record under a pointer. -/
theorem KeyInv.set {c : Cursor P2PPeer} {t t' : List Effect} {p' : P2PPeer}
    (h : KeyInv c.toList t) (step : Keeps c.val t p' t') : KeyInv (c.set p').toList t' := by
  refine ⟨?_, ?_⟩
  · rw [Cursor.map_toList_set step.id]
    exact h.ids
  · intro p hp
    obtain ⟨u, rfl, own⟩ := step.history
    rcases Cursor.mem_toList_set hp with rfl | hp
    · exact step.sound (h.sound c.val c.val_mem_toList)
    · have other : p.id ≠ c.val.id := Cursor.key_ne_of_nodup h.ids hp
      have mem : p ∈ c.toList := Cursor.mem_toList.2 (hp.elim Or.inl fun h => Or.inr (Or.inr h))
      refine (h.sound p mem).extend ?_
      intro e he same
      rcases own e he with hs | hs
      · rw [hs] at same
        cases same
      · rw [hs] at same
        exact other (Option.some.inj same).symm

/-- Effects that concern no session. -/
theorem KeyInv.quiet {peers : List P2PPeer} {t u : List Effect} (h : KeyInv peers t)
    (quiet : ∀ e ∈ u, e.session = none) : KeyInv peers (t ++ u) := by
  refine ⟨h.ids, fun p hp => (h.sound p hp).extend ?_⟩
  intro e he
  simp [quiet e he]

/-- A step of a function that gets the pointer of a search. -/
theorem KeyInv.write {q : P2PPeer → Bool} {node : Node} {c : Cursor P2PPeer}
    (h : KeyInv node.peers node.shared.trace) (found : Cursor.find q node.peers = some c)
    {r : Handled} (step : Keeps c.val node.shared.trace r.peer r.shared.trace) :
    KeyInv (node.write c r).peers (node.write c r).shared.trace := by
  have list : c.toList = node.peers := Cursor.toList_of_find found
  rw [← list] at h
  exact h.set step

/-- The record `add_peer` returns a pointer to, in a table that is as sound as it was. -/
theorem KeyInv.add {env : Env} {id : CString} {peers : List P2PPeer} {sh sh' : Shared}
    {c : Cursor P2PPeer} (h : KeyInv peers sh.trace)
    (added : addPeer env id peers sh = some (c, sh')) : KeyInv c.toList sh'.trace := by
  refine ⟨nodup_ids_addPeer h.ids added, ?_⟩
  rcases addPeer_cases added with ⟨found, rfl⟩ | ⟨absent, rfl, rfl⟩
  · rw [Cursor.toList_of_find found]
    exact h.sound
  · intro p hp
    rcases Cursor.mem_toList.1 hp with hp | rfl | hp
    · refine (h.sound p hp).extend ?_
      intro e he
      rw [List.mem_singleton.1 he]
      intro same
      exact findPeer_eq_none_iff.1 absent p hp (Option.some.inj same).symm
    · exact sound_of_not_established (by simp [P2PPeer.fresh])
    · cases hp

/-- The keepalive loop, with the records before it in `done`. -/
theorem keepaliveLoop_inv (env : Env) (todo : List P2PPeer) :
    ∀ (done : List P2PPeer) (sh : Shared), KeyInv (done ++ todo) sh.trace →
      KeyInv (done ++ (keepaliveLoop env todo sh).1) (keepaliveLoop env todo sh).2.trace := by
  induction todo with
  | nil =>
    intro done sh h
    exact h
  | cons p todo ih =>
    intro done sh h
    have step : KeyInv (done ++ (keepalivePeer env p sh).peer :: todo)
        (keepalivePeer env p sh).shared.trace :=
      KeyInv.set (c := ⟨done, p, todo⟩) h (keepalivePeer_keeps env p sh)
    rw [List.append_cons] at step
    have rest := ih (done ++ [(keepalivePeer env p sh).peer]) _ step
    rw [← List.append_cons] at rest
    exact rest

/-! ## The listener -/

/-- The record of a handshake from an unknown address is not ESTABLISHED. -/
theorem handshakeFrom_keeps (env : Env) (sender : SockAddrIn) (p : P2PPeer) (t : List Effect) :
    Keeps p t (handshakeFrom env sender p) t :=
  .of_closed_now rfl (by simp [handshakeFrom])

theorem listenerHandshake_inv (env : Env) (sender : SockAddrIn) {msg : P2PMessage} (n : ℕ)
    {node : Node} (type : msg.type = P2PMessageType.handshake.code)
    (h : KeyInv node.peers node.shared.trace) :
    KeyInv (listenerHandshake env sender msg n node).2.peers
      (listenerHandshake env sender msg n node).2.shared.trace := by
  unfold listenerHandshake
  cases split : strchr msg.payload 0 separator with
  | none => exact h.quiet (by simp [loadField, Effect.session])
  | some bar =>
    have parsed : KeyInv node.peers ((node.shared.record [loadField msg.payload 0]).record
        [.store bar, loadStr (msg.payload.set bar 0) 0]).trace :=
      (h.quiet (by simp [loadField, Effect.session])).quiet (by simp [loadStr, Effect.session])
    dsimp only
    cases added : addPeer env (strAt (msg.payload.set bar 0) 0) node.peers
        ((node.shared.record [loadField msg.payload 0]).record
          [.store bar, loadStr (msg.payload.set bar 0) 0]) with
    | none => exact parsed
    | some r =>
      obtain ⟨c, sh⟩ := r
      have copied : KeyInv c.toList (sh.record [.copy inetAddrStrLen sender.ip.val.length]).trace :=
        (parsed.add added).quiet (by simp [Effect.session])
      have handled := processMessage_keeps env (handshakeFrom env sender c.val)
        { msg with payload := msg.payload.set bar 0 } n
        (sh.record [.copy inetAddrStrLen sender.ip.val.length])
        (by
          intro _ response
          dsimp only at response
          rw [type, P2PMessageType.ofCode_code] at response
          cases response)
      exact copied.set ((handshakeFrom_keeps env sender c.val _).trans handled)

/-! ## Runs -/

/-- A HANDSHAKE_RESPONSE arrives from no record that has no session key. -/
def ResponseKeyed (node : Node) (l : Env × P2PCall) : Prop :=
  match l.2 with
  | .datagram sender buffer n =>
    ∀ c, findAddr sender node.peers = some c → headerOk (P2PMessage.ofBuffer buffer) n = true →
      P2PMessageType.ofCode (P2PMessage.ofBuffer buffer).type = some .handshakeResponse →
      HasSessionKey node.shared.trace c.val
  | _ => True

/-- One step of the P2P manager. -/
theorem p2pStep_inv {node : Node} {l : Env × P2PCall} (h : KeyInv node.peers node.shared.trace)
    (keyed : ResponseKeyed node l) :
    KeyInv (p2pStep node l).peers (p2pStep node l).shared.trace := by
  obtain ⟨env, call⟩ := l
  unfold p2pStep
  have outcome := call.step_outcome env node
  generalize call.step env node = after at outcome ⊢
  cases outcome with
  | nothing => exact h
  | found found works => exact h.write found works.keeps
  | added added works => exact (h.add added).set works.keeps
  | datagram sender buffer n found =>
    exact h.write found (processMessage_keeps env _ _ n _ (keyed _ found))
  | handshake sender buffer n unknown type => exact listenerHandshake_inv env sender n type h
  | keepalive => exact keepaliveLoop_inv env node.peers [] node.shared h

/-- In every run in which no HANDSHAKE_RESPONSE arrives from a record without a session key, an
ESTABLISHED record has one. -/
theorem session_key_of_established {node : Node} (empty : node.peers = [])
    {ls : List (Env × P2PCall)} (keyed : History.Meets p2pStep ResponseKeyed node ls) :
    ∀ p ∈ (History.run p2pStep node ls).peers, p.state = .established → p.isSecure = true →
      HasSessionKey (History.run p2pStep node ls).shared.trace p := by
  have start : KeyInv node.peers node.shared.trace := by
    rw [empty]
    exact ⟨List.nodup_nil, by simp⟩
  have inv := History.run_invariant (fun n => KeyInv n.peers n.shared.trace)
    (fun s l h hl => p2pStep_inv h hl) start keyed
  intro p hp established _
  exact (inv.sound p hp established).2

/-! ## A run with a key and a run without -/

/-- Surroundings in which `bob` is reached, his signature verifies and keys are generated. -/
def keysBob : Env :=
  { reachesBob with
    crypto :=
      { reachesBob.crypto with
        rsaVerifyString := fun _ _ _ => true
        x25519ComputeSharedSecret := fun _ _ => some (List.replicate 32 5)
        pbkdf2 := fun _ _ => some (List.replicate 32 7) }
    keypair := some (List.replicate 32 1, List.replicate 32 2) }

/-- A handshake of `bob` with a public key in hexadecimal. -/
def bobHandshake : Bytes := ascii "bob|" ++ List.replicate 64 97 ++ ascii "|signature"

/-- A handshake makes `bob` ESTABLISHED with a key. -/
theorem session_key_of_established_bob :
    let node := History.run p2pStep .init
      [(keysBob, .connect (ascii "bob")), (keysBob, datagramOf .handshake bobHandshake)]
    node.peers.map P2PPeer.state = [.established] ∧
      ∀ p ∈ node.peers, p.state = .established → p.isSecure = true →
        HasSessionKey node.shared.trace p :=
  ⟨by decide, session_key_of_established rfl
    ⟨trivial, fun _ _ _ response => absurd response (by decide), trivial⟩⟩

/-- A HANDSHAKE_RESPONSE makes `bob` ESTABLISHED and secure, and the key is the one `memset` left. -/
theorem response_without_key :
    bobConnected.peers.map (fun p => (p.state, p.isSecure, p.aesKey)) =
        [(.established, true, List.replicate 32 0)] ∧
      ∀ p ∈ bobConnected.peers, ¬ HasSessionKey bobConnected.shared.trace p := by
  have never : ∀ p ∈ bobConnected.peers, ∀ e ∈ bobConnected.shared.trace,
      e ≠ .keyed p.id p.aesKey := by
    decide
  refine ⟨by decide, ?_⟩
  rintro p hp ⟨before, e, after, trace, keyed, -⟩
  refine never p hp e ?_ keyed
  rw [trace]
  exact List.mem_append_right _ List.mem_cons_self

end Orcashi
