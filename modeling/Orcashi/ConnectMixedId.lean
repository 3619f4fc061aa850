import Orcashi.FriendRequest
import Orcashi.MixedIdKind
import Orcashi.SetterRace
import Orcashi.TruthfulReplies

/-!
# Connecting by Mixed ID

A Mixed ID carries the address of its peer.  `orcashi_connect_mixed_id` writes that address into the
record of the peer and then has the peer added: a peer without a record gets one after the address was
written, and without an address.  `p2p_connect` reads no record, it asks the DHT for the peer.
-/

namespace Orcashi

open CMemory Stdio

/-! ## The place that is dialled -/

/-- Whether there is a record of the id, or room for one. -/
def hasPlace (peerId : CString) (node : Node) : Bool :=
  (findPeer peerId node.peers).isSome || decide (node.peers.length < p2pMaxPeers)

theorem addPeer_eq_none_iff (env : Env) (peerId : CString) (node : Node) :
    addPeer env peerId node.peers node.shared = none ↔ hasPlace peerId node = false := by
  unfold addPeer hasPlace
  cases findPeer peerId node.peers with
  | some c => simp
  | none =>
    rw [Option.isSome_none, Bool.false_or, decide_eq_false_iff_not]
    dsimp only
    by_cases full : p2pMaxPeers ≤ node.peers.length
    · rw [if_pos full]
      exact iff_of_true rfl (Nat.not_lt.2 full)
    · rw [if_neg full]
      exact iff_of_false (by simp) (not_not_intro (Nat.lt_of_not_le full))

theorem withRecord_peers (env : Env) (peerId : CString) (node : Node) :
    (withRecord env peerId node).peers = node.peers ∧
      (withRecord env peerId node).initialized = node.initialized := by
  unfold withRecord
  split_ifs <;> exact ⟨rfl, rfl⟩

/-- The place at which `p2p_connect` starts a connection, if it gets that far. -/
def dialTarget (env : Env) (peerId : CString) (node : Node) : Option (IpText × ℤ) :=
  if !node.initialized then none
  else if (findPeer peerId node.peers).any fun c => P2PState.handshake.code ≤ c.val.state.code then none
  else if hasPlace peerId node then env.dhtNodeLookup.bind fun lookup => lookup (normalizeId peerId)
  else none

/-- `p2p_connect` works on a record of the peer with that place, or changes nothing. -/
theorem p2pConnect_dials (env : Env) (peerId : CString) (node : Node) :
    (dialTarget env peerId node = none ∧ (p2pConnect env peerId node).2 = node) ∨
    ∃ ip port c sh, dialTarget env peerId node = some (ip, port) ∧
      addPeer env peerId node.peers node.shared = some (c, sh) ∧
      p2pConnect env peerId node =
        ((connectPeer env ip port c.val sh).ret, node.write c (connectPeer env ip port c.val sh)) := by
  have none_iff := addPeer_eq_none_iff env peerId node
  unfold dialTarget p2pConnect
  cases node.initialized with
  | false => exact Or.inl ⟨rfl, rfl⟩
  | true =>
    rw [Bool.not_true, if_neg Bool.false_ne_true, if_neg Bool.false_ne_true]
    by_cases done : (findPeer peerId node.peers).any
        (fun c => decide (P2PState.handshake.code ≤ c.val.state.code)) = true
    · rw [if_pos done, if_pos done]
      exact Or.inl ⟨rfl, rfl⟩
    rw [if_neg done, if_neg done]
    cases env.dhtNodeLookup.bind fun lookup => lookup (normalizeId peerId) with
    | none => exact Or.inl ⟨ite_self none, rfl⟩
    | some place =>
      obtain ⟨ip, port⟩ := place
      dsimp only
      cases added : addPeer env peerId node.peers node.shared with
      | none =>
        rw [none_iff.1 added]
        exact Or.inl ⟨rfl, rfl⟩
      | some r =>
        obtain ⟨c, sh⟩ := r
        have place : hasPlace peerId node = true := by
          rw [← Bool.not_eq_false, ← none_iff, added]
          simp
        rw [place]
        exact Or.inr ⟨ip, port, c, sh, rfl, rfl, rfl⟩

/-- The node on which `daemon_cmd_add` calls `p2p_connect`. -/
def askedNode (env : Env) (peerId : CString) (node : Node) : Node :=
  (withRecord env peerId node).onStore fun s => s.call (stateUpdatePeer env.now peerId .requestSent)

/-- The place that `daemon_cmd_add` has dialled. -/
def addTarget (env : Env) (peerId : CString) (node : Node) : Option (IpText × ℤ) :=
  match stateGetPeer peerId (withRecord env peerId node).shared.sm with
  | none => none
  | some peer =>
    if peer.state = .friend then none
    else if peer.ip ≠ [] ∧ 0 < peer.port then dialTarget env peerId (askedNode env peerId node)
    else none

theorem dialTarget_askedNode (env : Env) (peerId : CString) (node : Node) :
    dialTarget env peerId (askedNode env peerId node) = dialTarget env peerId node := by
  obtain ⟨peers, initialized⟩ := withRecord_peers env peerId node
  unfold dialTarget hasPlace
  show (if !(withRecord env peerId node).initialized then none
    else if (findPeer peerId (withRecord env peerId node).peers).any _ then none
    else if (findPeer peerId (withRecord env peerId node).peers).isSome ||
        decide ((withRecord env peerId node).peers.length < p2pMaxPeers) then _
    else none) = _
  rw [peers, initialized]

/-! ## Adding a peer -/

/-- The record of a peer holds this address. -/
def HoldsAddress (id ip : CString) (port : ℤ) (sm : StateManager) : Prop :=
  ∃ p, stateGetPeer id sm = some p ∧ p.ip = ip ∧ p.port = port

/-- A record that was there keeps its address, and the peer is dialled unless it is a friend. -/
theorem daemonCmdAdd_known {env : Env} {id : CString} (short : id.length < idSize) {node : Node} {p : Peer}
    (known : stateGetPeer id node.shared.sm = some p) (address : p.ip ≠ [] ∧ 0 < p.port) :
    HoldsAddress id p.ip p.port (daemonCmdAdd env (some id) node).node.shared.sm ∧
      addTarget env id node = if p.state = .friend then none else dialTarget env id node := by
  have same : withRecord env id node = node := by
    unfold withRecord
    rw [known]
    rfl
  have target := dialTarget_askedNode env id node
  rw [daemonCmdAdd_eq, peerIdArg_of_lt short]
  unfold addTarget
  rw [same, known]
  dsimp only
  by_cases already : p.state = .friend
  · rw [if_pos already, if_pos already, if_pos already]
    exact ⟨⟨p, known, rfl, rfl⟩, rfl⟩
  · rw [if_neg already, if_neg already, if_neg already, if_pos address, if_pos address]
    refine ⟨?_, target⟩
    show HoldsAddress id p.ip p.port (p2pConnect env id _).2.shared.sm
    rw [p2pConnect_store]
    show HoldsAddress id p.ip p.port (stateUpdatePeer env.now id .requestSent node.shared.sm).2
    unfold HoldsAddress stateUpdatePeer
    rw [stateGetPeer_modifyPeer_self _ (by intro p; rfl), known]
    exact ⟨_, rfl, rfl, rfl⟩

/-- A record that is new has no address. -/
theorem daemonCmdAdd_unknown {env : Env} {id : CString} (short : id.length < idSize)
    (named : normalizeId id ≠ []) {node : Node} (unknown : stateGetPeer id node.shared.sm = none)
    (room : node.shared.sm.peers.length < maxPeers) :
    ∃ p, stateGetPeer id (daemonCmdAdd env (some id) node).node.shared.sm = some p ∧ p.ip = [] := by
  rw [daemonCmdAdd_eq, peerIdArg_of_lt short]
  rcases withRecord_cases env id node with ⟨-, refused⟩ | ⟨p, found, -, before⟩
  · exact absurd ⟨named, Or.inr room⟩ refused
  have empty : p.ip = [] := by
    rcases before with h | h
    · rw [unknown] at h
      cases h
    · exact h.2.1
  rw [found]
  dsimp only
  by_cases already : p.state = .friend
  · rw [if_pos already]
    exact ⟨p, found, empty⟩
  · have none_ : ¬ (p.ip ≠ [] ∧ 0 < p.port) := fun address => address.1 empty
    rw [if_neg already, if_neg none_]
    show ∃ q, stateGetPeer id (stateUpdatePeer env.now id .requestSent
      (withRecord env id node).shared.sm).2 = some q ∧ _
    unfold stateUpdatePeer
    rw [stateGetPeer_modifyPeer_self _ (by intro p; rfl), found]
    exact ⟨_, rfl, empty⟩

/-! ## The Mixed ID -/

/-- The daemon when the setters have run on its table. -/
def Daemon.withAddress (id ip : CString) (port : ℤ) (d : Daemon) : Daemon :=
  { d with
    node := d.node.onStore fun s => (s.call (stateSetIp id ip)).call (stateSetPort id port) }

/-- `orcashi_connect_mixed_id`, where the state manager is that of the daemon: what it returns, and the
daemon it leaves. -/
def orcashiConnectMixedId (ipc : Ipc) (env : DaemonEnv) (mixed : CString) (d : Daemon) :
    Option (ℤ × Daemon) :=
  match mixedIdDecode mixed with
  | none => some (-1, d)
  | some (id, ip, port) =>
    let d := d.withAddress id ip port
    let w := orcashiAddPeer id
    if w.forwards ipc && ipc.delivered then
      (daemonIpcHandle env w.command d).map fun r => (w.ret ipc, r.daemon)
    else some (w.ret ipc, d)

/-- What a decoded id and its address are like. -/
structure Decoded (id ip : CString) (port : ℤ) : Prop where
  id : ∃ n : ℕ, 0 < n ∧ n ≤ 999 ∧ id = digits n
  ip : ip ≠ []
  port : 0 < port

theorem decoded_of_mixedIdDecode {mixed id ip : CString} {port : ℤ}
    (h : mixedIdDecode mixed = some (id, ip, port)) : Decoded id ip port := by
  unfold mixedIdDecode at h
  split at h
  · rename_i idNum pair1 pair2 number scanned
    split_ifs at h with range ports
    obtain ⟨rfl, rfl, rfl⟩ : _ ∧ _ ∧ _ := by simpa using h
    refine ⟨⟨idNum.toNat, by omega, by omega, ?_⟩, ?_, by omega⟩
    · have same : decimal idNum = digits idNum.toNat := by
        obtain ⟨n, rfl⟩ := Int.eq_ofNat_of_zero_le (show 0 ≤ idNum by omega)
        rfl
      rw [same]
      exact List.take_of_length_le
        (le_trans (length_digits_lt (k := 3) (by decide) (by omega)) (by decide))
    · simp [cut, joinInts, inetAddrStrLen]
  · cases h

theorem Decoded.short {id ip : CString} {port : ℤ} (h : Decoded id ip port) : id.length ≤ 3 := by
  obtain ⟨n, -, range, rfl⟩ := h.id
  exact length_digits_lt (by decide) (by omega)

theorem Decoded.named {id ip : CString} {port : ℤ} (h : Decoded id ip port) : normalizeId id ≠ [] := by
  obtain ⟨n, -, range, rfl⟩ := h.id
  rw [normalizeId_digits range]
  exact digits_ne_nil n

/-- The daemon is asked to add exactly the decoded id. -/
theorem splitCommand_orcashiAddPeer {id : CString} (short : id.length ≤ 3) :
    splitCommand (ipcRequest (orcashiAddPeer id).command) = (CommandName.add.text, some id) := by
  have add : (ascii "add ").length = 4 := by decide
  have whole : commandCopy (ipcRequest (cut 256 (ascii "add " ++ id))) = ascii "add" ++ 32 :: id := by
    unfold commandCopy ipcRequest cut
    have text : ascii "add " ++ id = ascii "add" ++ 32 :: id := rfl
    have length : (ascii "add " ++ id).length ≤ 7 := by
      rw [List.length_append, add]
      omega
    rw [List.take_of_length_le (show (ascii "add " ++ id).length ≤ 256 - 1 by omega),
      List.take_of_length_le (show (ascii "add " ++ id).length ≤ 4096 - 1 by omega),
      List.take_of_length_le (show (ascii "add " ++ id).length ≤ 512 - 1 by omega), text]
  have command : (orcashiAddPeer id).command = cut 256 (ascii "add " ++ id) := rfl
  unfold splitCommand
  rw [command, whole, splitArgs_append (by decide)]
  rfl

theorem daemonIpcHandle_orcashiAddPeer (env : DaemonEnv) {id : CString} (short : id.length ≤ 3)
    (d : Daemon) :
    (daemonIpcHandle env (orcashiAddPeer id).command d).map DaemonReply.daemon =
      some { d with node := (daemonCmdAdd env.toEnv (some id) d.node).node } := by
  unfold daemonIpcHandle daemonHandleCommand
  rw [splitCommand_orcashiAddPeer short]
  dsimp only
  rw [CommandName.ofText_text]
  dsimp only [runCommand, Option.map_some]
  split_ifs <;> rfl

/-- Where the client returns 0 the daemon has added the peer, with the address in its table if the peer
was there. -/
theorem orcashiConnectMixedId_zero_iff {ipc : Ipc} {env : DaemonEnv} {mixed id ip : CString} {port : ℤ}
    {d after : Daemon} (decoded : mixedIdDecode mixed = some (id, ip, port)) :
    orcashiConnectMixedId ipc env mixed d = some (0, after) ↔
      ipc.orcashiRunning = true ∧ ipc.exchanged = true ∧
        { d with node := (daemonCmdAdd env.toEnv (some id) (d.withAddress id ip port).node).node }
          = after := by
  have handled := daemonIpcHandle_orcashiAddPeer env (decoded_of_mixedIdDecode decoded).short
    (d.withAddress id ip port)
  unfold orcashiConnectMixedId
  rw [decoded]
  dsimp only
  have forwards : (orcashiAddPeer id).forwards ipc = ipc.orcashiRunning := rfl
  have ret : (orcashiAddPeer id).ret ipc =
      if ipc.orcashiRunning then if ipc.exchanged then 0 else -1 else -1 := by
    unfold Wrapper.ret commandSendToDaemon
    rw [forwards]
    split_ifs <;> first | rfl | contradiction
  rw [forwards, ret]
  cases running : ipc.orcashiRunning with
  | false => simp
  | true =>
    cases exchanged : ipc.exchanged with
    | false =>
      refine iff_of_false ?_ (by simp)
      rw [if_pos rfl, if_neg Bool.false_ne_true, Bool.true_and]
      by_cases delivered : ipc.delivered = true
      · rw [if_pos delivered]
        simp
      · rw [if_neg delivered]
        simp
    | true =>
      have delivered : ipc.delivered = true := (Bool.and_eq_true_iff.1 exchanged).1
      rw [delivered, Bool.true_and, if_pos rfl, if_pos rfl, if_pos rfl]
      obtain ⟨r, hr, daemon⟩ := Option.map_eq_some_iff.1 handled
      rw [hr, Option.map_some, daemon]
      simp only [Option.some.injEq, Prod.mk.injEq, true_and]
      rfl

theorem stateGetPeer_withAddress (id ip : CString) (port : ℤ) (d : Daemon) :
    stateGetPeer id (d.withAddress id ip port).node.shared.sm =
      (stateGetPeer id d.sm).map fun p => { p with ip := ip, port := port } := by
  show stateGetPeer id (stateSetPort id port (stateSetIp id ip d.sm).2).2 = _
  unfold stateSetPort stateSetIp
  rw [stateGetPeer_modifyPeer_self _ (by intro p; rfl), stateGetPeer_modifyPeer_self _ (by intro p; rfl),
    Option.map_map]
  rfl

/-- The setters add no record. -/
theorem length_peers_withAddress (id ip : CString) (port : ℤ) (d : Daemon) :
    (d.withAddress id ip port).node.shared.sm.peers.length = d.sm.peers.length := by
  have ip_set := ids_modifyPeer id (f := fun p => { p with ip := ip }) (by intro p; rfl) d.sm
  have port_set := ids_modifyPeer id (f := fun p => { p with port := port }) (by intro p; rfl)
    (stateSetIp id ip d.sm).2
  have ids := congrArg List.length (port_set.trans ip_set)
  rwa [List.length_map, List.length_map] at ids

/-! ## Which address is used -/

/-- The place is at this address. -/
def At (ip : CString) (port : ℤ) (place : IpText × ℤ) : Prop := place.1.val = ip ∧ place.2 = port

/-- The place that a call with this Mixed ID dials. -/
def mixedTarget (env : DaemonEnv) (id ip : CString) (port : ℤ) (d : Daemon) : Option (IpText × ℤ) :=
  addTarget env.toEnv id (d.withAddress id ip port).node

/-- Where the client returns 0, the record holds the decoded address, and `dials` says of the place that
is dialled what it is. -/
def Connects (dials : CString → ℤ → Option (IpText × ℤ) → Prop) (ipc : Ipc) (env : DaemonEnv)
    (mixed : CString) (d : Daemon) : Prop :=
  ∀ id ip port after, mixedIdDecode mixed = some (id, ip, port) → d.sm.peers.length < maxPeers →
    orcashiConnectMixedId ipc env mixed d = some (0, after) →
      HoldsAddress id ip port after.sm ∧ dials ip port (mixedTarget env id ip port d)

/-- The call returns -1, or the peer has a record and `reached` says of it, and of where `p2p_connect`
would dial it, that the address is used. -/
def KnownBefore (reached : CString → ℤ → Peer → Option (IpText × ℤ) → Prop) (ipc : Ipc) (env : DaemonEnv)
    (mixed : CString) (d : Daemon) : Prop :=
  ∀ id ip port, mixedIdDecode mixed = some (id, ip, port) → d.sm.peers.length < maxPeers →
    ipc.orcashiRunning = true → ipc.exchanged = true →
      ∃ p, stateGetPeer id d.sm = some p ∧ reached ip port p (dialTarget env.toEnv id d.node)

theorem connects_iff (dials : CString → ℤ → Option (IpText × ℤ) → Prop) (ipc : Ipc) (env : DaemonEnv)
    (mixed : CString) (d : Daemon) :
    Connects dials ipc env mixed d ↔
      KnownBefore (fun ip port p target => dials ip port (if p.state = .friend then none else target))
        ipc env mixed d := by
  unfold Connects KnownBefore
  refine forall₃_congr fun id ip port => ?_
  rw [forall_comm]
  refine forall_congr' fun decoded => ?_
  have well := decoded_of_mixedIdDecode decoded
  have short : id.length < idSize := lt_of_le_of_lt well.short (by decide)
  have record := stateGetPeer_withAddress id ip port d
  have same : dialTarget env.toEnv id (d.withAddress id ip port).node = dialTarget env.toEnv id d.node := rfl
  rw [forall_comm]
  refine forall_congr' fun room => ?_
  simp only [orcashiConnectMixedId_zero_iff decoded]
  cases known : stateGetPeer id d.sm with
  | none =>
    rw [known] at record
    obtain ⟨p, found, empty⟩ : ∃ p, stateGetPeer id (daemonCmdAdd env.toEnv (some id)
        (d.withAddress id ip port).node).node.shared.sm = some p ∧ p.ip = [] :=
      daemonCmdAdd_unknown short well.named record (by rwa [length_peers_withAddress])
    constructor
    · intro h running exchanged
      obtain ⟨⟨q, hq, address, -⟩, -⟩ := h _ ⟨running, exchanged, rfl⟩
      have both : q = p := Option.some.inj (hq.symm.trans found)
      rw [both, empty] at address
      exact absurd address.symm well.ip
    · rintro h after ⟨running, exchanged, -⟩
      obtain ⟨q, hq, -⟩ := h running exchanged
      cases hq
  | some p =>
    rw [known] at record
    obtain ⟨holds, target⟩ := @daemonCmdAdd_known env.toEnv id short _ _ record ⟨well.ip, well.port⟩
    rw [same] at target
    constructor
    · intro h running exchanged
      obtain ⟨-, dialled⟩ := h _ ⟨running, exchanged, rfl⟩
      refine ⟨p, rfl, ?_⟩
      rw [← target]
      exact dialled
    · rintro h after ⟨running, exchanged, rfl⟩
      obtain ⟨q, hq, dialled⟩ := h running exchanged
      obtain rfl := Option.some.inj hq
      refine ⟨holds, ?_⟩
      unfold mixedTarget
      rw [target]
      exact dialled

/-- Every place that is dialled is at the decoded address. -/
def UsesAddress : Ipc → DaemonEnv → CString → Daemon → Prop :=
  Connects fun ip port target => ∀ place, target = some place → At ip port place

/-- A place is dialled, and it is at the decoded address. -/
def DialsAddress : Ipc → DaemonEnv → CString → Daemon → Prop :=
  Connects fun ip port target => ∃ place, target = some place ∧ At ip port place

/-- The decoded address is used exactly where the call returns -1, or the peer had a record and is a
friend or is nowhere dialled but at that address; and it is dialled exactly where the peer had a record, is
no friend, and that is where `p2p_connect` finds it. -/
theorem uses_address_iff (ipc : Ipc) (env : DaemonEnv) (mixed : CString) (d : Daemon) :
    (UsesAddress ipc env mixed d ↔
      KnownBefore (fun ip port p target =>
        p.state = .friend ∨ ∀ place, target = some place → At ip port place) ipc env mixed d) ∧
    (DialsAddress ipc env mixed d ↔
      KnownBefore (fun ip port p target =>
        p.state ≠ .friend ∧ ∃ place, target = some place ∧ At ip port place) ipc env mixed d) := by
  refine ⟨(connects_iff _ ipc env mixed d).trans ?_, (connects_iff _ ipc env mixed d).trans ?_⟩
  · unfold KnownBefore
    refine forall₃_congr fun id ip port => forall₄_congr fun _ _ _ _ => exists_congr fun p =>
      and_congr_right fun _ => ?_
    by_cases already : p.state = .friend <;> simp [already]
  · unfold KnownBefore
    refine forall₃_congr fun id ip port => forall₄_congr fun _ _ _ _ => exists_congr fun p =>
      and_congr_right fun _ => ?_
    by_cases already : p.state = .friend <;> simp [already]

/-- A client that finds the daemon and gets its reply. -/
def Ipc.working : Ipc := ⟨true, true, true, true, true, true⟩

/-- A daemon that was just started. -/
def Daemon.fresh : Daemon where
  node := Node.init
  dht := false
  dhtConnected := false
  p2pReady := false
  startTime := 0
  running := true
  announced := -1

/-- The address of a peer that has no record is forgotten. -/
theorem address_forgotten :
    ¬ UsesAddress .working .failing (ascii "7.258.772.9000") .fresh := by
  intro h
  have decoded : mixedIdDecode (ascii "7.258.772.9000") = some (ascii "7", ascii "1.2.3.4", 9000) := by
    decide +kernel
  obtain ⟨p, found, -⟩ := (connects_iff _ _ _ _ _).1 h _ _ _ decoded (by decide) rfl rfl
  rw [show stateGetPeer (ascii "7") Daemon.fresh.sm = none by decide +kernel] at found
  cases found

end Orcashi
