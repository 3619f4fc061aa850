import Orcashi.ChatRoundTrip
import Orcashi.DaemonCommand
import Orcashi.FriendRequest
import Orcashi.GhostDelivery
import Orcashi.SentTypes

/-!
# When a command succeeds, and what it has done then

For every command, what it takes for `daemon_handle_command` to return 0, in terms of the daemon
before it and of what the surroundings answer; and what the reply then announces.
-/

namespace Orcashi

open CMemory

/-! ## Calls of the P2P manager -/

/-- A failed call returns -1. -/
theorem failed_iff {p : Prop} (h : ¬ p) : (-1 : ℤ) = 0 ↔ p := iff_of_false (by decide) h

/-- Whether a message leaves through a socket. -/
def leaves (env : Env) (fd : ℤ) (addr : SockAddrIn) (type : P2PMessageType) (payload : Bytes) : Bool :=
  decide (0 ≤ fd) && env.sendto fd (P2PMessage.make env.now type payload).toBytes addr

/-- Whether `p2p_send` returns 0. -/
def sends (env : Env) (peerId text : CString) (node : Node) : Bool :=
  (findPeer peerId node.peers).any fun c =>
    c.val.state == .established &&
      if c.val.isSecure then
        decide (text ≠ []) && (env.crypto.aesGcmEncrypt text c.val.aesKey env.nonce).any
          fun (tag, ciphertext) =>
            leaves env c.val.udpSocket c.val.addr .data (env.nonce ++ tag ++ ciphertext)
      else leaves env c.val.udpSocket c.val.addr .data text

theorem sendMessage_ret_iff {env : Env} {peer : P2PPeer} {type : P2PMessageType} (payload : Bytes)
    (sh : Shared) (open_ : peer.state = .established ∨ type = .handshake) :
    (sendMessage env peer type payload sh).ret = 0 ↔ leaves env peer.udpSocket peer.addr type payload = true := by
  have allowed : ¬ (peer.state ≠ .established ∧ type ≠ .handshake ∧ type ≠ .handshakeResponse) := by
    tauto
  unfold sendMessage leaves
  rw [if_neg allowed, Bool.and_eq_true, decide_eq_true_eq]
  by_cases socket : peer.udpSocket < 0
  · rw [if_pos socket]
    exact failed_iff fun ok => absurd ok.1 (Int.not_le.2 socket)
  · rw [if_neg socket]
    dsimp only
    cases env.sendto peer.udpSocket (P2PMessage.make env.now type payload).toBytes peer.addr with
    | true => exact ⟨fun _ => ⟨Int.not_lt.1 socket, rfl⟩, fun _ => rfl⟩
    | false => exact failed_iff fun ok => absurd ok.2 Bool.false_ne_true

theorem sendSecure_ret_iff {env : Env} {peer : P2PPeer} (text : Bytes) (sh : Shared)
    (established : peer.state = .established) (secure : peer.isSecure = true) :
    (sendSecure env peer text sh).ret = 0 ↔
      (env.crypto.aesGcmEncrypt text peer.aesKey env.nonce).any
        (fun (tag, ciphertext) => leaves env peer.udpSocket peer.addr .data (env.nonce ++ tag ++ ciphertext)) = true := by
  unfold sendSecure
  rw [if_neg (by rw [established, secure]; decide)]
  cases env.crypto.aesGcmEncrypt text peer.aesKey env.nonce with
  | none => exact failed_iff (by simp)
  | some sealed =>
    obtain ⟨tag, ciphertext⟩ := sealed
    rw [Option.any_some]
    dsimp only
    rw [← sendMessage_ret_iff _ sh (Or.inl established)]
    split_ifs <;> rfl

theorem p2pSend_ret_iff (env : Env) (peerId text : CString) (node : Node) :
    (p2pSend env peerId text node).1 = 0 ↔ sends env peerId text node = true := by
  unfold p2pSend sends
  cases found : findPeer peerId node.peers with
  | none => exact failed_iff (by simp)
  | some c =>
    rw [Option.any_some]
    dsimp only
    by_cases established : c.val.state = .established
    swap
    · rw [if_pos established, beq_eq_false_iff_ne.2 established, Bool.false_and]
      exact failed_iff (by simp)
    rw [if_neg (not_not_intro established), beq_iff_eq.2 established, Bool.true_and]
    by_cases secure : c.val.isSecure = true
    · rw [if_pos secure, if_pos secure, Bool.and_eq_true, decide_eq_true_eq,
        ← sendSecure_ret_iff text node.shared established secure]
      unfold p2pSendSecure
      by_cases empty : text = []
      · rw [if_pos empty]
        exact failed_iff fun ok => ok.1 empty
      · rw [if_neg empty, found]
        exact ⟨fun ok => ⟨empty, ok⟩, fun ok => ok.2⟩
    · rw [if_neg secure, if_neg secure]
      exact sendMessage_ret_iff text node.shared (Or.inl established)

/-! ## Success -/

/-- Where the last line of the listing starts. -/
def listingStart (d : Daemon) : ℕ :=
  let peers := stateGetPeers 128 d.sm
  (ascii "PEERS (" ++ decimal peers.length ++ ascii "):\n").length +
    (peers.map peerLine).dropLast.flatten.length

/-- What it takes for a command to return 0. -/
def Succeeds (env : DaemonEnv) (d : Daemon) (args : Option CString) : CommandName → Prop
  | .identity => env.identity ≠ none
  | .listen =>
    d.dht = true ∨ env.identity ≠ none ∧ env.dhtNodeCreate = true ∧ 0 ≤ env.dhtNodeStart
  | .search => ∃ a, args = some a ∧ d.dht = true ∧ env.dhtLookup (peerIdArg a) ≠ none
  | .add =>
    ∃ a, args = some a ∧ normalizeId (peerIdArg a) ≠ [] ∧
      (stateGetPeer (peerIdArg a) d.sm ≠ none ∨ d.sm.peers.length < maxPeers)
  | .accept =>
    ∃ a p, args = some a ∧ stateGetPeer (peerIdArg a) d.sm = some p ∧ p.state = .requestReceived
  | .reject =>
    ∃ a p, args = some a ∧ stateGetPeer (peerIdArg a) d.sm = some p ∧ p.state = .requestReceived
  | .peers => listingStart d ≤ listingSize
  | .chatSend =>
    ∃ a peerId text, args = some a ∧ splitArgs a = some (peerId, text) ∧ peerId.length < idSize ∧
      sends env.toEnv peerId text d.node = true
  | .ghost =>
    ∃ a peerId text, args = some a ∧ splitArgs a = some (peerId, text) ∧ peerId.length < idSize
  | .status => True
  | .stop => True

/-- The listing is written within its buffer exactly if the last line starts there. -/
theorem peersLoop_eq_none_iff (buffer : CString) {pos : ℕ} {lines : List CString} (ne : lines ≠ []) :
    peersLoop buffer pos lines = none ↔ listingSize < pos + lines.dropLast.flatten.length := by
  induction lines generalizing buffer pos with
  | nil => exact absurd rfl ne
  | cons line lines ih =>
    rw [peersLoop]
    cases lines with
    | nil =>
      rw [List.dropLast_singleton, List.flatten_nil, List.length_nil, Nat.add_zero]
      split_ifs with outside
      · exact iff_of_true rfl outside
      · exact iff_of_false (by simp [peersLoop]) outside
    | cons next lines =>
      rw [List.dropLast_cons_cons, List.flatten_cons, List.length_append, ← Nat.add_assoc]
      split_ifs with outside
      · exact iff_of_true rfl (by omega)
      · exact ih _ (List.cons_ne_nil next lines)

theorem daemonCmdPeers_eq_none_iff (d : Daemon) :
    daemonCmdPeers d = none ↔ listingSize < listingStart d := by
  unfold daemonCmdPeers listingStart
  dsimp only
  by_cases empty : stateGetPeers 128 d.sm = []
  · rw [if_pos empty, empty]
    exact iff_of_false (by simp) (by decide)
  · rw [if_neg empty, Option.map_eq_none_iff, peersLoop_eq_none_iff]
    simpa using empty

theorem connected_of_sends {env : Env} {peerId text : CString} {node : Node}
    (h : sends env peerId text node = true) : p2pIsConnected peerId node = true := by
  obtain ⟨c, found, sent⟩ := (Option.any_eq_true _ _).1 h
  unfold p2pIsConnected
  rw [found, Option.any_some]
  exact (Bool.and_eq_true _ _ ▸ sent).1

theorem daemonCmdChatSend_ret_iff (env : Env) {a peerId text : CString}
    (split : splitArgs a = some (peerId, text)) (node : Node) :
    (daemonCmdChatSend env (some a) node).ret = 0 ↔ sends env peerId text node = true := by
  unfold daemonCmdChatSend
  dsimp only
  rw [split]
  dsimp only
  by_cases connected : p2pIsConnected peerId node = true
  · rw [connected, Bool.not_true, if_neg Bool.false_ne_true, ← p2pSend_ret_iff]
    split_ifs with sent
    · exact iff_of_true rfl sent
    · exact failed_iff sent
  · rw [Bool.eq_false_iff.2 connected, Bool.not_false, if_pos rfl]
    exact failed_iff fun sent => connected (connected_of_sends sent)

theorem exists_split_of_chatSend {env : Env} {args : Option CString} {node : Node}
    (ok : (daemonCmdChatSend env args node).ret = 0) :
    ∃ a peerId text, args = some a ∧ splitArgs a = some (peerId, text) := by
  unfold daemonCmdChatSend at ok
  cases args with
  | none => cases ok
  | some a =>
    dsimp only at ok
    cases split : splitArgs a with
    | none =>
      rw [split] at ok
      cases ok
    | some parts => exact ⟨a, parts.1, parts.2, rfl, split⟩

/-- `ghost` returns 0 for every id and text. -/
theorem daemonCmdGhost_ret_iff (env : Env) (args : Option CString) (node : Node) :
    (daemonCmdGhost env args node).ret = 0 ↔
      ∃ a peerId text, args = some a ∧ splitArgs a = some (peerId, text) := by
  unfold daemonCmdGhost
  cases args with
  | none => exact failed_iff (by simp)
  | some a =>
    dsimp only
    cases split : splitArgs a with
    | none => exact failed_iff (by simp [split])
    | some parts => exact iff_of_true rfl ⟨a, parts.1, parts.2, rfl, split⟩

/-- `chat_send` and `ghost` have no result where they overflow the copy of the id. -/
theorem not_runs_of_long {env : DaemonEnv} {args : Option CString} {d : Daemon} {name : CommandName}
    (copies : name = .chatSend ∨ name = .ghost) (long : ¬ idFits args = true)
    (p : DaemonReply → Prop) : ¬ ∃ r, runCommand env name args d = some r ∧ p r := by
  rintro ⟨r, runs, -⟩
  have none_ : runCommand env name args d = none := by
    rcases copies with rfl | rfl <;> exact if_neg long
  rw [none_] at runs
  cases runs

/-! ## What `add` announces -/

/-- The node after `add` has made sure of a record. -/
def withRecord (env : Env) (peerId : CString) (node : Node) : Node :=
  if (stateGetPeer peerId node.shared.sm).isNone then
    node.onStore fun s => s.call (stateAddPeer env.now peerId)
  else node

/-- A record is found then if the id is one and the table has it or has room; a new one is of no friend
and has no address. -/
theorem withRecord_cases (env : Env) (peerId : CString) (node : Node) :
    (stateGetPeer peerId (withRecord env peerId node).shared.sm = none ∧
      ¬ (normalizeId peerId ≠ [] ∧
        (stateGetPeer peerId node.shared.sm ≠ none ∨ node.shared.sm.peers.length < maxPeers))) ∨
    ∃ p, stateGetPeer peerId (withRecord env peerId node).shared.sm = some p ∧
      (normalizeId peerId ≠ [] ∧
        (stateGetPeer peerId node.shared.sm ≠ none ∨ node.shared.sm.peers.length < maxPeers)) ∧
      (stateGetPeer peerId node.shared.sm = some p ∨
        stateGetPeer peerId node.shared.sm = none ∧ p.ip = [] ∧ p.state ≠ .friend) := by
  unfold withRecord
  cases found : stateGetPeer peerId node.shared.sm with
  | some p =>
    have named : normalizeId peerId ≠ [] := by
      intro empty
      rw [stateGetPeer, if_pos empty] at found
      cases found
    exact Or.inr ⟨p, found, ⟨named, Or.inl (by simp)⟩, Or.inl rfl⟩
  | none =>
    rw [Option.isNone_none, if_pos rfl]
    show (stateGetPeer peerId (stateAddPeer env.now peerId node.shared.sm).2 = none ∧ _) ∨
      ∃ p, stateGetPeer peerId (stateAddPeer env.now peerId node.shared.sm).2 = some p ∧ _
    rcases stateAddPeer_cases env.now peerId node.shared.sm with
      ⟨empty, h⟩ | ⟨named, ⟨c, hc, -⟩ | ⟨-, full, h⟩ | ⟨absent, room, h⟩⟩
    · rw [h]
      exact Or.inl ⟨found, fun ok => ok.1 empty⟩
    · rw [stateGetPeer, if_neg named, hc] at found
      cases found
    · rw [h]
      exact Or.inl ⟨found, fun ok => ok.2.elim (absurd rfl) (Nat.not_lt.2 full)⟩
    · rw [h]
      refine Or.inr ⟨(node.shared.sm.stale.headD Peer.zero).renewed env.now (normalizeId peerId), ?_,
        ⟨named, Or.inr room⟩, Or.inr ⟨rfl, rfl, fun friend => by cases friend⟩⟩
      rw [stateGetPeer_eq_find, if_neg named] at found ⊢
      dsimp only
      rw [List.find?_append, found, Option.none_or]
      apply List.find?_cons_of_pos
      show isSameId (normalizeId peerId) peerId = true
      rw [isSameId_normalizeId_left]
      exact isSameId_self peerId

/-- The reply of `add` to a request, with how the connection stands. -/
def requestText (peerId connection : CString) : CString :=
  cut responseSize (ascii "Request sent to " ++ peerId ++ ascii "\n" ++ connection)

/-- A friend request left for the peer. -/
def RequestLeft (env : Env) (peerId : CString) (before after : Node) : Prop :=
  ∃ c payload, findPeer peerId after.peers = some c ∧
    (P2PMessage.make env.now .addRequest payload).toBytes ∈ datagramsTo c.val.addr (news before after)

/-- What the reply of `add` says is so: the peer is a friend already, or a request was sent to it and is
noted, and there is a connection exactly if one is announced. -/
def AddAnnounced (env : Env) (peerId : CString) (before : Node) (response : CString) (after : Node) :
    Prop :=
  ∃ p, stateGetPeer peerId after.shared.sm = some p ∧
    (p.state = .friend ∧
        response = cut responseSize (ascii "Already friends with " ++ peerId ++ ascii "\n") ∨
      p.state = .requestSent ∧ RequestLeft env peerId before after ∧
        (response = requestText peerId (ascii "Waiting for peer to come online\n") ∧
            p2pIsConnected peerId after = false ∨
          response = requestText peerId (ascii "Connection established\n") ∧
            p2pIsConnected peerId after = true))

theorem daemonCmdAdd_eq (env : Env) (a : CString) (node : Node) :
    daemonCmdAdd env (some a) node =
      match stateGetPeer (peerIdArg a) (withRecord env (peerIdArg a) node).shared.sm with
      | none => reply (-1) (ascii "ERROR: Failed to add peer\n") (withRecord env (peerIdArg a) node)
      | some peer =>
        if peer.state = .friend then
          reply 0 (ascii "Already friends with " ++ peerIdArg a ++ ascii "\n")
            (withRecord env (peerIdArg a) node)
        else
          let asked := (withRecord env (peerIdArg a) node).onStore fun s =>
            s.call (stateUpdatePeer env.now (peerIdArg a) .requestSent)
          let r := if peer.ip ≠ [] ∧ 0 < peer.port then p2pConnect env (peerIdArg a) asked else (-1, asked)
          ⟨0, requestText (peerIdArg a)
            (if r.1 = 0 then ascii "Connection established\n"
            else ascii "Waiting for peer to come online\n"), r.2⟩ := rfl

theorem length_peerIdArg_lt (a : CString) : (peerIdArg a).length < idSize :=
  lt_of_le_of_lt (List.length_take_le _ _) (by decide)

/-- `add` sends nothing but a handshake. -/
theorem daemonCmdAdd_sendsOnly (env : Env) (a : CString) (node : Node) :
    SendsOnly env .handshake node.shared (daemonCmdAdd env (some a) node).node.shared := by
  have recorded : SendsOnly env .handshake node.shared (withRecord env (peerIdArg a) node).shared := by
    unfold withRecord
    split_ifs <;> exact .of_trace rfl
  rw [daemonCmdAdd_eq]
  cases stateGetPeer (peerIdArg a) (withRecord env (peerIdArg a) node).shared.sm with
  | none => exact recorded
  | some peer =>
    dsimp only
    by_cases already : peer.state = .friend
    · rw [if_pos already]
      exact recorded
    rw [if_neg already]
    have asked : SendsOnly env .handshake node.shared ((withRecord env (peerIdArg a) node).onStore fun s =>
        s.call (stateUpdatePeer env.now (peerIdArg a) .requestSent)).shared :=
      recorded.trans (.of_trace rfl)
    by_cases address : peer.ip ≠ [] ∧ 0 < peer.port
    · rw [if_pos address]
      exact asked.trans (p2pConnect_sendsOnly env (peerIdArg a) _)
    · rw [if_neg address]
      exact asked

/-- No request leaves with `add`. -/
theorem not_requestLeft_add (env : Env) (peerId a : CString) (node : Node) :
    ¬ RequestLeft env peerId node (daemonCmdAdd env (some a) node).node := by
  rintro ⟨c, payload, -, left⟩
  exact (daemonCmdAdd_sendsOnly env a node).not_mem (by decide) payload c.val.addr left

/-- The record of a peer that is no friend is that of a request afterwards. -/
theorem stateGetPeer_requested {env : Env} {a : CString} {node : Node} {p : Peer}
    (found : stateGetPeer (peerIdArg a) (withRecord env (peerIdArg a) node).shared.sm = some p)
    (stranger : p.state ≠ .friend) :
    ∃ q, stateGetPeer (peerIdArg a) (daemonCmdAdd env (some a) node).node.shared.sm = some q ∧
      q.state = .requestSent := by
  have noted : ∃ q, stateGetPeer (peerIdArg a) (stateUpdatePeer env.now (peerIdArg a) .requestSent
      (withRecord env (peerIdArg a) node).shared.sm).2 = some q ∧ q.state = .requestSent := by
    unfold stateUpdatePeer
    rw [stateGetPeer_modifyPeer_self _ (by intro p; rfl), found]
    exact ⟨_, rfl, rfl⟩
  rw [daemonCmdAdd_eq, found]
  dsimp only
  rw [if_neg stranger]
  by_cases address : p.ip ≠ [] ∧ 0 < p.port
  · rw [if_pos address, p2pConnect_store]
    exact noted
  · rw [if_neg address]
    exact noted

/-- `add` is honest exactly if it fails or the peer is a friend already. -/
theorem daemonCmdAdd_announced_iff (env : Env) (a : CString) (node : Node) :
    ((daemonCmdAdd env (some a) node).ret = 0 ↔ normalizeId (peerIdArg a) ≠ [] ∧
      (stateGetPeer (peerIdArg a) node.shared.sm ≠ none ∨ node.shared.sm.peers.length < maxPeers)) ∧
    (((daemonCmdAdd env (some a) node).ret = 0 →
        AddAnnounced env (peerIdArg a) node (daemonCmdAdd env (some a) node).response
          (daemonCmdAdd env (some a) node).node) ↔
      (normalizeId (peerIdArg a) ≠ [] ∧
          (stateGetPeer (peerIdArg a) node.shared.sm ≠ none ∨ node.shared.sm.peers.length < maxPeers) →
        IsFriend (peerIdArg a) node.shared.sm)) := by
  rcases withRecord_cases env (peerIdArg a) node with ⟨absent, refused⟩ | ⟨p, found, placed, before⟩
  · have failed : (daemonCmdAdd env (some a) node).ret = -1 := by
      rw [daemonCmdAdd_eq, absent]
      rfl
    rw [failed]
    exact ⟨failed_iff refused, iff_of_true (fun ok => by cases ok) fun placed => absurd placed refused⟩
  have ok : (daemonCmdAdd env (some a) node).ret = 0 := by
    rw [daemonCmdAdd_eq, found]
    dsimp only
    split_ifs <;> rfl
  rw [ok]
  refine ⟨iff_of_true rfl placed, ?_⟩
  by_cases already : p.state = .friend
  · -- such a record was there before
    refine iff_of_true (fun _ => ?_) fun _ => ?_
    · rw [daemonCmdAdd_eq, found]
      dsimp only
      rw [if_pos already]
      exact ⟨p, found, Or.inl ⟨already, rfl⟩⟩
    · rcases before with known | ⟨-, -, stranger⟩
      · unfold IsFriend
        rw [known, Option.map_some, already]
      · exact absurd already stranger
  · refine iff_of_false (fun announced => ?_) fun friend => ?_
    · obtain ⟨q, asked, sent⟩ := stateGetPeer_requested found already
      obtain ⟨q', there, ⟨friend, -⟩ | ⟨-, left, -⟩⟩ := announced rfl
      · obtain rfl := Option.some.inj (asked.symm.trans there)
        rw [sent] at friend
        cases friend
      · exact not_requestLeft_add env (peerIdArg a) a node left
    · have state := friend placed
      unfold IsFriend at state
      rcases before with known | ⟨unknown, -, -⟩
      · rw [known, Option.map_some] at state
        exact already (Option.some.inj state)
      · rw [unknown] at state
        cases state

/-! ## What `accept` and `reject` announce -/

/-- Nothing is pending after a delivery, which returns how many there were. -/
theorem deliver_counts (now : Time) (toId : CString) (s : Store) :
    (stateDeliverGhostMessages now toId s).1 = stateGetGhostCount toId s.sm ∧
      stateGetGhostCount toId (s.deliver now toId).sm = 0 := by
  unfold Store.deliver stateGetGhostCount
  rw [stateDeliverGhostMessages_eq]
  by_cases hid : normalizeId toId = []
  · rw [if_pos hid, if_pos hid]
    exact ⟨rfl, rfl⟩
  · rw [if_neg hid, if_neg hid, if_neg hid]
    refine ⟨List.countP_eq_length_filter.symm, ?_⟩
    rw [List.countP_eq_zero]
    intro gm hgm
    obtain ⟨gm, -, rfl⟩ := List.mem_map.1 hgm
    rw [pendingFor_markFor]
    decide

/-- The text left for the peer. -/
def TextLeft (env : Env) (peerId text : CString) (before after : Node) : Prop :=
  ∃ c payload, findPeer peerId after.peers = some c ∧ Carries env c.val text payload ∧
    (P2PMessage.make env.now .data payload).toBytes ∈ datagramsTo c.val.addr (news before after)

/-- The line of the reply of `accept` about a peer that is not connected. -/
def offlineLine : CString := ascii "Peer is offline, will connect when online\n"

/-- The reply of `accept`, with what it says of the connection and the number of messages. -/
def acceptText (peerId connection : CString) (delivered : ℕ) : CString :=
  cut responseSize (ascii "Accepted request from " ++ peerId ++ ascii "\n" ++ connection ++
    ascii "Delivered " ++ decimal delivered ++ ascii " ghost messages\n")

/-- What the reply of `accept` says is so: the peer is a friend, all messages that were pending for it were
sent and are no longer pending, and a peer that is said to be offline is not connected. -/
def AcceptAnnounced (env : Env) (peerId : CString) (before : Node) (response : CString) (after : Node) :
    Prop :=
  IsFriend peerId after.shared.sm ∧
    (∀ gm ∈ pendingMessages peerId before.shared.sm, TextLeft env peerId gm.message before after) ∧
    stateGetGhostCount peerId after.shared.sm = 0 ∧
    (response = acceptText peerId [] (stateGetGhostCount peerId before.shared.sm) ∨
      response = acceptText peerId offlineLine (stateGetGhostCount peerId before.shared.sm) ∧
        p2pIsConnected peerId after = false)

theorem length_pendingMessages (peerId : CString) (sm : StateManager) :
    (pendingMessages peerId sm).length = stateGetGhostCount peerId sm := by
  unfold stateGetGhostCount pendingMessages
  split_ifs
  · rfl
  · exact List.countP_eq_length_filter.symm

/-- The replies with and without the line differ. -/
theorem acceptText_offline_ne {peerId : CString} (short : peerId.length < idSize) (n : ℕ) :
    acceptText peerId offlineLine n ≠ acceptText peerId [] n := by
  have tag : (ascii "Accepted request from ").length = 22 := by decide
  have newline : (ascii "\n").length = 1 := by decide
  have front : (ascii "Accepted request from " ++ peerId ++ ascii "\n").length < responseSize - 1 := by
    rw [List.length_append, List.length_append, tag, newline]
    unfold idSize at short
    unfold responseSize
    omega
  -- the letters behind the id are P and D
  have letter (rest : CString) :
      (cut responseSize (ascii "Accepted request from " ++ peerId ++ ascii "\n" ++ rest))[
        (ascii "Accepted request from " ++ peerId ++ ascii "\n").length]? = rest[0]? := by
    unfold cut
    rw [List.getElem?_take_of_lt front, List.getElem?_append_right (Nat.le_refl _), Nat.sub_self]
  intro same
  unfold acceptText at same
  simp only [List.append_assoc] at same letter
  have letters := letter (offlineLine ++ (ascii "Delivered " ++ (decimal n ++ ascii " ghost messages\n")))
  rw [same, letter] at letters
  exact absurd letters (by simp [offlineLine, ascii])

/-- `p2p_accept` of a peer that is connected fails, and where it fails the peer is as much connected as
before. -/
theorem p2pAccept_connected (env : Env) (peerId : CString) (node : Node) :
    (p2pIsConnected peerId node = true → (p2pAccept env peerId node).1 ≠ 0) ∧
      ((p2pAccept env peerId node).1 ≠ 0 →
        p2pIsConnected peerId (p2pAccept env peerId node).2 = p2pIsConnected peerId node) := by
  unfold p2pAccept
  cases found : findPeer peerId node.peers with
  | none => exact ⟨fun _ => (by decide : (-1 : ℤ) ≠ 0), fun _ => rfl⟩
  | some c =>
    dsimp only
    have connected : p2pIsConnected peerId node = (c.val.state == .established) := by
      unfold p2pIsConnected
      rw [found, Option.any_some]
    have written {h : Handled} (same : h.peer.id = c.val.id) :
        p2pIsConnected peerId (node.write c h) = (h.peer.state == .established) := by
      show (findPeer peerId (c.set h.peer).toList).any _ = _
      have again : findPeer peerId (c.set h.peer).toList = some (c.set h.peer) := by
        refine Cursor.find_toList_set found ?_
        rw [same]
        exact (Cursor.find_eq_some found).2.1
      rw [again, Option.any_some, Cursor.set_val]
    rw [connected]
    unfold acceptPeer
    by_cases idle : c.val.state ≠ .handshake
    · rw [if_pos idle]
      exact ⟨fun _ => (by decide : (-1 : ℤ) ≠ 0), fun _ => written rfl⟩
    have state := not_not.1 idle
    rw [if_neg idle]
    refine ⟨fun established => ?_, ?_⟩
    · rw [state] at established
      cases established
    dsimp only
    rcases establishSecureChannel_cases env c.val node.shared with
      ⟨-, h⟩ | ⟨sharedSecret, aesKey, -, h | ⟨datagram, h⟩⟩ <;> rw [h]
    · exact fun _ => written rfl
    · exact fun _ => written rfl
    · intro failed
      exact absurd rfl failed

theorem daemonCmdAccept_peerIdArg (env : Env) (a : CString) (node : Node) :
    daemonCmdAccept env (some (peerIdArg a)) node = daemonCmdAccept env (some a) node := by
  unfold daemonCmdAccept
  dsimp only
  rw [peerIdArg_of_lt (length_peerIdArg_lt a)]

/-- What `accept` has done of a request before it delivers, with the value of `p2p_accept`. -/
def acceptedNode (env : Env) (peerId : CString) (p : Peer) (node : Node) : ℤ × Node :=
  if p.ip ≠ [] ∧ 0 < p.port then
    p2pAccept env peerId (node.onStore fun s => s.call (stateUpdatePeer env.now peerId .friend))
  else (0, node.onStore fun s => s.call (stateUpdatePeer env.now peerId .friend))

/-- The ghost messages are still there, and nothing but a HANDSHAKE_RESPONSE has left. -/
theorem acceptedNode_quiet (env : Env) (peerId : CString) (p : Peer) (node : Node) :
    (acceptedNode env peerId p node).2.shared.sm.ghosts = node.shared.sm.ghosts ∧
      SendsOnly env .handshakeResponse node.shared (acceptedNode env peerId p node).2.shared := by
  unfold acceptedNode
  split_ifs
  · refine ⟨?_, SendsOnly.trans (.of_trace rfl) (p2pAccept_sendsOnly env peerId _)⟩
    rcases p2pAccept_store env peerId
        (node.onStore fun s => s.call (stateUpdatePeer env.now peerId .friend)) with
      same | ⟨c, -, store⟩
    · rw [same]
      exact modifyPeer_ghosts _ _ _
    · rw [store]
      exact (modifyPeer_ghosts _ _ _).trans (modifyPeer_ghosts _ _ _)
  · exact ⟨modifyPeer_ghosts _ _ _, .of_trace rfl⟩

/-- `accept` of a request: what it answers and leaves. -/
theorem daemonCmdAccept_eq {env : Env} {a : CString} {node : Node} {p : Peer}
    (found : stateGetPeer (peerIdArg a) node.shared.sm = some p) (received : p.state = .requestReceived) :
    daemonCmdAccept env (some a) node =
      ⟨0, acceptText (peerIdArg a) (if (acceptedNode env (peerIdArg a) p node).1 = 0 then [] else offlineLine)
          (stateGetGhostCount (peerIdArg a) node.shared.sm),
        (acceptedNode env (peerIdArg a) p node).2.onStore fun s => s.deliver env.now (peerIdArg a)⟩ := by
  have counted : (stateDeliverGhostMessages env.now (peerIdArg a)
      (acceptedNode env (peerIdArg a) p node).2.shared.toStore).1 =
        stateGetGhostCount (peerIdArg a) node.shared.sm := by
    rw [(deliver_counts _ _ _).1]
    unfold stateGetGhostCount
    rw [(acceptedNode_quiet env (peerIdArg a) p node).1]
  rw [← counted]
  unfold daemonCmdAccept
  dsimp only
  rw [found]
  dsimp only
  rw [if_neg (not_not_intro received)]
  rfl

/-- Where the value of `p2p_accept` is not 0 the peer has an address, and is as much connected as before. -/
theorem acceptedNode_failed {env : Env} {peerId : CString} {p : Peer} {node : Node}
    (failed : (acceptedNode env peerId p node).1 ≠ 0) :
    (p.ip ≠ [] ∧ 0 < p.port) ∧
      p2pIsConnected peerId (acceptedNode env peerId p node).2 = p2pIsConnected peerId node := by
  unfold acceptedNode at failed ⊢
  split_ifs at failed ⊢ with address
  · exact ⟨address, (p2pAccept_connected env peerId _).2 failed⟩
  · exact absurd rfl failed

/-- A peer with an address that is connected already is not accepted again. -/
theorem acceptedNode_of_connected (env : Env) {peerId : CString} {p : Peer} {node : Node} (ip : p.ip ≠ [])
    (port : 0 < p.port) (connected : p2pIsConnected peerId node = true) :
    (acceptedNode env peerId p node).1 ≠ 0 := by
  unfold acceptedNode
  rw [if_pos ⟨ip, port⟩]
  exact (p2pAccept_connected env peerId _).1 connected

/-- `accept` needs a request. -/
theorem daemonCmdAccept_ret_iff (env : Env) (a : CString) (node : Node) :
    (daemonCmdAccept env (some a) node).ret = 0 ↔
      ∃ p, stateGetPeer (peerIdArg a) node.shared.sm = some p ∧ p.state = .requestReceived := by
  by_cases asked : ∃ p, stateGetPeer (peerIdArg a) node.shared.sm = some p ∧ p.state = .requestReceived
  · obtain ⟨p, found, received⟩ := asked
    rw [daemonCmdAccept_eq found received]
    exact iff_of_true rfl ⟨p, found, received⟩
  · refine iff_of_false ?_ asked
    unfold daemonCmdAccept
    dsimp only
    cases found : stateGetPeer (peerIdArg a) node.shared.sm with
    | none => exact fun ok => by cases ok
    | some p =>
      dsimp only
      rw [if_pos fun received => asked ⟨p, found, received⟩]
      exact fun ok => by cases ok

/-- `accept` is honest exactly if there are no messages to deliver and a peer with an address is not
connected. -/
theorem daemonCmdAccept_announced_iff (env : Env) (a : CString) (node : Node) :
    ((daemonCmdAccept env (some a) node).ret = 0 →
        AcceptAnnounced env (peerIdArg a) node (daemonCmdAccept env (some a) node).response
          (daemonCmdAccept env (some a) node).node) ↔
      ∀ p, stateGetPeer (peerIdArg a) node.shared.sm = some p → p.state = .requestReceived →
        stateGetGhostCount (peerIdArg a) node.shared.sm = 0 ∧
          (p.ip ≠ [] → 0 < p.port → p2pIsConnected (peerIdArg a) node = false) := by
  rw [daemonCmdAccept_ret_iff]
  by_cases asked : ∃ p, stateGetPeer (peerIdArg a) node.shared.sm = some p ∧ p.state = .requestReceived
  swap
  · exact iff_of_true (fun ok => absurd ok asked) fun p found received => absurd ⟨p, found, received⟩ asked
  obtain ⟨p, found, received⟩ := asked
  have short := length_peerIdArg_lt a
  have friend := (daemonCmdAccept_received short found received env).2
  rw [daemonCmdAccept_peerIdArg] at friend
  have delivered := (deliver_counts env.now (peerIdArg a)
    (acceptedNode env (peerIdArg a) p node).2.shared.toStore).2
  have nothing (text : CString) : ¬ TextLeft env (peerIdArg a) text node
      ((acceptedNode env (peerIdArg a) p node).2.onStore fun s => s.deliver env.now (peerIdArg a)) := by
    rintro ⟨c, payload, -, -, left⟩
    have sends := (acceptedNode_quiet env (peerIdArg a) p node).2
    exact SendsOnly.not_mem (sends.trans (.of_trace rfl)) (by decide) payload c.val.addr left
  rw [daemonCmdAccept_eq found received] at friend ⊢
  unfold AcceptAnnounced
  dsimp only at friend ⊢
  constructor
  · intro announced q known _
    obtain rfl := Option.some.inj (found.symm.trans known)
    obtain ⟨-, left, -, response⟩ := announced ⟨p, found, received⟩
    refine ⟨?_, fun ip port => ?_⟩
    · rw [← length_pendingMessages, List.length_eq_zero_iff, List.eq_nil_iff_forall_not_mem]
      exact fun gm pending => nothing gm.message (left gm pending)
    · rw [← Bool.not_eq_true]
      intro connected
      have failed := acceptedNode_of_connected env ip port connected
      rw [if_neg failed] at response
      rcases response with same | ⟨-, offline⟩
      · exact acceptText_offline_ne short _ same
      · have still := (acceptedNode_failed failed).2.symm.trans offline
        rw [connected] at still
        cases still
  · intro honest _
    obtain ⟨none_, apart⟩ := honest p found received
    refine ⟨friend, fun gm pending => ?_, delivered, ?_⟩
    · rw [← length_pendingMessages, List.length_eq_zero_iff] at none_
      rw [none_] at pending
      cases pending
    · by_cases ok : (acceptedNode env (peerIdArg a) p node).1 = 0
      · rw [if_pos ok]
        exact Or.inl rfl
      · obtain ⟨address, same⟩ := acceptedNode_failed ok
        rw [if_neg ok]
        exact Or.inr ⟨rfl, same.trans (apart address.1 address.2)⟩

/-- What the reply of `reject` says is so: the record that asked is gone. -/
def RejectAnnounced (peerId : CString) (before after : Node) : Prop :=
  ∃ c, findRecord (normalizeId peerId) before.shared.sm.peers = some c ∧
    after.shared.sm.peers = c.erase

theorem daemonCmdReject_announced (a : CString) (node : Node) :
    ((daemonCmdReject (some a) node).ret = 0 ↔
      ∃ p, stateGetPeer (peerIdArg a) node.shared.sm = some p ∧ p.state = .requestReceived) ∧
    ((daemonCmdReject (some a) node).ret = 0 →
      RejectAnnounced (peerIdArg a) node (daemonCmdReject (some a) node).node) := by
  have arg : daemonCmdReject (some (peerIdArg a)) node = daemonCmdReject (some a) node := by
    unfold daemonCmdReject
    dsimp only
    rw [peerIdArg_of_lt (length_peerIdArg_lt a)]
  cases found : stateGetPeer (peerIdArg a) node.shared.sm with
  | none =>
    have refused : (daemonCmdReject (some a) node).ret = -1 := by
      unfold daemonCmdReject
      dsimp only
      rw [found]
      rfl
    rw [refused]
    exact ⟨failed_iff (by simp), fun ok => by cases ok⟩
  | some p =>
    by_cases received : p.state = .requestReceived
    · obtain ⟨ret, gone⟩ := daemonCmdReject_received (length_peerIdArg_lt a) found received
      rw [arg] at ret gone
      exact ⟨iff_of_true ret ⟨p, rfl, received⟩, fun _ => gone⟩
    · have refused : (daemonCmdReject (some a) node).ret = -1 := by
        unfold daemonCmdReject
        dsimp only
        rw [found]
        dsimp only
        rw [if_pos received]
        rfl
      rw [refused]
      exact ⟨failed_iff (by simpa using received), fun ok => by cases ok⟩

/-! ## What `ghost` announces -/

/-- What the reply of `ghost` says is so: the message is among those stored for the id. -/
def GhostAnnounced (peerId text : CString) (before after : StateManager) : Prop :=
  ∃ gm : GhostMessage, gm.message = text ∧
    stateGetGhostMessages peerId maxGhostMessages after =
      stateGetGhostMessages peerId maxGhostMessages before ++ [gm]

theorem ghostAnnounced_iff (now : Time) (rand : ℕ) (peerId text : CString) (sm : StateManager) :
    GhostAnnounced peerId text sm (stateAddGhostMessage now rand peerId text sm).2
      ↔ normalizeId peerId ≠ [] ∧ sm.ghosts.length < maxGhostMessages := by
  unfold stateAddGhostMessage
  dsimp only
  by_cases empty : normalizeId peerId = []
  · rw [if_pos empty]
    refine iff_of_false ?_ fun ok => ok.1 empty
    rintro ⟨gm, -, same⟩
    exact absurd (congrArg List.length same) (by simp)
  rw [if_neg empty]
  by_cases full : maxGhostMessages ≤ sm.ghosts.length
  · rw [if_pos full]
    refine iff_of_false ?_ fun ok => Nat.not_lt.2 full ok.2
    rintro ⟨gm, -, same⟩
    exact absurd (congrArg List.length same) (by simp)
  rw [if_neg full]
  have room := Nat.lt_of_not_le full
  refine iff_of_true ?_ ⟨empty, room⟩
  have all : ¬ (normalizeId peerId = [] ∨ ((maxGhostMessages : ℕ) : ℤ) ≤ 0) := by
    rintro (h | h)
    · exact empty h
    · exact absurd h (by decide)
  let gm : GhostMessage :=
    { id := cut 64 (ascii "ghost_" ++ decimal now ++ ascii "_" ++ decimal ((rand % 10000 : ℕ) : ℤ))
      fromId := []
      toId := normalizeId peerId
      message := text
      timestamp := now
      delivered := false
      deliveredAt := 0
      retryCount := 0 }
  have pending : gm.pendingFor (normalizeId peerId) = true := by
    show (isSameId (normalizeId peerId) (normalizeId peerId) && !false) = true
    rw [isSameId_self]
    rfl
  have below := List.length_filter_le (GhostMessage.pendingFor (normalizeId peerId)) sm.ghosts
  refine ⟨gm, rfl, ?_⟩
  unfold stateGetGhostMessages
  rw [if_neg all, if_neg all, collect_eq, collect_eq, Int.toNat_natCast]
  show ((sm.ghosts ++ [gm]).filter _).take _ = _
  rw [List.filter_append, List.filter_cons_of_pos pending, List.filter_nil,
    List.take_of_length_le (by rw [List.length_append, List.length_singleton]; omega),
    List.take_of_length_le (by omega)]

/-! ## What a command announces -/

/-- What the reply says of the text is so: it left for the peer in one datagram. -/
def ChatAnnounced (env : Env) (peerId text : CString) (before after : Node) : Prop :=
  ∃ c payload, findPeer peerId before.peers = some c ∧ Carries env c.val text payload ∧
    datagramsTo c.val.addr (news before after) = [(P2PMessage.make env.now .data payload).toBytes]

theorem daemonCmdChatSend_announced {env : Env} {a peerId text : CString}
    (split : splitArgs a = some (peerId, text)) {node : Node}
    (ok : (daemonCmdChatSend env (some a) node).ret = 0) :
    ChatAnnounced env peerId text node (daemonCmdChatSend env (some a) node).node := by
  have sent := (daemonCmdChatSend_ret_iff env split node).1 ok
  have connected := connected_of_sends sent
  have accepted := (p2pSend_ret_iff env peerId text node).2 sent
  obtain ⟨c, found, -⟩ := (Option.any_eq_true _ _).1 connected
  obtain ⟨payload, carries, datagrams⟩ := p2pSend_accepted found accepted
  refine ⟨c, payload, found, carries, ?_⟩
  unfold daemonCmdChatSend
  dsimp only
  rw [split]
  dsimp only
  rw [connected, Bool.not_true, if_neg Bool.false_ne_true, if_pos accepted]
  exact datagrams

/-- What the reply of a command announces.  `identity`, `search`, `peers` and `status` only tell. -/
def Announced (env : DaemonEnv) (args : Option CString) (d : Daemon) (r : DaemonReply) :
    CommandName → Prop
  | .listen => 0 ≤ r.daemon.announced ∧ r.daemon.node.initialized = true
  | .add =>
    ∀ a, args = some a → AddAnnounced env.toEnv (peerIdArg a) d.node r.response r.daemon.node
  | .accept =>
    ∀ a, args = some a → AcceptAnnounced env.toEnv (peerIdArg a) d.node r.response r.daemon.node
  | .reject => ∀ a, args = some a → RejectAnnounced (peerIdArg a) d.node r.daemon.node
  | .chatSend =>
    ∀ a peerId text, args = some a → splitArgs a = some (peerId, text) →
      ChatAnnounced env.toEnv peerId text d.node r.daemon.node
  | .ghost =>
    ∀ a peerId text, args = some a → splitArgs a = some (peerId, text) →
      GhostAnnounced peerId text d.sm r.daemon.sm
  | .stop => r.daemon.running = false
  | .identity | .search | .peers | .status => True

/-- Where the reply of a command is true. -/
def Honest (env : DaemonEnv) (d : Daemon) (args : Option CString) : CommandName → Prop
  | .listen =>
    if d.dht then 0 ≤ d.announced ∧ d.node.initialized = true
    else
      ∀ identity, env.identity = some identity → env.dhtNodeCreate = true → 0 ≤ env.dhtNodeStart →
        0 ≤ announceIdentity env identity ∧ (d.node.initialized = true ∨ 0 ≤ env.p2pSocket)
  | .add =>
    ∀ a, args = some a → normalizeId (peerIdArg a) ≠ [] ∧
        (stateGetPeer (peerIdArg a) d.sm ≠ none ∨ d.sm.peers.length < maxPeers) →
      IsFriend (peerIdArg a) d.sm
  | .accept =>
    ∀ a p, args = some a → stateGetPeer (peerIdArg a) d.sm = some p → p.state = .requestReceived →
      stateGetGhostCount (peerIdArg a) d.sm = 0 ∧
        (p.ip ≠ [] → 0 < p.port → p2pIsConnected (peerIdArg a) d.node = false)
  | .peers => listingStart d ≤ listingSize
  | .chatSend =>
    ∀ a peerId text, args = some a → splitArgs a = some (peerId, text) → peerId.length < idSize
  | .ghost =>
    ∀ a peerId text, args = some a → splitArgs a = some (peerId, text) →
      peerId.length < idSize ∧ normalizeId peerId ≠ [] ∧ d.sm.ghosts.length < maxGhostMessages
  | .identity | .search | .reject | .status | .stop => True

/-- A command is well behaved: it stays within its arrays, and where it returns 0 its reply is
true. -/
def Truthful (env : DaemonEnv) (args : Option CString) (d : Daemon) (name : CommandName) : Prop :=
  ∃ r, runCommand env name args d = some r ∧ (r.ret = 0 → Announced env args d r name)

theorem idFits_iff {args : Option CString} :
    idFits args = true ↔
      ∀ a peerId text, args = some a → splitArgs a = some (peerId, text) → peerId.length < idSize := by
  unfold idFits
  rw [Option.all_eq_true]
  constructor
  · rintro h a peerId text rfl split
    exact of_decide_eq_true (h (peerId, text) split)
  · rintro h ⟨peerId, text⟩ found
    obtain ⟨a, rfl, split⟩ := Option.bind_eq_some_iff.1 found
    exact decide_eq_true (h a peerId text rfl split)

theorem truthful_iff_of_runs {env : DaemonEnv} {args : Option CString} {d : Daemon}
    {name : CommandName} {r : DaemonReply} (runs : runCommand env name args d = some r) :
    Truthful env args d name ↔ (r.ret = 0 → Announced env args d r name) := by
  unfold Truthful
  rw [runs]
  constructor
  · rintro ⟨_, h, true_⟩
    obtain rfl := Option.some.inj h
    exact true_
  · intro true_
    exact ⟨r, rfl, true_⟩

theorem p2pInit_snd (env : DaemonEnv) (node : Node) :
    (p2pInit env node).2.initialized = true ↔ node.initialized = true ∨ 0 ≤ env.p2pSocket := by
  unfold p2pInit
  by_cases before : node.initialized = true
  · rw [if_pos before]
    exact iff_of_true before (Or.inl before)
  · rw [if_neg before]
    by_cases socket : env.p2pSocket < 0
    · rw [if_pos socket]
      exact iff_of_false before fun h => h.elim before (Int.not_le.2 socket)
    · rw [if_neg socket]
      exact iff_of_true rfl (Or.inr (Int.not_lt.1 socket))

theorem daemonCmdListen_iff (env : DaemonEnv) (d : Daemon) :
    ((daemonCmdListen env d).ret = 0 ↔
      d.dht = true ∨ env.identity ≠ none ∧ env.dhtNodeCreate = true ∧ 0 ≤ env.dhtNodeStart) ∧
    (((daemonCmdListen env d).ret = 0 →
        0 ≤ (daemonCmdListen env d).daemon.announced ∧
          (daemonCmdListen env d).daemon.node.initialized = true) ↔
      if d.dht then 0 ≤ d.announced ∧ d.node.initialized = true
      else
        ∀ identity, env.identity = some identity → env.dhtNodeCreate = true → 0 ≤ env.dhtNodeStart →
          0 ≤ announceIdentity env identity ∧
            (d.node.initialized = true ∨ 0 ≤ env.p2pSocket)) := by
  unfold daemonCmdListen
  cases hdht : d.dht with
  | true => exact ⟨iff_of_true rfl (Or.inl rfl), ⟨fun h => h rfl, fun h _ => h⟩⟩
  | false =>
    rw [if_neg Bool.false_ne_true, if_neg Bool.false_ne_true]
    cases env.identity with
    | none => exact ⟨failed_iff (by simp), iff_of_true (fun ok => by cases ok) (by simp)⟩
    | some identity =>
      dsimp only
      by_cases created : env.dhtNodeCreate = true
      swap
      · rw [Bool.eq_false_iff.2 created, Bool.not_false, if_pos rfl]
        exact ⟨failed_iff (by simp), iff_of_true (fun ok => by cases ok) (by simp)⟩
      rw [created, Bool.not_true, if_neg Bool.false_ne_true]
      by_cases started : env.dhtNodeStart < 0
      · rw [if_pos started]
        refine ⟨failed_iff fun ok => ?_, iff_of_true (fun ok => by cases ok) ?_⟩
        · exact ok.elim Bool.false_ne_true fun ok => Int.not_le.2 started ok.2.2
        · intro _ _ _ ok
          exact absurd ok (Int.not_le.2 started)
      · rw [if_neg started]
        have ok := Int.not_lt.1 started
        refine ⟨iff_of_true rfl (Or.inr ⟨by simp, rfl, ok⟩), ?_⟩
        constructor
        · intro h identity' same _ _
          obtain rfl := Option.some.inj same
          obtain ⟨announced, ready⟩ := h rfl
          exact ⟨announced, (p2pInit_snd env d.node).1 ready⟩
        · intro h _
          obtain ⟨announced, ready⟩ := h identity rfl rfl ok
          exact ⟨announced, (p2pInit_snd env d.node).2 ready⟩

/-- A command is truthful exactly where it is honest. -/
theorem truthful_iff (env : DaemonEnv) (args : Option CString) (d : Daemon) (name : CommandName) :
    Truthful env args d name ↔ Honest env d args name := by
  cases name with
  | listen =>
    rw [truthful_iff_of_runs rfl]
    exact (daemonCmdListen_iff env d).2
  | add =>
    rw [truthful_iff_of_runs rfl]
    cases args with
    | none => exact iff_of_true (fun ok => by cases ok) (by simp [Honest])
    | some a =>
      have announced := (daemonCmdAdd_announced_iff env.toEnv a d.node).2
      constructor
      · intro h b same
        obtain rfl := Option.some.inj same
        exact announced.1 fun ok => h ok a rfl
      · intro h ok b same
        obtain rfl := Option.some.inj same
        exact announced.2 (h a rfl) ok
  | accept =>
    rw [truthful_iff_of_runs rfl]
    cases args with
    | none => exact iff_of_true (fun ok => by cases ok) (by simp [Honest])
    | some a =>
      have announced := daemonCmdAccept_announced_iff env.toEnv a d.node
      constructor
      · intro h b p same
        obtain rfl := Option.some.inj same
        exact announced.1 (fun ok => h ok a rfl) p
      · intro h ok b same
        obtain rfl := Option.some.inj same
        exact announced.2 (fun p => h a p rfl) ok
  | reject =>
    rw [truthful_iff_of_runs rfl]
    refine iff_of_true ?_ trivial
    rintro ok a rfl
    exact (daemonCmdReject_announced a d.node).2 ok
  | peers =>
    show (∃ r, daemonCmdPeers d = some r ∧ (r.ret = 0 → True)) ↔ _
    have listed := daemonCmdPeers_eq_none_iff d
    cases h : daemonCmdPeers d with
    | none => exact iff_of_false (by simp) (Nat.not_le.2 (listed.1 h))
    | some r =>
      refine iff_of_true ⟨r, rfl, fun _ => trivial⟩ (Nat.not_lt.1 fun outside => ?_)
      rw [listed.2 outside] at h
      cases h
  | chatSend =>
    show _ ↔ ∀ a peerId text, args = some a → splitArgs a = some (peerId, text) → _
    rw [← idFits_iff]
    by_cases fits : idFits args = true
    · have runs : runCommand env .chatSend args d =
          some ((daemonCmdChatSend env.toEnv args d.node).toDaemon d) := if_pos fits
      rw [truthful_iff_of_runs runs]
      refine iff_of_true ?_ fits
      rintro ok a peerId text rfl split
      exact daemonCmdChatSend_announced split ok
    · exact iff_of_false (not_runs_of_long (Or.inl rfl) fits _) fits
  | ghost =>
    by_cases fits : idFits args = true
    · have runs : runCommand env .ghost args d =
          some ((daemonCmdGhost env.toEnv args d.node).toDaemon d) := if_pos fits
      rw [truthful_iff_of_runs runs]
      have stored {a peerId text : CString} (split : splitArgs a = some (peerId, text)) :
          GhostAnnounced peerId text d.sm (daemonCmdGhost env.toEnv (some a) d.node).node.shared.sm ↔
            normalizeId peerId ≠ [] ∧ d.sm.ghosts.length < maxGhostMessages := by
        unfold daemonCmdGhost
        dsimp only
        rw [split]
        exact ghostAnnounced_iff env.now env.rand peerId text d.sm
      constructor
      · rintro h a peerId text rfl split
        have ok := (daemonCmdGhost_ret_iff env.toEnv (some a) d.node).2 ⟨a, peerId, text, rfl, split⟩
        exact ⟨idFits_iff.1 fits a peerId text rfl split,
          (stored split).1 (h ok a peerId text rfl split)⟩
      · rintro h - a peerId text rfl split
        exact (stored split).2 (h a peerId text rfl split).2
    · exact iff_of_false (not_runs_of_long (Or.inr rfl) fits _) fun h =>
        fits (idFits_iff.2 fun a peerId text found split => (h a peerId text found split).1)
  | stop => exact iff_of_true ⟨_, rfl, fun _ => rfl⟩ trivial
  | identity | search | status => exact iff_of_true ⟨_, rfl, fun _ => trivial⟩ trivial

theorem returns_zero_of_runs {env : DaemonEnv} {args : Option CString} {d : Daemon}
    {name : CommandName} {r : DaemonReply} (runs : runCommand env name args d = some r) :
    (∃ r, runCommand env name args d = some r ∧ r.ret = 0) ↔ r.ret = 0 := by
  rw [runs]
  constructor
  · rintro ⟨_, h, ok⟩
    rwa [Option.some.inj h]
  · intro ok
    exact ⟨r, rfl, ok⟩

theorem daemonCmdSearch_ret_iff (env : Env) (dht : Option (CString → Option (IpText × ℤ))) (a : CString)
    (node : Node) : (daemonCmdSearch env dht (some a) node).ret = 0 ↔
      ∃ lookup, dht = some lookup ∧ lookup (peerIdArg a) ≠ none := by
  unfold daemonCmdSearch
  cases dht with
  | none => exact failed_iff (by simp)
  | some lookup =>
    dsimp only
    cases found : lookup (peerIdArg a) with
    | none =>
      refine iff_of_false (fun ok => by cases ok) ?_
      rintro ⟨lookup', same, known⟩
      obtain rfl := Option.some.inj same
      exact known found
    | some place => exact iff_of_true rfl ⟨lookup, rfl, by simp [found]⟩

/-- A command returns 0 exactly where it succeeds. -/
theorem returns_zero_iff (env : DaemonEnv) (args : Option CString) (d : Daemon) (name : CommandName) :
    (∃ r, runCommand env name args d = some r ∧ r.ret = 0) ↔ Succeeds env d args name := by
  cases name with
  | identity =>
    rw [returns_zero_of_runs rfl]
    show (daemonCmdIdentity env d).ret = 0 ↔ env.identity ≠ none
    unfold daemonCmdIdentity
    cases env.identity with
    | none => exact failed_iff (by simp)
    | some identity => exact iff_of_true rfl (by simp)
  | listen =>
    rw [returns_zero_of_runs rfl]
    exact (daemonCmdListen_iff env d).1
  | search =>
    rw [returns_zero_of_runs rfl]
    cases args with
    | none => exact failed_iff (by simp [Succeeds])
    | some a =>
      refine (daemonCmdSearch_ret_iff env.toEnv _ a d.node).trans ?_
      cases hdht : d.dht <;> simp [Succeeds, hdht]
  | add =>
    rw [returns_zero_of_runs rfl]
    cases args with
    | none => exact failed_iff (by simp [Succeeds])
    | some a =>
      refine (daemonCmdAdd_announced_iff env.toEnv a d.node).1.trans ?_
      simp [Succeeds, Daemon.sm]
  | accept =>
    rw [returns_zero_of_runs rfl]
    cases args with
    | none => exact failed_iff (by simp [Succeeds])
    | some a =>
      refine (daemonCmdAccept_ret_iff env.toEnv a d.node).trans ?_
      simp [Succeeds, Daemon.sm]
  | reject =>
    rw [returns_zero_of_runs rfl]
    cases args with
    | none => exact failed_iff (by simp [Succeeds])
    | some a =>
      refine (daemonCmdReject_announced a d.node).1.trans ?_
      simp [Succeeds, Daemon.sm]
  | peers =>
    show (∃ r, daemonCmdPeers d = some r ∧ r.ret = 0) ↔ listingStart d ≤ listingSize
    have listed := daemonCmdPeers_eq_none_iff d
    cases h : daemonCmdPeers d with
    | none => exact iff_of_false (by simp) (Nat.not_le.2 (listed.1 h))
    | some r =>
      have ret : r.ret = 0 := by
        unfold daemonCmdPeers at h
        dsimp only at h
        split_ifs at h
        · rw [← Option.some.inj h]
          rfl
        · obtain ⟨text, -, rfl⟩ := Option.map_eq_some_iff.1 h
          rfl
      refine iff_of_true ⟨r, rfl, ret⟩ (Nat.not_lt.1 fun outside => ?_)
      rw [listed.2 outside] at h
      cases h
  | chatSend =>
    by_cases fits : idFits args = true
    · have runs : runCommand env .chatSend args d =
          some ((daemonCmdChatSend env.toEnv args d.node).toDaemon d) := if_pos fits
      rw [returns_zero_of_runs runs]
      constructor
      · intro ok
        obtain ⟨a, peerId, text, rfl, split⟩ := exists_split_of_chatSend ok
        exact ⟨a, peerId, text, rfl, split, idFits_iff.1 fits a _ _ rfl split,
          (daemonCmdChatSend_ret_iff env.toEnv split d.node).1 ok⟩
      · rintro ⟨a, peerId, text, rfl, split, -, sent⟩
        exact (daemonCmdChatSend_ret_iff env.toEnv split d.node).2 sent
    · refine iff_of_false (not_runs_of_long (Or.inl rfl) fits _) ?_
      rintro ⟨a, peerId, text, rfl, split, short, -⟩
      exact fits (idFits_of_split split short)
  | ghost =>
    by_cases fits : idFits args = true
    · have runs : runCommand env .ghost args d =
          some ((daemonCmdGhost env.toEnv args d.node).toDaemon d) := if_pos fits
      rw [returns_zero_of_runs runs]
      refine (daemonCmdGhost_ret_iff env.toEnv args d.node).trans ?_
      constructor
      · rintro ⟨a, peerId, text, rfl, split⟩
        exact ⟨a, peerId, text, rfl, split, idFits_iff.1 fits a _ _ rfl split⟩
      · rintro ⟨a, peerId, text, found, split, -⟩
        exact ⟨a, peerId, text, found, split⟩
    · refine iff_of_false (not_runs_of_long (Or.inr rfl) fits _) ?_
      rintro ⟨a, peerId, text, rfl, split, short⟩
      exact fits (idFits_of_split split short)
  | status | stop => exact iff_of_true ⟨_, rfl, rfl⟩ trivial

end Orcashi
