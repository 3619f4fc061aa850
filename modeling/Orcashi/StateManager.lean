import Orcashi.Lib.Cursor
import Orcashi.PeerId

/-!
# The state manager

What the node knows about other peers: a table of records, the messages stored for peers that are
away (ghost messages) and a log of messages.  `time(NULL)` is a parameter `now` of the functions
that read it.  Every function takes `g_state_mutex` for the whole of its work, so a call is one
step.
-/

namespace Orcashi

open CMemory

/-! ## Data -/

/-- `PeerState`; a value loaded from disk need not be one of the named ones. -/
inductive PeerState where
  | unknown
  | requestSent
  | requestReceived
  | friend
  | online
  | offline
  | busy
  | ghost
  | other (code : ℤ)
  deriving DecidableEq

/-- `Peer` -/
structure Peer where
  id : CString
  state : PeerState
  online : Bool
  busy : Bool
  isSecure : Bool
  ip : CString
  port : ℤ
  lastSeen : Time
  createdAt : Time
  requestSentAt : Time
  requestReceivedAt : Time
  friendSince : Time
  pendingMessages : ℤ
  ghostCount : ℤ
  publicKey : CString
  name : CString
  deriving DecidableEq

/-- A record of the table after `memset`. -/
def Peer.zero : Peer where
  id := []
  state := .unknown
  online := false
  busy := false
  isSecure := false
  ip := []
  port := 0
  lastSeen := 0
  createdAt := 0
  requestSentAt := 0
  requestReceivedAt := 0
  friendSince := 0
  pendingMessages := 0
  ghostCount := 0
  publicKey := []
  name := []

/-- `GhostMessage` -/
structure GhostMessage where
  id : CString
  fromId : CString
  toId : CString
  message : CString
  timestamp : Time
  delivered : Bool
  deliveredAt : Time
  retryCount : ℤ
  deriving DecidableEq

/-- `MAX_PEERS` -/
def maxPeers : ℕ := 256

/-- `MAX_GHOST_MESSAGES` -/
def maxGhostMessages : ℕ := 1024

/-- `MAX_MESSAGES` -/
def maxMessages : ℕ := 4096

/-- `sizeof(g_messages[0])`. -/
def messageSize : ℕ := 4096

/-- The tables of the state manager.  `stale` is what the slots of `g_peers` from `g_peer_count` on
still hold. -/
structure StateManager where
  peers : List Peer
  stale : List Peer
  ghosts : List GhostMessage
  messages : List CString
  deriving DecidableEq

/-- The state manager after `state_init` without a state file. -/
def StateManager.init : StateManager := ⟨[], [], [], []⟩

/-! ## Records -/

/-- The search all functions share: the first record that `is_same_id` accepts. -/
def findRecord (normId : CString) (peers : List Peer) : Option (Cursor Peer) :=
  Cursor.find (fun p => isSameId p.id normId) peers

/-- `state_get_peer` -/
def stateGetPeer (id : CString) (sm : StateManager) : Option Peer :=
  if normalizeId id = [] then none
  else (findRecord (normalizeId id) sm.peers).map Cursor.val

/-- Write through the pointer `state_get_peer` returns; without a record, -1. -/
def modifyPeer (id : CString) (f : Peer → Peer) (sm : StateManager) : ℤ × StateManager :=
  if normalizeId id = [] then (-1, sm)
  else
    match findRecord (normalizeId id) sm.peers with
    | none => (-1, sm)
    | some c => (0, { sm with peers := (c.set (f c.val)).toList })

/-- `state_add_peer` -/
def stateAddPeer (now : Time) (id : CString) (sm : StateManager) : ℤ × StateManager :=
  let normId := normalizeId id
  if normId = [] then (-1, sm)
  else if (findRecord normId sm.peers).isSome then (0, sm)
  else if maxPeers ≤ sm.peers.length then (-1, sm)
  else
    -- the slot is not cleared: what is not assigned keeps the value of the record last in it
    let p : Peer :=
      { sm.stale.headD Peer.zero with
        id := normId
        state := .unknown
        online := false
        busy := false
        isSecure := false
        port := 0
        createdAt := now
        lastSeen := now
        pendingMessages := 0
        ghostCount := 0
        ip := []
        publicKey := []
        name := [] }
    (0, { sm with peers := sm.peers ++ [p], stale := sm.stale.tail })

/-- What `state_add_peer` makes of the slot of a record `old`. -/
def Peer.renewed (old : Peer) (now : Time) (normId : CString) : Peer :=
  { Peer.zero with
    id := normId
    createdAt := now
    lastSeen := now
    requestSentAt := old.requestSentAt
    requestReceivedAt := old.requestReceivedAt
    friendSince := old.friendSince }

/-- The ways out of `state_add_peer`. -/
theorem stateAddPeer_cases (now : Time) (id : CString) (sm : StateManager) :
    (normalizeId id = [] ∧ stateAddPeer now id sm = (-1, sm)) ∨
    (normalizeId id ≠ [] ∧
      ((∃ c, findRecord (normalizeId id) sm.peers = some c ∧ stateAddPeer now id sm = (0, sm)) ∨
        (findRecord (normalizeId id) sm.peers = none ∧ maxPeers ≤ sm.peers.length ∧
          stateAddPeer now id sm = (-1, sm)) ∨
        (findRecord (normalizeId id) sm.peers = none ∧ sm.peers.length < maxPeers ∧
          stateAddPeer now id sm =
            (0, { sm with
              peers := sm.peers ++ [(sm.stale.headD Peer.zero).renewed now (normalizeId id)]
              stale := sm.stale.tail })))) := by
  unfold stateAddPeer
  dsimp only
  by_cases hid : normalizeId id = []
  · rw [if_pos hid]
    exact Or.inl ⟨hid, rfl⟩
  · rw [if_neg hid]
    refine Or.inr ⟨hid, ?_⟩
    cases hf : findRecord (normalizeId id) sm.peers with
    | some c => exact Or.inl ⟨c, rfl, rfl⟩
    | none =>
      rw [Option.isSome_none, if_neg Bool.false_ne_true]
      by_cases full : maxPeers ≤ sm.peers.length
      · rw [if_pos full]
        exact Or.inr (Or.inl ⟨rfl, full, rfl⟩)
      · rw [if_neg full]
        exact Or.inr (Or.inr ⟨rfl, Nat.lt_of_not_le full, rfl⟩)

/-- `state_update_peer` -/
def stateUpdatePeer (now : Time) (id : CString) (state : PeerState) :
    StateManager → ℤ × StateManager :=
  modifyPeer id fun p =>
    { p with
      state := state
      lastSeen := now
      friendSince := if state = .friend then now else p.friendSince }

/-- `state_remove_peer` -/
def stateRemovePeer (id : CString) (sm : StateManager) : ℤ × StateManager :=
  if normalizeId id = [] then (-1, sm)
  else
    match findRecord (normalizeId id) sm.peers with
    | none => (-1, sm)
    | some c =>
      -- the records after it move down by one; the last of them also stays where it was
      (0, { sm with peers := c.erase, stale := c.after.getLastD c.val :: sm.stale })

/-- `state_set_online` -/
def stateSetOnline (now : Time) (id : CString) (online : Bool) : StateManager → ℤ × StateManager :=
  modifyPeer id fun p => { p with online := online, lastSeen := now }

/-- `state_set_busy` -/
def stateSetBusy (id : CString) (busy : Bool) : StateManager → ℤ × StateManager :=
  modifyPeer id fun p => { p with busy := busy }

/-- `state_set_ip` -/
def stateSetIp (id ip : CString) : StateManager → ℤ × StateManager :=
  modifyPeer id fun p => { p with ip := ip }

/-- `state_set_port` -/
def stateSetPort (id : CString) (port : ℤ) : StateManager → ℤ × StateManager :=
  modifyPeer id fun p => { p with port := port }

/-- `state_set_secure` -/
def stateSetSecure (id : CString) (secure : Bool) : StateManager → ℤ × StateManager :=
  modifyPeer id fun p => { p with isSecure := secure }

/-- `state_set_name` -/
def stateSetName (id name : CString) : StateManager → ℤ × StateManager :=
  modifyPeer id fun p => { p with name := name }

/-- `state_set_public_key` -/
def stateSetPublicKey (id pubkey : CString) : StateManager → ℤ × StateManager :=
  modifyPeer id fun p => { p with publicKey := pubkey }

/-- `state_update_last_seen` -/
def stateUpdateLastSeen (now : Time) (id : CString) : StateManager → ℤ × StateManager :=
  modifyPeer id fun p => { p with lastSeen := now }

/-! ## Queries -/

/-- The loop that copies what satisfies `p` into an array of `max` entries. -/
def collect {α : Type*} (p : α → Bool) : ℕ → List α → List α
  | 0, _ => []
  | _ + 1, [] => []
  | max + 1, a :: l => if p a then a :: collect p max l else collect p (max + 1) l

theorem collect_eq {α : Type*} (p : α → Bool) (max : ℕ) (l : List α) :
    collect p max l = (l.filter p).take max := by
  induction l generalizing max with
  | nil => cases max <;> simp [collect]
  | cons a l ih =>
    cases max with
    | zero => simp [collect]
    | succ max => by_cases ha : p a = true <;> simp [collect, ha, ih]

/-- `state_get_peers` -/
def stateGetPeers (max : ℤ) (sm : StateManager) : List Peer :=
  if max ≤ 0 then [] else collect (fun _ => true) max.toNat sm.peers

/-- `state_get_count` -/
def stateGetCount (sm : StateManager) : ℕ := sm.peers.length

/-- `state_is_online` -/
def stateIsOnline (id : CString) (sm : StateManager) : Bool :=
  (stateGetPeer id sm).any fun p => p.online

/-- `state_is_friend` -/
def stateIsFriend (id : CString) (sm : StateManager) : Bool :=
  (stateGetPeer id sm).any fun p => p.state == .friend

/-- `state_is_busy` -/
def stateIsBusy (id : CString) (sm : StateManager) : Bool :=
  (stateGetPeer id sm).any fun p => p.busy

/-- `state_get_state` -/
def stateGetState (id : CString) (sm : StateManager) : PeerState :=
  match stateGetPeer id sm with
  | none => .unknown
  | some p => p.state

/-- The condition of the loops over requests. -/
def Peer.isPending (p : Peer) : Bool := p.state == .requestSent || p.state == .requestReceived

/-- `state_get_pending` -/
def stateGetPending (max : ℤ) (sm : StateManager) : List Peer :=
  if max ≤ 0 then [] else collect Peer.isPending max.toNat sm.peers

/-- `state_get_pending_count` -/
def stateGetPendingCount (sm : StateManager) : ℕ := sm.peers.countP Peer.isPending

/-- `state_has_pending_request` -/
def stateHasPendingRequest (id : CString) (sm : StateManager) : Bool :=
  (stateGetPeer id sm).any Peer.isPending

/-- `state_get_friends` -/
def stateGetFriends (max : ℤ) (sm : StateManager) : List Peer :=
  if max ≤ 0 then [] else collect (fun p => p.state == .friend) max.toNat sm.peers

/-- `state_get_friend_count` -/
def stateGetFriendCount (sm : StateManager) : ℕ := sm.peers.countP fun p => p.state == .friend

/-! ## Ghost messages and the log -/

/-- The messages a delivery for `normId` finds. -/
def GhostMessage.pendingFor (normId : CString) (gm : GhostMessage) : Bool :=
  isSameId gm.toId normId && !gm.delivered

/-- `g_peers[i].ghost_count` of the first record of that id. -/
def adjustGhostCount (normId : CString) (f : ℤ → ℤ) (peers : List Peer) : List Peer :=
  match findRecord normId peers with
  | none => peers
  | some c => (c.set { c.val with ghostCount := f c.val.ghostCount }).toList

/-- `rand` is what `rand()` returns.  `from_id` of the new entry keeps the zeros of `state_init`,
as no entry is ever removed. -/
def stateAddGhostMessage (now : Time) (rand : ℕ) (toId message : CString) (sm : StateManager) :
    ℤ × StateManager :=
  let normId := normalizeId toId
  if normId = [] then (-1, sm)
  else if maxGhostMessages ≤ sm.ghosts.length then (-1, sm)
  else
    let gm : GhostMessage :=
      { id := cut 64 (ascii "ghost_" ++ decimal now ++ ascii "_" ++ decimal ((rand % 10000 : ℕ) : ℤ))
        fromId := []
        toId := normId
        message := message
        timestamp := now
        delivered := false
        deliveredAt := 0
        retryCount := 0 }
    (0, { sm with
      ghosts := sm.ghosts ++ [gm]
      peers := adjustGhostCount normId (· + 1) sm.peers })

/-- `state_get_ghost_messages` -/
def stateGetGhostMessages (toId : CString) (max : ℤ) (sm : StateManager) : List GhostMessage :=
  if normalizeId toId = [] ∨ max ≤ 0 then []
  else collect (GhostMessage.pendingFor (normalizeId toId)) max.toNat sm.ghosts

/-- `state_get_ghost_count` -/
def stateGetGhostCount (toId : CString) (sm : StateManager) : ℕ :=
  if normalizeId toId = [] then 0
  else sm.ghosts.countP (GhostMessage.pendingFor (normalizeId toId))

/-- `state_add_message` -/
def stateAddMessage (fromId message : CString) (sm : StateManager) : ℤ × StateManager :=
  if maxMessages ≤ sm.messages.length then (-1, sm)
  else
    (0, { sm with messages := sm.messages ++ [cut messageSize (fromId ++ ascii "|" ++ message)] })

/-! ## Frames -/

/-- Nothing that is stored under another id than `x` has changed. -/
structure StateManager.FrameExcept (x : CString) (sm sm' : StateManager) : Prop where
  peers : sm'.peers.filter (fun p => !isSameId p.id x) = sm.peers.filter fun p => !isSameId p.id x
  ghosts :
    sm'.ghosts.filter (fun g => !isSameId g.toId x) = sm.ghosts.filter fun g => !isSameId g.toId x

namespace StateManager.FrameExcept

variable {x : CString} {a b c : StateManager}

theorem refl (x : CString) (a : StateManager) : FrameExcept x a a := ⟨rfl, rfl⟩

theorem trans (hab : FrameExcept x a b) (hbc : FrameExcept x b c) : FrameExcept x a c :=
  ⟨hbc.peers.trans hab.peers, hbc.ghosts.trans hab.ghosts⟩

end StateManager.FrameExcept

theorem findRecord_eq_some {normId : CString} {peers : List Peer} {c : Cursor Peer}
    (h : findRecord normId peers = some c) : c.toList = peers ∧ isSameId c.val.id normId = true :=
  ⟨Cursor.toList_of_find h, (Cursor.find_eq_some h).2.1⟩

/-- A search for `x`, or for an id that names `x`, finds a record of `x`. -/
theorem isSameId_of_find {id x : CString} {peers : List Peer} {c : Cursor Peer}
    (h : findRecord (normalizeId id) peers = some c) (same : normalizeId id = normalizeId x) :
    isSameId c.val.id x = true := by
  have hval := (findRecord_eq_some h).2
  rw [isSameId_normalizeId_right, isSameId_iff] at hval
  rw [isSameId_iff, hval, same]

/-- Every write through `state_get_peer` stays within the records of the id it was asked for. -/
theorem modifyPeer_frame {id x : CString} {f : Peer → Peer} (keeps : ∀ p, (f p).id = p.id)
    (names : Names id x) (sm : StateManager) :
    sm.FrameExcept x (modifyPeer id f sm).2 := by
  unfold modifyPeer
  by_cases hid : normalizeId id = []
  · rw [if_pos hid]
    exact .refl x sm
  · rw [if_neg hid]
    have same := names.resolve_right hid
    cases hf : findRecord (normalizeId id) sm.peers with
    | none => exact .refl x sm
    | some c =>
      have hval := isSameId_of_find hf same
      refine ⟨?_, rfl⟩
      show ((c.set (f c.val)).toList.filter _) = _
      rw [← (findRecord_eq_some hf).1]
      apply Cursor.filter_toList_set
      · rw [hval]
        rfl
      · rw [keeps, hval]
        rfl

theorem stateRemovePeer_frame {id x : CString}
    (names : Names id x) (sm : StateManager) :
    sm.FrameExcept x (stateRemovePeer id sm).2 := by
  unfold stateRemovePeer
  by_cases hid : normalizeId id = []
  · rw [if_pos hid]
    exact .refl x sm
  · rw [if_neg hid]
    cases hf : findRecord (normalizeId id) sm.peers with
    | none => exact .refl x sm
    | some c =>
      refine ⟨?_, rfl⟩
      show c.erase.filter _ = _
      rw [← (findRecord_eq_some hf).1]
      apply Cursor.filter_erase
      rw [isSameId_of_find hf (names.resolve_right hid)]
      rfl

theorem adjustGhostCount_filter {id x : CString} (same : normalizeId id = normalizeId x)
    (f : ℤ → ℤ) (peers : List Peer) :
    (adjustGhostCount (normalizeId id) f peers).filter (fun p => !isSameId p.id x) =
      peers.filter fun p => !isSameId p.id x := by
  unfold adjustGhostCount
  cases hf : findRecord (normalizeId id) peers with
  | none => rfl
  | some c =>
    have hval := isSameId_of_find hf same
    show ((c.set _).toList.filter _) = _
    rw [← (findRecord_eq_some hf).1]
    apply Cursor.filter_toList_set <;> simp [hval]

theorem stateAddMessage_frame (x fromId message : CString) (sm : StateManager) :
    sm.FrameExcept x (stateAddMessage fromId message sm).2 := by
  unfold stateAddMessage
  split_ifs <;> exact ⟨rfl, rfl⟩

@[simp] theorem modifyPeer_ghosts (id : CString) (f : Peer → Peer) (sm : StateManager) :
    (modifyPeer id f sm).2.ghosts = sm.ghosts := by
  unfold modifyPeer
  split_ifs
  · rfl
  · cases findRecord (normalizeId id) sm.peers <;> rfl

@[simp] theorem stateRemovePeer_ghosts (id : CString) (sm : StateManager) :
    (stateRemovePeer id sm).2.ghosts = sm.ghosts := by
  unfold stateRemovePeer
  split_ifs
  · rfl
  · cases findRecord (normalizeId id) sm.peers <;> rfl

@[simp] theorem stateAddPeer_ghosts (now : Time) (id : CString) (sm : StateManager) :
    (stateAddPeer now id sm).2.ghosts = sm.ghosts := by
  unfold stateAddPeer
  simp only
  split_ifs <;> rfl

@[simp] theorem stateAddMessage_ghosts (fromId message : CString) (sm : StateManager) :
    (stateAddMessage fromId message sm).2.ghosts = sm.ghosts := by
  unfold stateAddMessage
  split_ifs <;> rfl

@[simp] theorem stateUpdatePeer_ghosts (now : Time) (id : CString) (st : PeerState)
    (sm : StateManager) : (stateUpdatePeer now id st sm).2.ghosts = sm.ghosts :=
  modifyPeer_ghosts _ _ _

@[simp] theorem stateSetOnline_ghosts (now : Time) (id : CString) (online : Bool)
    (sm : StateManager) : (stateSetOnline now id online sm).2.ghosts = sm.ghosts :=
  modifyPeer_ghosts _ _ _

@[simp] theorem stateSetIp_ghosts (id ip : CString) (sm : StateManager) :
    (stateSetIp id ip sm).2.ghosts = sm.ghosts :=
  modifyPeer_ghosts _ _ _

@[simp] theorem stateSetPort_ghosts (id : CString) (port : ℤ) (sm : StateManager) :
    (stateSetPort id port sm).2.ghosts = sm.ghosts :=
  modifyPeer_ghosts _ _ _

end Orcashi
