import Orcashi.PeerTable

/-!
# Slots that are used again

A removal moves records down and leaves the last one where it was, in a slot behind the table.  The
next `state_add_peer` takes that slot and assigns the fields of the new record one by one, all but
three of them.  The times of requests are never written by anyone, so what can shine through is the
time of friendship of a record that was removed.
-/

namespace Orcashi

open CMemory

/-- The table after a history of calls. -/
def tableAfter (calls : List TableCall) : StateManager :=
  History.run (fun sm call => (call.exec sm).2) StateManager.init calls

/-- `state_add_peer` of an id that is not there succeeds and makes the record `p`. -/
def Adds (now : Time) (id : CString) (sm : StateManager) (p : Peer) : Prop :=
  (stateAddPeer now id sm).1 = 0 ∧ (stateAddPeer now id sm).2.peers = sm.peers ++ [p]

/-- `friend_since` in the first slot behind the table, which the next record gets. -/
def leftFriendSince (sm : StateManager) : Time := (sm.stale.headD Peer.zero).friendSince

/-! ## The times of requests -/

/-- No request time has been written to the record. -/
def Peer.Unrequested (p : Peer) : Prop := p.requestSentAt = 0 ∧ p.requestReceivedAt = 0

/-- No slot, in the table or behind it, has a request time. -/
structure Unrequested (sm : StateManager) : Prop where
  peers : ∀ p ∈ sm.peers, p.Unrequested
  stale : ∀ p ∈ sm.stale, p.Unrequested

namespace Unrequested

variable {sm : StateManager}

theorem head_stale (h : Unrequested sm) : (sm.stale.headD Peer.zero).Unrequested := by
  cases hs : sm.stale with
  | nil => exact ⟨rfl, rfl⟩
  | cons p l => exact h.stale p (hs ▸ List.mem_cons_self)

theorem modify (h : Unrequested sm) (id : CString) {f : Peer → Peer}
    (keeps : ∀ p, p.Unrequested → (f p).Unrequested) : Unrequested (modifyPeer id f sm).2 := by
  unfold modifyPeer
  split_ifs
  · exact h
  cases found : findRecord (normalizeId id) sm.peers with
  | none => exact h
  | some c =>
    have table := (findRecord_eq_some found).1
    refine ⟨?_, h.stale⟩
    intro p hp
    rcases Cursor.mem_toList_set hp with rfl | hp | hp
    · exact keeps _ (h.peers _ (table ▸ c.val_mem_toList))
    · exact h.peers _ (table ▸ Cursor.mem_toList.2 (Or.inl hp))
    · exact h.peers _ (table ▸ Cursor.mem_toList.2 (Or.inr (Or.inr hp)))

theorem add (h : Unrequested sm) (now : Time) (id : CString) :
    Unrequested (stateAddPeer now id sm).2 := by
  rcases stateAddPeer_cases now id sm with
    ⟨-, hadd⟩ | ⟨-, ⟨c, -, hadd⟩ | ⟨-, -, hadd⟩ | ⟨-, -, hadd⟩⟩
  · rwa [hadd]
  · rwa [hadd]
  · rwa [hadd]
  · rw [hadd]
    refine ⟨?_, fun p hp => h.stale p (List.mem_of_mem_tail hp)⟩
    intro p hp
    rcases List.mem_append.1 hp with hp | hp
    · exact h.peers p hp
    · rw [List.mem_singleton.1 hp]
      exact h.head_stale

theorem remove (h : Unrequested sm) (id : CString) : Unrequested (stateRemovePeer id sm).2 := by
  unfold stateRemovePeer
  split_ifs
  · exact h
  cases found : findRecord (normalizeId id) sm.peers with
  | none => exact h
  | some c =>
    have table := (findRecord_eq_some found).1
    constructor
    · intro p hp
      rcases List.mem_append.1 hp with hp | hp
      · exact h.peers p (table ▸ Cursor.mem_toList.2 (Or.inl hp))
      · exact h.peers p (table ▸ Cursor.mem_toList.2 (Or.inr (Or.inr hp)))
    · intro p hp
      rcases List.mem_cons.1 hp with rfl | hp
      · exact h.peers _ (table ▸ Cursor.mem_toList.2
          (Or.inr (List.mem_cons.1 List.getLastD_mem_cons)))
      · exact h.stale p hp

theorem exec (h : Unrequested sm) (call : TableCall) : Unrequested (call.exec sm).2 := by
  cases call with
  | addPeer now id => exact h.add now id
  | removePeer id => exact h.remove id
  | updatePeer | setOnline | setBusy | setSecure | setIp | setPort | setName | setPublicKey
  | updateLastSeen => exact h.modify _ fun _ hp => hp
  | _ => exact h

theorem tableAfter (calls : List TableCall) : Unrequested (tableAfter calls) := by
  have start : Unrequested StateManager.init :=
    ⟨by simp [StateManager.init], by simp [StateManager.init]⟩
  exact List.foldlRecOn calls _ start fun sm h call _ => h.exec call

end Unrequested

/-! ## New records -/

/-- The new record is determined but for the three fields that its slot had before. -/
theorem Adds.eq_renewed {now : Time} {id : CString} {sm : StateManager} {p : Peer}
    (h : Adds now id sm p) : p = (sm.stale.headD Peer.zero).renewed now (normalizeId id) := by
  obtain ⟨ret, peers⟩ := h
  have grown : sm.peers.length < (stateAddPeer now id sm).2.peers.length := by
    rw [peers, List.length_append, List.length_singleton]
    omega
  rcases stateAddPeer_cases now id sm with
    ⟨-, hadd⟩ | ⟨-, ⟨c, -, hadd⟩ | ⟨-, -, hadd⟩ | ⟨-, -, hadd⟩⟩
  · simp [hadd] at grown
  · simp [hadd] at grown
  · simp [hadd] at grown
  · rw [hadd] at peers
    exact (List.cons.inj (List.append_cancel_left peers)).1.symm

/-- After any two histories, whether or not they leave the same records, a new record is the same if
and only if the slots it gets have the same time of friendship left over. -/
theorem new_record_same_iff {calls₁ calls₂ : List TableCall} {now : Time} {id : CString}
    {p₁ p₂ : Peer} (adds₁ : Adds now id (tableAfter calls₁) p₁)
    (adds₂ : Adds now id (tableAfter calls₂) p₂) :
    p₁ = p₂ ↔ leftFriendSince (tableAfter calls₁) = leftFriendSince (tableAfter calls₂) := by
  obtain ⟨sent₁, received₁⟩ := (Unrequested.tableAfter calls₁).head_stale
  obtain ⟨sent₂, received₂⟩ := (Unrequested.tableAfter calls₂).head_stale
  rw [adds₁.eq_renewed, adds₂.eq_renewed]
  unfold Peer.renewed leftFriendSince
  rw [sent₁, received₁, sent₂, received₂]
  constructor
  · exact congrArg Peer.friendSince
  · intro since
    rw [since]

/-- A friend is made and removed again. -/
def pastFriend : List TableCall :=
  [.addPeer 1 (ascii "bob"), .updatePeer 2 (ascii "bob") .friend, .removePeer (ascii "bob")]

/-- Another friend is made on the same day and removed again. -/
def otherPastFriend : List TableCall :=
  [.addPeer 1 (ascii "zoe"), .addPeer 1 (ascii "carol"), .updatePeer 2 (ascii "carol") .friend,
    .removePeer (ascii "zoe"), .removePeer (ascii "carol")]

/-- Amy's record shows that bob was a friend, but not that it was bob and not carol. -/
theorem new_record_same_iff_start :
    ({ Peer.zero.renewed 9 (ascii "amy") with friendSince := 2 } = Peer.zero.renewed 9 (ascii "amy") ↔
        leftFriendSince (tableAfter pastFriend) = leftFriendSince (tableAfter [])) ∧
      ({ Peer.zero.renewed 9 (ascii "amy") with friendSince := 2 } =
          { Peer.zero.renewed 9 (ascii "amy") with friendSince := 2 } ↔
        leftFriendSince (tableAfter pastFriend) = leftFriendSince (tableAfter otherPastFriend)) :=
  have past : Adds 9 (ascii "amy") (tableAfter pastFriend)
      { Peer.zero.renewed 9 (ascii "amy") with friendSince := 2 } := ⟨by decide, by decide⟩
  have other : Adds 9 (ascii "amy") (tableAfter otherPastFriend)
      { Peer.zero.renewed 9 (ascii "amy") with friendSince := 2 } := ⟨by decide, by decide⟩
  have first : Adds 9 (ascii "amy") (tableAfter []) (Peer.zero.renewed 9 (ascii "amy")) :=
    ⟨by decide, by decide⟩
  ⟨new_record_same_iff past first, new_record_same_iff past other⟩

/-- Amy, who never was a friend, has been one since the day bob became one. -/
theorem friendship_shines_through :
    (tableAfter pastFriend).peers = (tableAfter []).peers ∧
      ∃ p₁ p₂, Adds 9 (ascii "amy") (tableAfter pastFriend) p₁ ∧
        Adds 9 (ascii "amy") (tableAfter []) p₂ ∧ p₁.friendSince = 2 ∧ p₂.friendSince = 0 ∧
        p₁ ≠ p₂ :=
  ⟨by decide, { Peer.zero.renewed 9 (ascii "amy") with friendSince := 2 },
    Peer.zero.renewed 9 (ascii "amy"), ⟨by decide, by decide⟩, ⟨by decide, by decide⟩, rfl, rfl,
    by decide⟩

end Orcashi
