import Orcashi.Attribution

/-!
# The record of one peer

What the functions of the state manager do to the record that `state_get_peer` finds for an id: a
write through another id does not touch it, a write through its own changes the fields it writes.
-/

namespace Orcashi

open CMemory

/-- An id is looked up by its normal form. -/
theorem stateGetPeer_congr {x y : CString} (same : normalizeId x = normalizeId y)
    (sm : StateManager) : stateGetPeer x sm = stateGetPeer y sm := by
  unfold stateGetPeer
  rw [same]

theorem stateGetPeer_eq_find (x : CString) (sm : StateManager) :
    stateGetPeer x sm =
      if normalizeId x = [] then none else sm.peers.find? fun p => isSameId p.id x := by
  unfold stateGetPeer findRecord
  rw [Cursor.map_val_find]
  simp only [isSameId_normalizeId_right]

/-- What stays with one id leaves the records of the others. -/
theorem stateGetPeer_of_frame {x y : CString} {sm sm' : StateManager} (frame : sm.FrameExcept y sm')
    (ne : normalizeId y ≠ normalizeId x) : stateGetPeer x sm' = stateGetPeer x sm := by
  have outside (l : List Peer) : l.find? (fun p => isSameId p.id x) =
      (l.filter fun p => !isSameId p.id y).find? fun p => isSameId p.id x := by
    rw [List.find?_filter]
    congr 1
    funext p
    cases hx : isSameId p.id x with
    | false => simp
    | true =>
      have hy : isSameId p.id y = false := by
        rw [isSameId_eq_false_iff, isSameId_iff.1 hx]
        exact ne.symm
      simp [hy]
  rw [stateGetPeer_eq_find, stateGetPeer_eq_find, outside sm'.peers, outside sm.peers, frame.peers]

theorem stateGetPeer_modifyPeer (x id : CString) {f : Peer → Peer} (keeps : ∀ p, (f p).id = p.id)
    (sm : StateManager) :
    stateGetPeer x (modifyPeer id f sm).2 =
      if normalizeId id = normalizeId x then (stateGetPeer x sm).map f else stateGetPeer x sm := by
  split_ifs with same
  · unfold stateGetPeer modifyPeer
    rw [same]
    by_cases hx : normalizeId x = []
    · rw [if_pos hx, if_pos hx]
      rfl
    · rw [if_neg hx, if_neg hx, if_neg hx]
      cases hf : findRecord (normalizeId x) sm.peers with
      | none =>
        dsimp only
        rw [hf]
        rfl
      | some c =>
        have again : findRecord (normalizeId x) (c.set (f c.val)).toList = some (c.set (f c.val)) := by
          apply Cursor.find_toList_set hf
          rw [keeps]
          exact (findRecord_eq_some hf).2
        dsimp only
        rw [again]
        rfl
  · exact stateGetPeer_of_frame (modifyPeer_frame keeps (names_self id) sm) same

theorem stateGetPeer_modifyPeer_self (x : CString) {f : Peer → Peer} (keeps : ∀ p, (f p).id = p.id)
    (sm : StateManager) :
    stateGetPeer x (modifyPeer x f sm).2 = (stateGetPeer x sm).map f := by
  rw [stateGetPeer_modifyPeer x x keeps, if_pos rfl]

/-- A field that a write does not change. -/
theorem getPeer_map_modifyPeer {β : Type*} {g : Peer → β} (x id : CString) {f : Peer → Peer}
    (keeps : ∀ p, (f p).id = p.id) (same : ∀ p, g (f p) = g p) (sm : StateManager) :
    (stateGetPeer x (modifyPeer id f sm).2).map g = (stateGetPeer x sm).map g := by
  rw [stateGetPeer_modifyPeer x id keeps]
  split_ifs
  · rw [Option.map_map]
    exact congrFun (congrArg _ (funext same)) _
  · rfl

theorem stateGetPeer_removePeer {x id : CString} (ne : normalizeId id ≠ normalizeId x)
    (sm : StateManager) : stateGetPeer x (stateRemovePeer id sm).2 = stateGetPeer x sm :=
  stateGetPeer_of_frame (stateRemovePeer_frame (names_self id) sm) ne

/-- A record that is there stays as it is when others are added. -/
theorem stateGetPeer_addPeer {x : CString} {sm : StateManager} {p : Peer}
    (h : stateGetPeer x sm = some p) (now : Time) (id : CString) :
    stateGetPeer x (stateAddPeer now id sm).2 = some p := by
  rcases stateAddPeer_cases now id sm with ⟨-, hadd⟩ | ⟨-, ⟨c, -, hadd⟩ | ⟨-, -, hadd⟩ | ⟨-, -, hadd⟩⟩
  · rwa [hadd]
  · rwa [hadd]
  · rwa [hadd]
  · rw [stateGetPeer_eq_find] at h ⊢
    split_ifs at h ⊢
    rw [hadd]
    dsimp only
    rw [List.find?_append, h, Option.some_or]

theorem getPeer_map_adjust {β : Type*} {g : Peer → β}
    (same : ∀ p n, g { p with ghostCount := n } = g p) (x id : CString) (f : ℤ → ℤ)
    {sm sm' : StateManager} (peers : sm'.peers = adjustGhostCount (normalizeId id) f sm.peers) :
    (stateGetPeer x sm').map g = (stateGetPeer x sm).map g := by
  by_cases hid : normalizeId id = normalizeId x
  · unfold stateGetPeer
    rw [peers, ← hid]
    unfold adjustGhostCount
    split_ifs
    · rfl
    · cases hf : findRecord (normalizeId id) sm.peers with
      | none =>
        dsimp only
        rw [hf]
      | some c =>
        have again := Cursor.find_toList_set hf
          (a := { c.val with ghostCount := f c.val.ghostCount }) (findRecord_eq_some hf).2
        unfold findRecord
        dsimp only
        rw [again]
        exact congrArg some (same c.val _)
  · have frame : sm.FrameExcept id { sm with peers := sm'.peers } := by
      refine ⟨?_, rfl⟩
      dsimp only
      rw [peers]
      exact adjustGhostCount_filter rfl f sm.peers
    have outside : stateGetPeer x sm' = stateGetPeer x { sm with peers := sm'.peers } := rfl
    rw [outside, stateGetPeer_of_frame frame hid]

/-- Of a record, a delivery changes the count only. -/
theorem getPeer_map_deliver {β : Type*} {g : Peer → β}
    (same : ∀ p n, g { p with ghostCount := n } = g p) (x : CString) (now : Time) (id : CString)
    (s : Store) : (stateGetPeer x (s.deliver now id).sm).map g = (stateGetPeer x s.sm).map g := by
  unfold Store.deliver
  rw [stateDeliverGhostMessages_eq]
  split_ifs
  · rfl
  · apply getPeer_map_adjust same x id (fun n => max (n - _) 0)
    rfl

theorem getPeer_map_addGhost {β : Type*} {g : Peer → β}
    (same : ∀ p n, g { p with ghostCount := n } = g p) (x : CString) (now : Time) (rand : ℕ)
    (toId message : CString) (sm : StateManager) :
    (stateGetPeer x (stateAddGhostMessage now rand toId message sm).2).map g =
      (stateGetPeer x sm).map g := by
  unfold stateAddGhostMessage
  dsimp only
  split_ifs
  · rfl
  · rfl
  · apply getPeer_map_adjust same x toId (· + 1)
    rfl

@[simp] theorem stateGetPeer_addMessage (x fromId message : CString) (sm : StateManager) :
    stateGetPeer x (stateAddMessage fromId message sm).2 = stateGetPeer x sm := by
  unfold stateAddMessage
  split_ifs <;> rfl

end Orcashi
