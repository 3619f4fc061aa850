import Orcashi.PeerRecord
import Orcashi.PeerTable

/-!
# Setters whose lock is released in between

A setter asks `state_get_peer` for a pointer and writes through it.  Each of the two holds
`g_state_mutex`, but between them it is free, and other threads may add and remove records.  A
removal moves records to other slots; the pointer stays where it is.
-/

namespace Orcashi

open CMemory

/-! ## The two steps -/

/-- The pointer `state_get_peer` returns, as the number of a slot of `g_peers`. -/
def stateGetSlot (id : CString) (sm : StateManager) : Option ℕ :=
  if normalizeId id = [] then none
  else (findRecord (normalizeId id) sm.peers).map fun c => c.before.length

/-- Write through a pointer into `g_peers`, whether the slot is in the table or behind it. -/
def writeSlot (i : ℕ) (f : Peer → Peer) (sm : StateManager) : StateManager :=
  if i < sm.peers.length then { sm with peers := sm.peers.modify i f }
  else { sm with stale := sm.stale.modify (i - sm.peers.length) f }

/-- The functions that write through `state_get_peer`, with their arguments. -/
inductive Setter where
  | setOnline (online : Bool)
  | setBusy (busy : Bool)
  | setIp (ip : IpText)
  | setPort (port : ℤ)
  | setSecure (secure : Bool)
  | setName (name : FieldText 128)
  | setPublicKey (pubkey : FieldText 4096)
  | updateLastSeen

namespace Setter

/-- What is written to the record. -/
def write (now : Time) (p : Peer) : Setter → Peer
  | setOnline online => { p with online := online, lastSeen := now }
  | setBusy busy => { p with busy := busy }
  | setIp ip => { p with ip := ip.val }
  | setPort port => { p with port := port }
  | setSecure secure => { p with isSecure := secure }
  | setName name => { p with name := name.val }
  | setPublicKey pubkey => { p with publicKey := pubkey.val }
  | updateLastSeen => { p with lastSeen := now }

/-- The call without anybody in between. -/
def call (now : Time) (id : CString) : Setter → TableCall
  | setOnline online => .setOnline now id online
  | setBusy busy => .setBusy id busy
  | setIp ip => .setIp id ip
  | setPort port => .setPort id port
  | setSecure secure => .setSecure id secure
  | setName name => .setName id name
  | setPublicKey pubkey => .setPublicKey id pubkey
  | updateLastSeen => .updateLastSeen now id

theorem call_eq_modify (now : Time) (id : CString) (setter : Setter) (sm : StateManager) :
    ((setter.call now id).exec sm).2 = (modifyPeer id (fun p => setter.write now p) sm).2 := by
  cases setter <;> rfl

end Setter

theorem modify_toList (c : Cursor Peer) (f : Peer → Peer) :
    c.toList.modify c.before.length f = (c.set (f c.val)).toList := by
  obtain ⟨before, p, after⟩ := c
  induction before with
  | nil => rfl
  | cons q before ih => exact congrArg (q :: ·) ih

/-- A setter is its two steps, one after the other. -/
theorem setter_two_steps (now : Time) (id : CString) (setter : Setter) (sm : StateManager) :
    ((setter.call now id).exec sm).2 =
      match stateGetSlot id sm with
      | none => sm
      | some i => writeSlot i (fun p => setter.write now p) sm := by
  rw [Setter.call_eq_modify]
  unfold modifyPeer stateGetSlot
  by_cases hid : normalizeId id = []
  · rw [if_pos hid, if_pos hid]
  · rw [if_neg hid, if_neg hid]
    cases found : findRecord (normalizeId id) sm.peers with
    | none => rfl
    | some c =>
      have table := (findRecord_eq_some found).1
      have inside : c.before.length < sm.peers.length := by
        rw [← table]
        simp [Cursor.toList]
      simp only [Option.map_some, writeSlot, if_pos inside]
      have written := modify_toList c fun p => setter.write now p
      rw [table] at written
      rw [written]

/-! ## Other threads -/

/-- What another thread may do to the state manager in one go. -/
inductive StateCall where
  | table (call : TableCall)
  | deliver (now : Time) (toId : CString)
  | addGhost (now : Time) (rand : ℕ) (toId message : CString)

/-- The tables after a call. -/
def StateCall.exec (s : Store) : StateCall → Store
  | table call => s.call fun sm => ((0 : ℤ), (call.exec sm).2)
  | deliver now toId => s.deliver now toId
  | addGhost now rand toId message => s.call (stateAddGhostMessage now rand toId message)

/-- The call takes a record out of the table that is in slot `i` or in a slot before it. -/
def StateCall.Moves (i : ℕ) (s : Store) : StateCall → Prop
  | table (.removePeer id) => ∃ j ≤ i, stateGetSlot id s.sm = some j
  | _ => False

/-- Slot `i` has a record of the id. -/
def HoldsId (id : CString) (i : ℕ) (sm : StateManager) : Prop :=
  ∃ p, sm.peers[i]? = some p ∧ normalizeId p.id = normalizeId id

theorem holdsId_iff_map {id : CString} {i : ℕ} {sm : StateManager} :
    HoldsId id i sm ↔ ((sm.peers.map Peer.id)[i]?).map normalizeId = some (normalizeId id) := by
  unfold HoldsId
  rw [List.getElem?_map, Option.map_map]
  exact Option.map_eq_some_iff.symm

theorem holdsId_of_slot {id : CString} {i : ℕ} {sm : StateManager}
    (slot : stateGetSlot id sm = some i) : HoldsId id i sm ∧ normalizeId id ≠ [] := by
  unfold stateGetSlot at slot
  split_ifs at slot with hid
  obtain ⟨c, found, rfl⟩ := Option.map_eq_some_iff.1 slot
  have table := (findRecord_eq_some found).1
  refine ⟨⟨c.val, ?_, ?_⟩, hid⟩
  · rw [← table]
    simp [Cursor.toList]
  · exact isSameId_iff.1 (isSameId_of_find found rfl)

/-- The record of a slot stays in it as long as its id stays there. -/
theorem HoldsId.of_prefix {id : CString} {i : ℕ} {sm sm' : StateManager} (h : HoldsId id i sm)
    (ids : sm.peers.map Peer.id <+: sm'.peers.map Peer.id) : HoldsId id i sm' := by
  rw [holdsId_iff_map] at h ⊢
  obtain ⟨rest, hrest⟩ := ids
  obtain ⟨x, hx, -⟩ := Option.map_eq_some_iff.1 h
  have inside := (List.getElem?_eq_some_iff.1 hx).1
  rw [← hrest, List.getElem?_append_left inside]
  exact h

theorem HoldsId.of_ids {id : CString} {i : ℕ} {sm sm' : StateManager} (h : HoldsId id i sm)
    (ids : sm'.peers.map Peer.id = sm.peers.map Peer.id) : HoldsId id i sm' :=
  h.of_prefix (ids ▸ List.prefix_rfl)

/-- A write to a record keeps the ids of the table. -/
theorem ids_modifyPeer (id : CString) {f : Peer → Peer} (keeps : ∀ p, (f p).id = p.id)
    (sm : StateManager) : (modifyPeer id f sm).2.peers.map Peer.id = sm.peers.map Peer.id := by
  unfold modifyPeer
  split_ifs
  · rfl
  cases found : findRecord (normalizeId id) sm.peers with
  | none => rfl
  | some c =>
    show (c.set (f c.val)).toList.map Peer.id = _
    rw [Cursor.map_toList_set (keeps _), (findRecord_eq_some found).1]

theorem ids_adjustGhostCount (normId : CString) (f : ℤ → ℤ) (peers : List Peer) :
    (adjustGhostCount normId f peers).map Peer.id = peers.map Peer.id := by
  unfold adjustGhostCount
  cases found : findRecord normId peers with
  | none => rfl
  | some c =>
    rw [← (findRecord_eq_some found).1]
    exact Cursor.map_toList_set rfl

theorem HoldsId.addPeer {id : CString} {i : ℕ} {sm : StateManager} (h : HoldsId id i sm)
    (now : Time) (x : CString) : HoldsId id i (stateAddPeer now x sm).2 := by
  rcases stateAddPeer_cases now x sm with
    ⟨-, hadd⟩ | ⟨-, ⟨c, -, hadd⟩ | ⟨-, -, hadd⟩ | ⟨-, -, hadd⟩⟩
  · rwa [hadd]
  · rwa [hadd]
  · rwa [hadd]
  · rw [hadd]
    apply h.of_prefix
    rw [List.map_append]
    exact List.prefix_append _ _

/-- Removing a record from a later slot leaves the earlier slots alone. -/
theorem HoldsId.removePeer {id : CString} {i : ℕ} {sm : StateManager} (h : HoldsId id i sm)
    {x : CString} (later : ∀ j ≤ i, stateGetSlot x sm ≠ some j) :
    HoldsId id i (stateRemovePeer x sm).2 := by
  unfold stateRemovePeer
  split_ifs with hx
  · exact h
  cases found : findRecord (normalizeId x) sm.peers with
  | none => exact h
  | some c =>
    have table := (findRecord_eq_some found).1
    have slot : stateGetSlot x sm = some c.before.length := by
      unfold stateGetSlot
      rw [if_neg hx, found, Option.map_some]
    have before : i < c.before.length := by
      by_contra after
      exact later _ (Nat.le_of_not_lt after) slot
    obtain ⟨p, hp, same⟩ := h
    refine ⟨p, ?_, same⟩
    rw [← table, Cursor.toList, List.getElem?_append_left before] at hp
    show (c.before ++ c.after)[i]? = some p
    rw [List.getElem?_append_left before, hp]

/-- A call of another thread leaves the record in its slot, unless it removes it or one before. -/
theorem HoldsId.exec {id : CString} {i : ℕ} {s : Store} (h : HoldsId id i s.sm) {call : StateCall}
    (still : ¬ call.Moves i s) : HoldsId id i (call.exec s).sm := by
  have written (x : CString) (f : Peer → Peer) (keeps : ∀ p, (f p).id = p.id) :
      HoldsId id i (modifyPeer x f s.sm).2 :=
    h.of_ids (ids_modifyPeer x keeps s.sm)
  cases call with
  | table call =>
    cases call with
    | addPeer now x => exact h.addPeer now x
    | removePeer x =>
      apply h.removePeer
      intro j hj slot
      exact still ⟨j, hj, slot⟩
    | updatePeer | setOnline | setBusy | setSecure | setIp | setPort | setName | setPublicKey
    | updateLastSeen => exact written _ _ fun _ => rfl
    | _ => exact h
  | deliver now toId =>
    unfold StateCall.exec Store.deliver stateDeliverGhostMessages
    dsimp only
    split_ifs
    · exact h
    · apply h.of_ids
      dsimp only
      rw [ids_adjustGhostCount]
  | addGhost now rand toId message =>
    unfold StateCall.exec Store.call stateAddGhostMessage
    dsimp only
    split_ifs
    · exact h
    · exact h
    · apply h.of_ids
      dsimp only
      rw [ids_adjustGhostCount]

/-! ## The write -/

/-- The write touched records of the id only, and nothing at all if the id has no record. -/
structure WriteConfined (id : CString) (before after : StateManager) : Prop where
  others : ∀ (j : ℕ) (p : Peer), before.peers[j]? = some p → normalizeId p.id ≠ normalizeId id →
    after.peers[j]? = some p
  absent : stateGetPeer id before = none → after = before

/-- The slot is in the table with a record of the id, or it is behind the table while the id has its
record in another slot, or it has what is written to it. -/
def SlotSafe (id : CString) (i : ℕ) (f : Peer → Peer) (sm : StateManager) : Prop :=
  HoldsId id i sm ∨ (sm.peers.length ≤ i ∧ stateGetPeer id sm ≠ none) ∨
    ∀ p, (sm.peers ++ sm.stale)[i]? = some p → f p = p

theorem modify_eq_self_iff {l : List Peer} {i : ℕ} {f : Peer → Peer} :
    l.modify i f = l ↔ ∀ p, l[i]? = some p → f p = p := by
  constructor
  · intro same p hp
    have changed : (l.modify i f)[i]? = some (f p) := by simp [hp]
    rw [same, hp] at changed
    exact (Option.some.inj changed).symm
  · intro fixed
    apply List.ext_getElem?
    intro j
    rw [List.getElem?_modify]
    by_cases hj : i = j
    · subst hj
      cases hp : l[i]? with
      | none => simp
      | some p => simp [fixed p hp]
    · simp [hj]

theorem stateGetPeer_ne_none {id : CString} {i : ℕ} {sm : StateManager} (hid : normalizeId id ≠ [])
    (holds : HoldsId id i sm) : stateGetPeer id sm ≠ none := by
  obtain ⟨p, hp, same⟩ := holds
  unfold stateGetPeer
  rw [if_neg hid, Option.map_eq_none_iff.ne]
  intro none
  have differs := Cursor.find_eq_none_iff.1 none p (List.mem_of_getElem? hp)
  rw [isSameId_normalizeId_right, isSameId_eq_false_iff] at differs
  exact differs same

theorem writeConfined_iff {id : CString} (hid : normalizeId id ≠ []) (i : ℕ) (f : Peer → Peer)
    (sm : StateManager) : WriteConfined id sm (writeSlot i f sm) ↔ SlotSafe id i f sm := by
  unfold writeSlot
  by_cases inside : i < sm.peers.length
  · rw [if_pos inside]
    have slot : (sm.peers ++ sm.stale)[i]? = sm.peers[i]? := List.getElem?_append_left inside
    obtain ⟨p, hp⟩ : ∃ p, sm.peers[i]? = some p := ⟨_, List.getElem?_eq_getElem inside⟩
    constructor
    · intro confined
      by_cases same : normalizeId p.id = normalizeId id
      · exact Or.inl ⟨p, hp, same⟩
      · refine Or.inr (Or.inr fun q hq => ?_)
        have kept := confined.others i p hp same
        rw [slot, hp] at hq
        obtain rfl := Option.some.inj hq
        simpa [hp] using kept
    · rintro (holds | ⟨behind, -⟩ | fixed)
      · refine ⟨?_, fun none => absurd none (stateGetPeer_ne_none hid holds)⟩
        intro j q hq differs
        have other : i ≠ j := by
          rintro rfl
          obtain ⟨p', hp', same⟩ := holds
          rw [hp'] at hq
          exact differs (Option.some.inj hq ▸ same)
        show (sm.peers.modify i f)[j]? = some q
        rw [List.getElem?_modify_ne f sm.peers other, hq]
      · omega
      · rw [slot] at fixed
        rw [modify_eq_self_iff.2 fixed]
        exact ⟨fun j q hq _ => hq, fun _ => rfl⟩
  · rw [if_neg inside]
    have behind := Nat.le_of_not_lt inside
    have slot : (sm.peers ++ sm.stale)[i]? = sm.stale[i - sm.peers.length]? :=
      List.getElem?_append_right behind
    have unheld : ¬ HoldsId id i sm := by
      rintro ⟨p, hp, -⟩
      exact inside (List.getElem?_eq_some_iff.1 hp).1
    constructor
    · intro confined
      by_cases there : stateGetPeer id sm = none
      · have same := congrArg StateManager.stale (confined.absent there)
        refine Or.inr (Or.inr ?_)
        rw [slot]
        exact modify_eq_self_iff.1 same
      · exact Or.inr (Or.inl ⟨behind, there⟩)
    · rintro (holds | ⟨-, there⟩ | fixed)
      · exact absurd holds unheld
      · exact ⟨fun j q hq _ => hq, fun none => absurd none there⟩
      · rw [slot] at fixed
        rw [modify_eq_self_iff.2 fixed]
        exact ⟨fun j q hq _ => hq, fun _ => rfl⟩

/-- A setter that found its record in slot `i` stays confined to the records of its id, whatever
other threads have done before it writes, if and only if the slot is safe by then; and the slot is
safe if they removed no record from it or from a slot before it. -/
theorem setter_confined_iff {id : CString} {s : Store} {i : ℕ}
    (found : stateGetSlot id s.sm = some i) (calls : List StateCall) (now : Time)
    (setter : Setter) :
    (WriteConfined id (History.run StateCall.exec s calls).sm
        (writeSlot i (fun p => setter.write now p) (History.run StateCall.exec s calls).sm) ↔
      SlotSafe id i (fun p => setter.write now p) (History.run StateCall.exec s calls).sm) ∧
    (History.Meets StateCall.exec (fun s call => ¬ call.Moves i s) s calls →
      SlotSafe id i (fun p => setter.write now p) (History.run StateCall.exec s calls).sm) := by
  obtain ⟨holds, hid⟩ := holdsId_of_slot found
  refine ⟨writeConfined_iff hid i _ _, fun still => Or.inl ?_⟩
  exact History.run_invariant (fun s => HoldsId id i s.sm)
    (fun s call h still => h.exec still) holds still

/-- Amy is in the first slot and bob in the second. -/
def amyAndBob : Store :=
  { Store.init with
    sm := History.run (fun sm call => (TableCall.exec sm call).2) StateManager.init
      [.addPeer 1 (ascii "amy"), .addPeer 1 (ascii "bob"), .addPeer 1 (ascii "eve")] }

/-- While bob is looked up, amy comes online, and eve is removed behind him. -/
def besideBob : List StateCall :=
  [.table (.setOnline 2 (ascii "amy") true), .table (.removePeer (ascii "eve"))]

theorem setter_confined_iff_bob :
    let s := History.run StateCall.exec amyAndBob besideBob
    let write : Peer → Peer := fun p => (Setter.setBusy true).write 3 p
    (WriteConfined (ascii "bob") s.sm (writeSlot 1 write s.sm) ↔ SlotSafe (ascii "bob") 1 write s.sm) ∧
      SlotSafe (ascii "bob") 1 write s.sm := by
  have spec := setter_confined_iff (i := 1) (by decide : stateGetSlot (ascii "bob") amyAndBob.sm = some 1) besideBob 3
    (.setBusy true)
  refine ⟨spec.1, spec.2 ⟨id, ⟨?_, trivial⟩⟩⟩
  rintro ⟨j, before, slot⟩
  have behind : stateGetSlot (ascii "eve") (StateCall.exec amyAndBob (.table (.setOnline 2 (ascii "amy") true))).sm =
      some 2 := by decide
  obtain rfl : 2 = j := Option.some.inj (behind.symm.trans slot)
  exact absurd before (by decide)

/-- Amy is removed while bob is looked up: eve becomes busy. -/
theorem setter_hits_another :
    stateGetSlot (ascii "bob") amyAndBob.sm = some 1 ∧
      ¬ WriteConfined (ascii "bob")
        (History.run StateCall.exec amyAndBob [.table (.removePeer (ascii "amy"))]).sm
        (writeSlot 1 (fun p => (Setter.setBusy true).write 2 p)
          (History.run StateCall.exec amyAndBob [.table (.removePeer (ascii "amy"))]).sm) := by
  refine ⟨by decide, fun confined => ?_⟩
  have kept := confined.others 1 _ rfl (by decide)
  exact absurd kept (by decide)

end Orcashi
