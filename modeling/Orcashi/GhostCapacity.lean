import Mathlib.Data.List.Induction
import Orcashi.GhostQueues

/-!
# How long the array of ghost messages lasts

`g_ghost_count` only grows: a delivery marks messages and frees no slot.  An addition is refused
once 1024 messages have been stored, whether they still wait or not.  The bound is on undelivered
messages exactly in those runs that add nothing after a delivery has used up one of the 1024 slots.
-/

namespace Orcashi

open CMemory

/-! ## What a run stores -/

/-- The recipient a call stores a message for. -/
def GhostCall.adds : GhostCall → Option PeerKey
  | .add _ _ toId _ => PeerKey.ofId toId
  | _ => none

/-- The recipient whose messages a call delivers. -/
def GhostCall.delivers : GhostCall → Option PeerKey
  | .deliver _ toId => PeerKey.ofId toId
  | _ => none

/-- The state after a call. -/
def ghostStep (s : Store) (call : GhostCall) : Store := (call.exec s).2

/-- How many additions there are among the calls. -/
def additions (calls : List GhostCall) : ℕ := calls.countP fun call => call.adds.isSome

variable {s : Store} {calls : List GhostCall} {call : GhostCall} {k : PeerKey}

theorem additions_concat :
    additions (calls ++ [call]) = additions calls + if call.adds.isSome then 1 else 0 := by
  unfold additions
  rw [List.countP_append, List.countP_singleton]

/-- A call that adds nothing leaves the messages as they are, or marks those of one recipient. -/
theorem ghosts_of_adds_eq_none (h : call.adds = none) :
    ((ghostStep s call).sm.ghosts = s.sm.ghosts ∧ call.delivers = none) ∨
      ∃ now k, call.delivers = some k ∧
        (ghostStep s call).sm.ghosts = s.sm.ghosts.map (·.markFor now k.text) := by
  cases call with
  | add now rand toId message =>
    have hid : normalizeId toId = [] := by
      by_contra hid
      obtain ⟨k, hk, -⟩ := PeerKey.ofId_eq_some hid
      have h : PeerKey.ofId toId = none := h
      rw [hk] at h
      cases h
    refine Or.inl ⟨?_, rfl⟩
    show (stateAddGhostMessage now rand toId message.val s.sm).2.ghosts = _
    unfold stateAddGhostMessage
    dsimp only
    rw [if_pos hid]
  | get toId max => exact Or.inl ⟨rfl, rfl⟩
  | count toId => exact Or.inl ⟨rfl, rfl⟩
  | deliver now toId =>
    show ((stateDeliverGhostMessages now toId s).2.sm.ghosts = _ ∧ PeerKey.ofId toId = none) ∨
      ∃ now' k, PeerKey.ofId toId = some k ∧ (stateDeliverGhostMessages now toId s).2.sm.ghosts = _
    rw [stateDeliverGhostMessages_eq]
    by_cases hid : normalizeId toId = []
    · rw [if_pos hid]
      exact Or.inl ⟨rfl, PeerKey.ofId_eq_none hid⟩
    · obtain ⟨k, hk, text⟩ := PeerKey.ofId_eq_some hid
      rw [if_neg hid]
      refine Or.inr ⟨now, k, hk, ?_⟩
      rw [text]

/-- An addition is refused if 1024 messages are stored, and otherwise appends one that waits. -/
theorem ghosts_of_adds (h : call.adds = some k) :
    (maxGhostMessages ≤ s.sm.ghosts.length ∧ (call.exec s).1 = .ret (-1) ∧
      (ghostStep s call).sm.ghosts = s.sm.ghosts) ∨
    (s.sm.ghosts.length < maxGhostMessages ∧ (call.exec s).1 = .ret 0 ∧
      ∃ gm, gm.toId = k.text ∧ gm.delivered = false ∧
        (ghostStep s call).sm.ghosts = s.sm.ghosts ++ [gm]) := by
  cases call with
  | add now rand toId message =>
    have hid : normalizeId toId ≠ [] := by
      intro hid
      have h : PeerKey.ofId toId = some k := h
      rw [PeerKey.ofId_eq_none hid] at h
      cases h
    obtain ⟨k', hk, text⟩ := PeerKey.ofId_eq_some hid
    obtain rfl : k' = k := Option.some.inj (hk.symm.trans h)
    unfold ghostStep GhostCall.exec Store.call stateAddGhostMessage
    dsimp only
    rw [if_neg hid]
    by_cases full : maxGhostMessages ≤ s.sm.ghosts.length
    · rw [if_pos full]
      exact Or.inl ⟨full, rfl, rfl⟩
    · rw [if_neg full]
      exact Or.inr ⟨Nat.lt_of_not_le full, rfl, _, text.symm, rfl, rfl⟩
  | get toId max => cases h
  | count toId => cases h
  | deliver now toId => cases h

/-! ## The array after a run -/

/-- As many messages are stored as were added, up to the size of the array. -/
theorem length_ghosts_run (start : s.sm.ghosts = []) (calls : List GhostCall) :
    (History.run ghostStep s calls).sm.ghosts.length = min maxGhostMessages (additions calls) := by
  induction calls using List.reverseRecOn with
  | nil =>
    show s.sm.ghosts.length = _
    rw [start]
    rfl
  | append_singleton calls call ih =>
    rw [History.run_concat, additions_concat]
    cases h : call.adds with
    | none =>
      rcases ghosts_of_adds_eq_none h with ⟨same, -⟩ | ⟨now, k, -, marked⟩
      · rw [same, ih]
        rfl
      · rw [marked, List.length_map, ih]
        rfl
    | some k =>
      rw [Option.isSome_some, if_pos rfl]
      rcases ghosts_of_adds h with ⟨full, -, same⟩ | ⟨room, -, gm, -, -, added⟩
      · rw [same]
        omega
      · rw [added, List.length_append, List.length_singleton]
        omega

/-- A call that stores a message for `k`, made while there is room. -/
def storesFor (k : PeerKey) (before : List GhostCall) (call : GhostCall) : Prop :=
  call.adds = some k ∧ additions before < maxGhostMessages

/-- For whom messages are stored shows in the calls. -/
theorem exists_ghost_iff (start : s.sm.ghosts = []) (k : PeerKey) :
    (∃ gm ∈ (History.run ghostStep s calls).sm.ghosts, isSameId gm.toId k.text = true) ↔
      History.Once (fun before call _ => storesFor k before call) calls := by
  induction calls using List.reverseRecOn with
  | nil =>
    refine iff_of_false ?_ History.not_once_nil
    rintro ⟨gm, hgm, -⟩
    rw [History.run_nil, start] at hgm
    cases hgm
  | append_singleton calls call ih =>
    rw [History.run_concat, History.once_concat, ← ih]
    cases h : call.adds with
    | none =>
      have other : ¬ storesFor k calls call := by
        rintro ⟨hadds, -⟩
        rw [h] at hadds
        cases hadds
      rw [or_iff_right other]
      rcases ghosts_of_adds_eq_none h with ⟨same, -⟩ | ⟨now, j, -, marked⟩
      · rw [same]
      · rw [marked]
        simp only [List.mem_map, exists_exists_and_eq_and, toId_markFor]
    | some j =>
      rcases ghosts_of_adds h with ⟨full, -, same⟩ | ⟨room, -, gm, recipient, -, added⟩
      · have other : ¬ storesFor k calls call := by
          rintro ⟨-, room⟩
          rw [length_ghosts_run start calls] at full
          omega
        rw [or_iff_right other, same]
      · have here : storesFor k calls call ↔ isSameId gm.toId k.text = true := by
          rw [length_ghosts_run start calls] at room
          unfold storesFor
          rw [h, recipient, PeerKey.isSameId_text_iff, Option.some_inj, and_iff_left (by omega)]
        rw [added, here]
        simp only [List.mem_append, List.mem_singleton, or_and_right, exists_or, exists_eq_left]
        exact or_comm

/-- Some message that a call stored was delivered by a later one. -/
def DeliveredOne (calls : List GhostCall) : Prop :=
  History.Once (fun before call after =>
    ∃ k, storesFor k before call ∧ ∃ later ∈ after, later.delivers = some k) calls

theorem deliveredOne_concat :
    DeliveredOne (calls ++ [call]) ↔
      DeliveredOne calls ∨ ∃ k, call.delivers = some k ∧
        History.Once (fun before call _ => storesFor k before call) calls := by
  unfold DeliveredOne
  rw [History.once_concat]
  constructor
  · rintro (⟨k, -, later, hlater, -⟩ | ⟨before, e, after, rfl, k, stores, later, hlater, delivers⟩)
    · cases hlater
    · rcases List.mem_append.1 hlater with hlater | hlater
      · exact Or.inl ⟨before, e, after, rfl, k, stores, later, hlater, delivers⟩
      · obtain rfl := List.mem_singleton.1 hlater
        exact Or.inr ⟨k, delivers, before, e, after, rfl, stores⟩
  · rintro (h | ⟨k, delivers, h⟩)
    · refine Or.inr (h.mono ?_)
      rintro before e after ⟨k, stores, later, hlater, delivers⟩
      exact ⟨k, stores, later, List.mem_append_left _ hlater, delivers⟩
    · refine Or.inr (h.mono ?_)
      intro before e after stores
      exact ⟨k, stores, call, List.mem_append_right _ (List.mem_singleton_self call), delivers⟩

theorem delivered_markFor (now : Time) (k : PeerKey) (gm : GhostMessage) :
    (gm.markFor now k.text).delivered = true ↔
      gm.delivered = true ∨ isSameId gm.toId k.text = true := by
  unfold GhostMessage.markFor GhostMessage.pendingFor
  cases isSameId gm.toId k.text <;> cases delivered : gm.delivered <;> simp [delivered]

/-- Whether a delivered message takes up a slot shows in the calls. -/
theorem exists_delivered_iff (start : s.sm.ghosts = []) :
    (∃ gm ∈ (History.run ghostStep s calls).sm.ghosts, gm.delivered = true) ↔
      DeliveredOne calls := by
  induction calls using List.reverseRecOn with
  | nil =>
    refine iff_of_false ?_ History.not_once_nil
    rintro ⟨gm, hgm, -⟩
    rw [History.run_nil, start] at hgm
    cases hgm
  | append_singleton calls call ih =>
    rw [History.run_concat, deliveredOne_concat, ← ih]
    cases h : call.adds with
    | none =>
      rcases ghosts_of_adds_eq_none h with ⟨same, silent⟩ | ⟨now, j, delivers, marked⟩
      · rw [same, silent]
        simp
      · have recipient : (∃ k, call.delivers = some k ∧
            History.Once (fun before call _ => storesFor k before call) calls) ↔
            ∃ gm ∈ (History.run ghostStep s calls).sm.ghosts, isSameId gm.toId j.text = true := by
          rw [exists_ghost_iff start, delivers]
          simp
        rw [marked, recipient]
        simp only [List.mem_map, exists_exists_and_eq_and, delivered_markFor, and_or_left, exists_or]
    | some j =>
      have silent : call.delivers = none := by
        cases call with
        | deliver now toId => cases h
        | _ => rfl
      have none_new : ¬ ∃ k, call.delivers = some k ∧
          History.Once (fun before call _ => storesFor k before call) calls := by
        rintro ⟨k, delivers, -⟩
        rw [silent] at delivers
        cases delivers
      rw [or_iff_left none_new]
      rcases ghosts_of_adds h with ⟨-, -, same⟩ | ⟨-, -, gm, -, waits, added⟩
      · rw [same]
      · rw [added]
        simp [or_and_right, exists_or, waits]

/-! ## When additions succeed -/

/-- The messages that wait for anybody. -/
def undelivered (s : Store) : ℕ := s.sm.ghosts.countP fun gm => !gm.delivered

/-- While fewer than 1024 messages wait, an addition succeeds. -/
def RoomForUndelivered (s : Store) (call : GhostCall) : Prop :=
  call.adds.isSome → undelivered s < maxGhostMessages → (call.exec s).1 = .ret 0

/-- A run has added 1024 messages, and one of those that were stored was delivered. -/
def UsedUp (calls : List GhostCall) : Prop :=
  maxGhostMessages ≤ additions calls ∧ DeliveredOne calls

/-- Of a full array, fewer than 1024 messages wait if one was delivered. -/
theorem undelivered_lt_iff (start : s.sm.ghosts = []) (full : maxGhostMessages ≤ additions calls) :
    undelivered (History.run ghostStep s calls) < maxGhostMessages ↔ DeliveredOne calls := by
  have length := length_ghosts_run start calls
  rw [Nat.min_eq_left full] at length
  rw [← exists_delivered_iff start, ← length]
  unfold undelivered
  rw [lt_iff_le_and_ne, and_iff_right List.countP_le_length, ne_eq, List.countP_eq_length]
  simp

theorem roomForUndelivered_iff (start : s.sm.ghosts = []) (adds : call.adds = some k) :
    RoomForUndelivered (History.run ghostStep s calls) call ↔ ¬ UsedUp calls := by
  have length := length_ghosts_run start calls
  unfold RoomForUndelivered UsedUp
  rcases @ghosts_of_adds (History.run ghostStep s calls) call k adds with
    ⟨full, refused, -⟩ | ⟨room, stored, -⟩
  · have many : maxGhostMessages ≤ additions calls := by omega
    rw [refused, and_iff_right many, ← undelivered_lt_iff start many]
    simp [adds]
  · have few : ¬ maxGhostMessages ≤ additions calls := by omega
    exact iff_of_true (fun _ _ => stored) fun used => few used.1

/-- From an empty array on, every addition for an id that is not empty succeeds while fewer than 1024
messages wait, exactly if none comes after 1024 additions of which one that was stored has been
delivered. -/
theorem ghost_capacity_iff (s : Store) (calls : List GhostCall) :
    History.Meets ghostStep RoomForUndelivered { s with sm := { s.sm with ghosts := [] } } calls ↔
      ∀ before call after, calls = before ++ call :: after → call.adds.isSome → ¬ UsedUp before := by
  rw [History.meets_iff_forall]
  refine forall_congr' fun before => forall_congr' fun call => forall_congr' fun after =>
    forall_congr' fun _ => ?_
  cases h : call.adds with
  | none =>
    refine iff_of_true ?_ (by simp)
    intro adds
    rw [h] at adds
    cases adds
  | some k =>
    rw [roomForUndelivered_iff rfl h]
    simp

/-- A message for bob. -/
def addForBob : GhostCall := .add 0 0 (ascii "bob") ⟨ascii "hi", by decide⟩

/-- All 1024 messages were delivered, and the next one is refused. -/
theorem store_stays_full :
    ¬ History.Meets ghostStep RoomForUndelivered Store.init
      (List.replicate 1024 addForBob ++ [.deliver 1 (ascii "bob")] ++ [addForBob]) := by
  rw [History.meets_iff_forall]
  intro meets
  have bob : addForBob.adds = some ⟨ascii "bob", by decide, by decide⟩ := by decide
  have many : additions (List.replicate 1024 addForBob ++ [.deliver 1 (ascii "bob")]) = 1024 := by
    rw [additions_concat]
    unfold additions
    rw [List.countP_replicate, bob]
    rfl
  have used : UsedUp (List.replicate 1024 addForBob ++ [.deliver 1 (ascii "bob")]) := by
    refine ⟨many.ge, [], addForBob, _, rfl, _, ⟨bob, by decide⟩, .deliver 1 (ascii "bob"), ?_, ?_⟩
    · exact List.mem_append_right _ (List.mem_singleton_self _)
    · decide
  exact (roomForUndelivered_iff rfl bob).1 (meets _ _ [] rfl) used

end Orcashi
