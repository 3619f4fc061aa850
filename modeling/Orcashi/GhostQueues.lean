import Mathlib.Logic.Function.Basic
import Orcashi.GhostDelivery
import Orcashi.PeerTable

/-!
# Ghost messages as queues

`g_ghost_messages` is one array for all recipients, in which a delivery only sets flags.  What the
callers see of it is a queue of texts for each recipient: a message is put at the end, reading shows
a prefix, and a delivery empties the queue.
-/

namespace Orcashi

open Function

/-! ## Calls -/

/-- A call about ghost messages. -/
inductive GhostCall where
  | add (now : Time) (rand : ℕ) (toId : CString) (message : FieldText 4096)
  | get (toId : CString) (max : ℤ)
  | count (toId : CString)
  | deliver (now : Time) (toId : CString)

/-- Whether the call is one of `state_add_ghost_message`. -/
def GhostCall.isAdd : GhostCall → Bool
  | .add _ _ _ _ => true
  | _ => false

/-- What a call returns: a number, or the texts of the messages it copied. -/
inductive GhostReply where
  | ret (r : ℤ)
  | texts (ts : List CString)

/-- What a call returns and leaves. -/
def GhostCall.exec (s : Store) : GhostCall → GhostReply × Store
  | .add now rand toId message =>
    (.ret (stateAddGhostMessage now rand toId message.val s.sm).1,
      s.call (stateAddGhostMessage now rand toId message.val))
  | .get toId max => (.texts ((stateGetGhostMessages toId max s.sm).map (·.message)), s)
  | .count toId => (.ret (stateGetGhostCount toId s.sm), s)
  | .deliver now toId =>
    (.ret (stateDeliverGhostMessages now toId s).1, (stateDeliverGhostMessages now toId s).2)

/-! ## The queues -/

/-- For every recipient the texts that wait for it, oldest first. -/
abbrev GhostQueues := PeerKey → List CString

namespace GhostQueues

/-- The queue an argument names; an empty id names none. -/
def queue (q : GhostQueues) (toId : CString) : List CString := ((PeerKey.ofId toId).map q).getD []

/-- Change the queue an argument names. -/
def set (q : GhostQueues) (toId : CString) (texts : List CString) : GhostQueues :=
  match PeerKey.ofId toId with
  | none => q
  | some k => update q k texts

/-- What a call may return and leave, where each id has a queue of its own. -/
def Allows (q : GhostQueues) : GhostCall → GhostReply → GhostQueues → Prop
  | .add _ _ toId message, r, q' =>
    if normalizeId toId = [] then r = .ret (-1) ∧ q' = q
    else r = .ret 0 ∧ q' = q.set toId (q.queue toId ++ [message.val])
  | .get toId max, r, q' => r = .texts ((q.queue toId).take max.toNat) ∧ q' = q
  | .count toId, r, q' => r = .ret (q.queue toId).length ∧ q' = q
  | .deliver _ toId, r, q' => r = .ret (q.queue toId).length ∧ q' = q.set toId []

end GhostQueues

/-- The texts of the messages stored for a recipient and not delivered. -/
def waiting (k : PeerKey) (ghosts : List GhostMessage) : List CString :=
  (ghosts.filter (·.pendingFor k.text)).map (·.message)

/-- The array holds the queues. -/
def Queues (s : Store) (q : GhostQueues) : Prop := ∀ k, q k = waiting k s.sm.ghosts

/-! ## The array under the operations -/

theorem pendingFor_text_iff {j k : PeerKey} {gm : GhostMessage} (h : gm.toId = j.text) :
    gm.pendingFor k.text = true ↔ j = k ∧ gm.delivered = false := by
  unfold GhostMessage.pendingFor
  rw [Bool.and_eq_true, h, PeerKey.isSameId_text_iff, Bool.not_eq_true']

theorem waiting_append (k : PeerKey) (ghosts ghosts' : List GhostMessage) :
    waiting k (ghosts ++ ghosts') = waiting k ghosts ++ waiting k ghosts' := by
  unfold waiting
  rw [List.filter_append, List.map_append]

/-- A new message waits for its recipient only. -/
theorem waiting_new {j k : PeerKey} {gm : GhostMessage} (recipient : gm.toId = k.text)
    (undelivered : gm.delivered = false) :
    waiting j [gm] = if j = k then [gm.message] else [] := by
  unfold waiting
  split_ifs with hj
  · rw [List.filter_cons_of_pos ((pendingFor_text_iff recipient).2 ⟨hj.symm, undelivered⟩)]
    rfl
  · rw [List.filter_cons_of_neg]
    · rfl
    · rw [pendingFor_text_iff recipient]
      rintro ⟨rfl, -⟩
      exact hj rfl

/-- After a delivery nothing waits for its recipient. -/
theorem waiting_mark_self (now : Time) (k : PeerKey) (ghosts : List GhostMessage) :
    waiting k (ghosts.map (·.markFor now k.text)) = [] := by
  unfold waiting
  rw [List.map_eq_nil_iff, List.filter_eq_nil_iff]
  intro gm hgm
  obtain ⟨gm₀, -, rfl⟩ := List.mem_map.1 hgm
  rw [pendingFor_markFor]
  exact Bool.false_ne_true

/-- A message pending for one recipient is not pending for another. -/
theorem pendingFor_eq_false_of_ne {j k : PeerKey} (h : j ≠ k) {gm : GhostMessage}
    (hk : gm.pendingFor k.text = true) : gm.pendingFor j.text = false := by
  unfold GhostMessage.pendingFor at hk ⊢
  rw [Bool.and_eq_true, isSameId_iff, k.normal] at hk
  have other : isSameId gm.toId j.text = false := by
    rw [isSameId_eq_false_iff, hk.1, j.normal]
    intro same
    exact h (PeerKey.text_injective same.symm)
  rw [other, Bool.false_and]

/-- A delivery leaves what waits for others. -/
theorem waiting_mark_of_ne (now : Time) {j k : PeerKey} (h : j ≠ k) (ghosts : List GhostMessage) :
    waiting j (ghosts.map (·.markFor now k.text)) = waiting j ghosts := by
  unfold waiting
  induction ghosts with
  | nil => rfl
  | cons gm ghosts ih =>
    rw [List.map_cons]
    cases hk : gm.pendingFor k.text with
    | false =>
      rw [markFor_eq_self hk, List.filter_cons, List.filter_cons]
      split_ifs
      · rw [List.map_cons, ih, List.map_cons]
      · exact ih
    | true =>
      have marked : (gm.markFor now k.text).pendingFor j.text = false := by
        unfold GhostMessage.markFor
        rw [if_pos hk]
        simp [GhostMessage.pendingFor]
      rw [List.filter_cons_of_neg (by rw [marked]; exact Bool.false_ne_true), ih,
        List.filter_cons_of_neg (by rw [pendingFor_eq_false_of_ne h hk]; exact Bool.false_ne_true)]

/-! ## One call -/

namespace Queues

variable {s : Store} {q : GhostQueues}

theorem queue_eq (holds : Queues s q) {toId : CString} {k : PeerKey}
    (hk : PeerKey.ofId toId = some k) : q.queue toId = waiting k s.sm.ghosts := by
  unfold GhostQueues.queue
  rw [hk, ← holds k]
  rfl

theorem queue_nil {toId : CString} (hid : normalizeId toId = []) : q.queue toId = [] := by
  unfold GhostQueues.queue
  rw [PeerKey.ofId_eq_none hid]
  rfl

theorem length_queue (holds : Queues s q) (toId : CString) :
    (q.queue toId).length = (pendingMessages toId s.sm).length := by
  unfold pendingMessages
  by_cases hid : normalizeId toId = []
  · rw [if_pos hid, queue_nil hid]
    rfl
  · obtain ⟨k, hk, text⟩ := PeerKey.ofId_eq_some hid
    rw [if_neg hid, holds.queue_eq hk, ← text]
    exact List.length_map _

theorem set (holds : Queues s q) {s' : Store} {toId : CString} {k : PeerKey}
    (hk : PeerKey.ofId toId = some k) {texts : List CString}
    (own : waiting k s'.sm.ghosts = texts)
    (others : ∀ j, j ≠ k → waiting j s'.sm.ghosts = waiting j s.sm.ghosts) :
    Queues s' (q.set toId texts) := by
  intro j
  unfold GhostQueues.set
  rw [hk]
  dsimp only
  by_cases hj : j = k
  · rw [hj, update_self, own]
  · rw [update_of_ne hj, others j hj, holds j]

theorem add (holds : Queues s q) (room : s.sm.ghosts.length < maxGhostMessages) (now : Time)
    (rand : ℕ) (toId : CString) (message : FieldText 4096) :
    ∃ q', q.Allows (.add now rand toId message)
        (GhostCall.exec s (.add now rand toId message)).1 q' ∧
      Queues (GhostCall.exec s (.add now rand toId message)).2 q' := by
  unfold GhostQueues.Allows GhostCall.exec Store.call stateAddGhostMessage
  dsimp only
  by_cases hid : normalizeId toId = []
  · simp only [if_pos hid]
    exact ⟨q, ⟨trivial, rfl⟩, holds⟩
  · obtain ⟨k, hk, text⟩ := PeerKey.ofId_eq_some hid
    simp only [if_neg hid, if_neg (Nat.not_le.2 room)]
    refine ⟨_, ⟨trivial, rfl⟩, holds.set hk ?_ ?_⟩
    · rw [waiting_append, holds.queue_eq hk, ← text, waiting_new rfl rfl, if_pos rfl]
    · intro j hj
      rw [waiting_append, ← text, waiting_new rfl rfl, if_neg hj, List.append_nil]

theorem deliver (holds : Queues s q) (now : Time) (toId : CString) :
    ∃ q', q.Allows (.deliver now toId) (GhostCall.exec s (.deliver now toId)).1 q' ∧
      Queues (GhostCall.exec s (.deliver now toId)).2 q' := by
  unfold GhostQueues.Allows GhostCall.exec
  dsimp only
  refine ⟨q.set toId [], ⟨?_, rfl⟩, ?_⟩
  · rw [holds.length_queue, stateDeliverGhostMessages_eq]
    unfold pendingMessages
    split_ifs <;> rfl
  · rw [stateDeliverGhostMessages_eq]
    by_cases hid : normalizeId toId = []
    · rw [if_pos hid]
      unfold GhostQueues.set
      rw [PeerKey.ofId_eq_none hid]
      exact holds
    · obtain ⟨k, hk, text⟩ := PeerKey.ofId_eq_some hid
      rw [if_neg hid, ← text]
      apply holds.set hk
      · exact waiting_mark_self now k _
      · intro j hj
        exact waiting_mark_of_ne now hj _

/-- Every call gets the queues' answer and does to the array what it means on them. -/
theorem exec (holds : Queues s q) (call : GhostCall)
    (room : call.isAdd = true → s.sm.ghosts.length < maxGhostMessages) :
    ∃ q', q.Allows call (call.exec s).1 q' ∧ Queues (call.exec s).2 q' := by
  cases call with
  | add now rand toId message => exact holds.add (room rfl) now rand toId message
  | get toId max =>
    refine ⟨q, ⟨?_, rfl⟩, holds⟩
    apply congrArg GhostReply.texts
    unfold stateGetGhostMessages
    by_cases hid : normalizeId toId = []
    · rw [if_pos (Or.inl hid), queue_nil hid, List.take_nil]
      rfl
    · obtain ⟨k, hk, text⟩ := PeerKey.ofId_eq_some hid
      rw [holds.queue_eq hk, ← text]
      by_cases hmax : max ≤ 0
      · rw [if_pos (Or.inr hmax), Int.toNat_of_nonpos hmax, List.take_zero]
        rfl
      · rw [if_neg (not_or_intro k.ne_nil hmax), collect_eq, List.map_take]
        rfl
  | count toId =>
    refine ⟨q, ⟨?_, rfl⟩, holds⟩
    apply congrArg fun n : ℕ => GhostReply.ret n
    rw [holds.length_queue]
    unfold stateGetGhostCount pendingMessages
    split_ifs
    · rfl
    · exact List.countP_eq_length_filter
  | deliver now toId => exact holds.deliver now toId

end Queues

/-! ## Runs -/

/-- A call adds at most one message, and only `state_add_ghost_message` adds one. -/
theorem length_ghosts_exec_le (s : Store) (call : GhostCall) :
    (call.exec s).2.sm.ghosts.length ≤ s.sm.ghosts.length + [call].countP GhostCall.isAdd := by
  cases call with
  | add now rand toId message =>
    show (stateAddGhostMessage now rand toId message.val s.sm).2.ghosts.length ≤ _ + 1
    unfold stateAddGhostMessage
    dsimp only
    split_ifs
    · exact Nat.le_succ _
    · exact Nat.le_succ _
    · rw [List.length_append, List.length_singleton]
  | get toId max => exact Nat.le_refl _
  | count toId => exact Nat.le_refl _
  | deliver now toId =>
    show (stateDeliverGhostMessages now toId s).2.sm.ghosts.length ≤ _
    rw [stateDeliverGhostMessages_eq]
    split_ifs
    · exact Nat.le_add_right _ _
    · show (s.sm.ghosts.map _).length ≤ _
      rw [List.length_map]
      exact Nat.le_add_right _ _

/-- As long as no more messages are added than the array holds, there is room for each of them. -/
theorem meets_room {s : Store} {calls : List GhostCall}
    (few : s.sm.ghosts.length + calls.countP GhostCall.isAdd ≤ maxGhostMessages) :
    History.Meets (fun s call => (GhostCall.exec s call).2)
      (fun s call => call.isAdd = true → s.sm.ghosts.length < maxGhostMessages) s calls := by
  induction calls generalizing s with
  | nil => trivial
  | cons call calls ih =>
    rw [List.countP_cons] at few
    constructor
    · intro add
      rw [if_pos add] at few
      omega
    · apply ih
      dsimp only
      have step := length_ghosts_exec_le s call
      rw [List.countP_cons, List.countP_nil] at step
      omega

/-- From an empty array on, every sequence of calls with at most 1024 additions is answered as by
one queue for each recipient. -/
theorem ghosts_refine_queues (s : Store) (calls : List GhostCall)
    (few : calls.countP GhostCall.isAdd ≤ maxGhostMessages) :
    Refinement.Refines GhostCall.exec GhostQueues.Allows Queues
      { s with sm := { s.sm with ghosts := [] } } (fun _ => []) calls := by
  apply Refinement.refines_of_step
    fun s call => call.isAdd = true → s.sm.ghosts.length < maxGhostMessages
  · intro s q call holds room
    exact holds.exec call room
  · intro k
    rfl
  · apply meets_room
    rw [List.length_nil, Nat.zero_add]
    exact few

theorem ghosts_refine_queues_add :
    Refinement.Refines GhostCall.exec GhostQueues.Allows Queues
      { Store.init with sm := { Store.init.sm with ghosts := [] } } (fun _ => [])
      [.add 0 0 [98] ⟨[104, 105], by decide⟩, .deliver 1 [60, 98, 62], .count [98]] :=
  ghosts_refine_queues Store.init _ (by decide)

end Orcashi
