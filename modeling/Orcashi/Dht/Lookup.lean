import Mathlib.Logic.Function.Basic
import Orcashi.Dht.Node
import Orcashi.Lib.History

/-!
# Lookups

Any number of threads look ids up on one node, while it announces and while the DHT delivers events.  A lookup
clears the slot of the node, starts its search, and takes what is in the slot when it looks there next.  The
callback stores the first result that comes, of whatever search and of whatever kind.  So a lookup gets what
it asked for as long as nothing else comes to be stored while it waits.
-/

namespace Orcashi

open CMemory Function

/-! ## Runs -/

/-- A call of `dht_node_lookup`: what it looks up, whether its search is started, and the events that were
delivered since it began, which no function reads. -/
structure LookupCall where
  id : IdText
  searching : Bool
  since : List DhtEvent

/-- The node and the call that each thread is in. -/
structure DhtWorld where
  node : DhtNode
  calls : ℕ → Option LookupCall

/-- After `dht_node_create`. -/
def DhtWorld.init : DhtWorld := ⟨.create, fun _ => none⟩

/-- What can happen next. -/
inductive DhtStep where
  | announce (id : IdText) (port ret : ℤ)
  | announceSecure (id : IdText) (port ret : ℤ) (publicKey signature : CString)
  /-- a thread calls `dht_node_lookup`, up to its search -/
  | lookup (thread : ℕ) (now : Time) (id : IdText) (timeoutSec : ℤ)
  /-- its search is started, or was not -/
  | searched (thread : ℕ) (ret : ℤ)
  /-- a turn of its loop -/
  | poll (thread : ℕ)
  /-- the end of its loop -/
  | timeout (thread : ℕ)
  /-- the DHT delivers an event -/
  | event (e : DhtEvent)

/-- A thread is in this call. -/
def DhtWorld.enter (w : DhtWorld) (thread : ℕ) (call : Option LookupCall) : DhtWorld :=
  { w with calls := update w.calls thread call }

/-- A thread that is not where a step begins does not take it. -/
def dhtStep (crypto : Crypto) (w : DhtWorld) : DhtStep → DhtWorld
  | .announce id port ret => { w with node := (dhtNodeAnnounce ret id port w.node).2.1 }
  | .announceSecure id port ret publicKey signature =>
    { w with node := (dhtNodeAnnounceSecure crypto ret id port publicKey signature w.node).2.1 }
  | .lookup thread now id timeoutSec =>
    match w.calls thread with
    | some _ => w
    | none =>
      DhtWorld.enter { w with node := (dhtNodeLookupStart now id timeoutSec w.node).1 } thread
        (some ⟨id, false, []⟩)
  | .searched thread ret =>
    match w.calls thread with
    | some ⟨id, false, since⟩ =>
      if ret < 0 then w.enter thread none else w.enter thread (some ⟨id, true, since⟩)
    | _ => w
  | .poll thread =>
    match w.calls thread with
    | some ⟨_, true, _⟩ => if (dhtNodeLookupPoll w.node).isSome then w.enter thread none else w
    | _ => w
  | .timeout thread =>
    match w.calls thread with
    | some ⟨_, true, _⟩ => w.enter thread none
    | _ => w
  | .event e =>
    { node := dhtNodeCallback e w.node
      calls := fun thread => (w.calls thread).map fun c => { c with since := c.since ++ [e] } }

/-! ## What is asked for -/

/-- A result for the id, with this address and this port. -/
structure DhtEvent.Answers (e : DhtEvent) (id : IdText) (peer : IpText × ℤ) : Prop where
  ipv4 : e.kind = .values
  infoHash : e.infoHash = dhtHash id.val
  peer : firstPeer e.data = some peer

/-- A lookup that returns 1 got its result from an event that answers it and came since it began. -/
def AnswersLookup (w : DhtWorld) (l : DhtStep) : Prop :=
  ∀ thread call peer, l = .poll thread → w.calls thread = some call → call.searching = true →
    dhtNodeLookupPoll w.node = some peer → ∃ e ∈ call.since, e.Answers call.id peer

/-- An event that is stored is an IPv4 result for the id of every lookup that waits. -/
def StoresAnswer (w : DhtWorld) (l : DhtStep) : Prop :=
  ∀ e, l = .event e → w.node.lookupDone = false → (firstPeer e.data).isSome →
    e.kind = .values ∨ e.kind = .values6 →
      ∀ thread call, w.calls thread = some call → e.kind = .values ∧ e.infoHash = dhtHash call.id.val

/-! ## The slot -/

/-- What is in the slot answers every lookup that waits. -/
def SlotAnswers (w : DhtWorld) : Prop :=
  w.node.lookupDone = true → ∀ thread call, w.calls thread = some call →
    ∃ e ∈ call.since, e.Answers call.id (w.node.lookupIp, w.node.lookupPort)

section Step

variable {crypto : Crypto} {w : DhtWorld}

/-- A thread that enters a call which knows as much, or leaves its own. -/
theorem SlotAnswers.enter (h : SlotAnswers w) {thread : ℕ} {next : Option LookupCall}
    (kept : ∀ call ∈ next, ∃ before, w.calls thread = some before ∧ before.id = call.id ∧
      before.since = call.since) : SlotAnswers (w.enter thread next) := by
  intro done other call here
  by_cases same : other = thread
  · subst same
    have entered : next = some call := by
      rw [← here]
      exact (update_self other next w.calls).symm
    obtain ⟨before, was, id, since⟩ := kept call entered
    obtain ⟨e, he, answers⟩ := h done other before was
    rw [since] at he
    rw [id] at answers
    exact ⟨e, he, answers⟩
  · have was : w.calls other = some call := by
      rw [← here]
      exact (update_of_ne same _ _).symm
    exact h done other call was

/-- The callback stores a result or leaves the node. -/
theorem dhtNodeCallback_cases (e : DhtEvent) (node : DhtNode) :
    dhtNodeCallback e node = node ∨
      (e.kind = .values ∨ e.kind = .values6) ∧ node.lookupDone = false ∧ ∃ ip port,
        firstPeer e.data = some (ip, port) ∧
          dhtNodeCallback e node = { node with lookupIp := ip, lookupPort := port, lookupDone := true } := by
  unfold dhtNodeCallback
  by_cases result : e.kind = .values ∨ e.kind = .values6
  · rw [if_pos result]
    cases first : firstPeer e.data with
    | none => exact Or.inl rfl
    | some peer =>
      obtain ⟨ip, port⟩ := peer
      cases done : node.lookupDone with
      | true => exact Or.inl rfl
      | false => exact Or.inr ⟨result, rfl, ip, port, rfl, rfl⟩
  · rw [if_neg result]
    exact Or.inl rfl

theorem SlotAnswers.event (h : SlotAnswers w) {e : DhtEvent} (stores : StoresAnswer w (.event e)) :
    SlotAnswers (dhtStep crypto w (.event e)) := by
  intro done thread call here
  obtain ⟨before, was, rfl⟩ := Option.map_eq_some_iff.1 here
  dsimp only [dhtStep] at done ⊢
  rcases dhtNodeCallback_cases e w.node with same | ⟨result, empty, ip, port, first, stored⟩
  · rw [same] at done ⊢
    obtain ⟨e', he', answers⟩ := h done thread before was
    exact ⟨e', List.mem_append_left _ he', answers⟩
  · obtain ⟨ipv4, infoHash⟩ := stores e rfl empty (by rw [first]; rfl) result thread before was
    rw [stored]
    exact ⟨e, List.mem_append_right _ (List.mem_singleton_self e), ipv4, infoHash, first⟩

/-- What leaves the slot keeps what is in it an answer. -/
theorem SlotAnswers.frame (h : SlotAnswers w) {node : DhtNode} (done : node.lookupDone = w.node.lookupDone)
    (ip : node.lookupIp = w.node.lookupIp) (port : node.lookupPort = w.node.lookupPort) :
    SlotAnswers { w with node := node } := by
  unfold SlotAnswers
  dsimp only
  rw [done, ip, port]
  exact h

theorem SlotAnswers.step (h : SlotAnswers w) {l : DhtStep} (stores : StoresAnswer w l) :
    SlotAnswers (dhtStep crypto w l) := by
  cases l with
  | announce id port ret => exact h.frame rfl rfl rfl
  | announceSecure id port ret publicKey signature =>
    apply h.frame
    all_goals
      unfold dhtNodeAnnounceSecure
      split_ifs <;> rfl
  | lookup thread now id timeoutSec =>
    dsimp only [dhtStep]
    split
    · exact h
    · -- the slot is cleared
      intro done
      cases done
  | searched thread ret =>
    dsimp only [dhtStep]
    split
    · rename_i id since waiting
      split_ifs
      · exact h.enter (by simp)
      · refine h.enter fun call hcall => ?_
        obtain rfl := Option.some.inj hcall
        exact ⟨_, waiting, rfl, rfl⟩
    · exact h
  | poll thread =>
    dsimp only [dhtStep]
    split
    · split_ifs
      · exact h.enter (by simp)
      · exact h
    · exact h
  | timeout thread =>
    dsimp only [dhtStep]
    split
    · exact h.enter (by simp)
    · exact h
  | event e => exact h.event stores

theorem SlotAnswers.answersLookup (h : SlotAnswers w) (l : DhtStep) : AnswersLookup w l := by
  rintro thread call peer rfl here - returned
  unfold dhtNodeLookupPoll at returned
  split_ifs at returned with done
  obtain rfl := Option.some.inj returned
  exact h done thread call here

end Step

/-! ## Every run -/

/-- In every run in which each event that is stored is an IPv4 result for the id of every lookup that waits,
every lookup that returns 1 got a result for its id that came since it began. -/
theorem lookups_answered (crypto : Crypto) (steps : List DhtStep)
    (stores : History.Meets (dhtStep crypto) StoresAnswer .init steps) :
    History.Meets (dhtStep crypto) AnswersLookup .init steps := by
  have start : SlotAnswers .init := by
    intro done
    cases done
  exact History.Meets.imp_of_invariant SlotAnswers (fun _ _ h stores => h.step stores)
    (fun _ l h _ => h.answersLookup l) start stores

/-! ## Two runs -/

/-- The result of a search for the id, with the bytes of 10.0.0.1:9000. -/
def DhtEvent.resultOf (kind : DhtEventKind) (id : IdText) : DhtEvent :=
  ⟨kind, dhtHash id.val, [10, 0, 0, 1, 0x23, 0x28]⟩

/-- A short id. -/
def IdText.seven : IdText := ⟨ascii "7", by decide⟩

/-- Another short id. -/
def IdText.eight : IdText := ⟨ascii "8", by decide⟩

/-- The only thread looks 7 up, an event comes, and it looks into the slot. -/
def lookupSeven (e : DhtEvent) : List DhtStep :=
  [.lookup 0 0 .seven 10, .searched 0 0, .event e, .poll 0]

theorem result_for_seven :
    History.Meets (dhtStep .failing) AnswersLookup .init (lookupSeven (.resultOf .values .seven)) := by
  refine lookups_answered .failing _ ⟨?_, ?_, ?_, ?_, trivial⟩
  · rintro e ⟨⟩
  · rintro e ⟨⟩
  · rintro e ⟨⟩ - - - thread call here
    by_cases same : thread = 0
    · subst same
      obtain rfl := Option.some.inj here
      exact ⟨rfl, rfl⟩
    · have idle : update (update (fun _ => none) 0 (some ⟨.seven, false, []⟩)) 0
          (some ⟨.seven, true, []⟩) thread = (none : Option LookupCall) := by
        rw [update_of_ne same, update_of_ne same]
      exact absurd (idle.symm.trans here) (Option.some_ne_none call).symm
  · rintro e ⟨⟩

/-- While it looks 7 up, a result for 8 comes, as it does if 8 is what the node announces; or an IPv6 result. -/
theorem other_results_for_seven :
    ¬ History.Meets (dhtStep .failing) AnswersLookup .init (lookupSeven (.resultOf .values .eight)) ∧
      ¬ History.Meets (dhtStep .failing) AnswersLookup .init (lookupSeven (.resultOf .values6 .seven)) := by
  constructor
  · rintro ⟨-, -, -, answers, -⟩
    obtain ⟨e, he, answers⟩ := answers 0 _ _ rfl rfl rfl rfl
    obtain rfl := List.mem_singleton.1 he
    exact absurd answers.infoHash (by decide)
  · rintro ⟨-, -, -, answers, -⟩
    obtain ⟨e, he, answers⟩ := answers 0 _ _ rfl rfl rfl rfl
    obtain rfl := List.mem_singleton.1 he
    exact absurd answers.ipv4 (by decide)

end Orcashi
