import Orcashi.Lib.History
import Orcashi.Parallel.Executors

/-!
# The registry of tasks

`task_start` appends a task to `g_tasks`, which is as long as a list of strategies, and nothing removes
it: the next call of `parallel_run` appends behind it, after `task_free` has released it.
-/

namespace Orcashi

open History

/-! ## Tasks and calls -/

/-- The task of the strategy with this number, in the call with this number. -/
structure TaskId where
  call : ℕ
  index : ℕ
  deriving DecidableEq

/-- The entries of `g_tasks` below `g_task_count`, and the tasks `task_free` has released. -/
structure TaskRegistry where
  entries : List TaskId
  freed : List TaskId
  calls : ℕ
  deriving DecidableEq

/-- `g_tasks` and `g_task_count` when the program starts. -/
def TaskRegistry.init : TaskRegistry := ⟨[], [], 0⟩

/-- Where a sequence of calls stands. -/
inductive RegistryState where
  /-- a call has written outside `g_tasks` -/
  | undefined
  /-- a call still polls -/
  | waiting (r : TaskRegistry)
  /-- every call has returned -/
  | idle (r : TaskRegistry)
  deriving DecidableEq

/-- One call, and how many turns of its loop are watched: if it still polls then, it is the last one of
the sequence. -/
structure ParallelCall where
  env : ParallelEnv
  strategies : List StrategyType
  result : ConnectionResult
  fuel : ℕ

/-- `parallel_run_single` -/
def ParallelCall.single (env : ParallelEnv) (strategy : StrategyType) (result : ConnectionResult)
    (fuel : ℕ) : ParallelCall :=
  ⟨env, [strategy], result, fuel⟩

/-- The tasks that are created for the strategies for which `p` holds. -/
def createdTasks (env : ParallelEnv) (call : ℕ) (strategies : List StrategyType) (p : ℕ → Bool) :
    List TaskId :=
  ((numbered strategies).filter fun x => env.creates x.2 && p x.2).map fun x => ⟨call, x.2⟩

/-- The registry after a call of `parallel_run`. -/
def registryStep : RegistryState → ParallelCall → RegistryState
  | .idle r, l =>
    let created := createdTasks l.env r.calls l.strategies fun _ => true
    match parallelRun l.env l.strategies r.entries.length l.result l.fuel with
    | .undefined => .undefined
    -- a task whose thread cannot be started is released at once
    | .polling =>
      .waiting ⟨r.entries ++ created,
        r.freed ++ createdTasks l.env r.calls l.strategies fun i => !l.env.starts i, r.calls + 1⟩
    | .returned _ _ _ => .idle ⟨r.entries ++ created, r.freed ++ created, r.calls + 1⟩
  | s, _ => s

/-! ## The invariant -/

/-- No write was outside `g_tasks`, the count is in its bounds, and once the calls have returned no entry
refers to a task that was released. -/
def RegistrySound : RegistryState → Prop
  | .undefined => False
  | .waiting r => r.entries.length ≤ maxStrategies
  | .idle r => r.entries.length ≤ maxStrategies ∧ ∀ task ∈ r.entries, task ∉ r.freed

/-- A thread is started, and in none of the turns the loop is watched for does it find a success or has
it found as many tasks done as there are. -/
def StillPolls (l : ParallelCall) : Prop :=
  startedTasks l.env l.strategies ≠ [] ∧
    ∀ k < l.fuel, donePolls l.env (startedTasks l.env l.strategies) k <
        (startedTasks l.env l.strategies).length ∧
      ∀ task, firstDone l.env (startedTasks l.env l.strategies) k = some task →
        task.result.success = false

/-- A call that comes to be made creates no task, or it does not return. -/
def CreatesNone (s : RegistryState) (l : ParallelCall) : Prop :=
  ∀ r, s = .idle r → storedTasks l.env l.strategies = 0 ∨ StillPolls l

/-! ## One call -/

section Wait

variable {env : ParallelEnv} {tasks : List ParallelTask}

/-- The loop is not over exactly if no turn of it has found a success or enough tasks done. -/
theorem parallelWait_eq_none_iff {fuel poll : ℕ} :
    parallelWait env tasks fuel poll (donePolls env tasks poll) = none ↔
      ∀ k, poll ≤ k → k < poll + fuel → donePolls env tasks k < tasks.length ∧
        ∀ task, firstDone env tasks k = some task → task.result.success = false := by
  induction fuel generalizing poll with
  | zero => exact iff_of_true rfl fun k le lt => absurd lt (Nat.not_lt.2 le)
  | succ fuel ih =>
    have split : (∀ k, poll ≤ k → k < poll + (fuel + 1) → donePolls env tasks k < tasks.length ∧
          ∀ task, firstDone env tasks k = some task → task.result.success = false) ↔
        (donePolls env tasks poll < tasks.length ∧
          ∀ task, firstDone env tasks poll = some task → task.result.success = false) ∧
        parallelWait env tasks fuel (poll + 1) (donePolls env tasks (poll + 1)) = none := by
      rw [ih]
      constructor
      · intro all
        exact ⟨all poll le_rfl (by omega), fun k le lt => all k (by omega) (by omega)⟩
      · rintro ⟨first, rest⟩ k le lt
        rcases Nat.eq_or_lt_of_le le with rfl | later
        · exact first
        · exact rest k later (by omega)
    rw [split, parallelWait]
    by_cases full : tasks.length ≤ donePolls env tasks poll
    · rw [if_pos full]
      exact iff_of_false (Option.some_ne_none _) fun h => absurd h.1.1 (Nat.not_lt.2 full)
    · rw [if_neg full]
      cases found : firstDone env tasks poll with
      | none =>
        rw [donePolls_succ_of_none found]
        exact (and_iff_right ⟨Nat.not_le.1 full, fun _ h => nomatch h⟩).symm
      | some task =>
        rw [donePolls_succ_of_some found]
        dsimp only
        by_cases wins : task.result.success = true
        · rw [if_pos wins]
          refine iff_of_false (Option.some_ne_none _) fun h => ?_
          exact absurd (h.1.2 task rfl) (by rw [wins]; decide)
        · rw [if_neg wins]
          refine (and_iff_right ⟨Nat.not_le.1 full, fun other h => ?_⟩).symm
          obtain rfl := Option.some.inj h
          exact Bool.eq_false_iff.2 wins

end Wait

section Call

variable {l : ParallelCall} {r : TaskRegistry}

theorem length_createdTasks (call : ℕ) :
    (createdTasks l.env call l.strategies fun _ => true).length = storedTasks l.env l.strategies := by
  unfold createdTasks storedTasks
  rw [List.length_map, List.countP_eq_length_filter]
  simp only [Bool.and_true]

theorem storedTasks_le (env : ParallelEnv) (strategies : List StrategyType) :
    storedTasks env strategies ≤ maxStrategies := by
  unfold storedTasks numbered
  calc _ ≤ ((strategies.take maxStrategies).zipIdx).length := List.countP_le_length
    _ = (strategies.take maxStrategies).length := List.length_zipIdx
    _ ≤ maxStrategies := List.length_take_le _ _

/-- A call that fits into `g_tasks` still polls, or has returned. -/
theorem parallelRun_cases (fits : r.entries.length + storedTasks l.env l.strategies ≤ maxStrategies) :
    (StillPolls l ∧ parallelRun l.env l.strategies r.entries.length l.result l.fuel = .polling) ∨
      (¬ StillPolls l ∧ ∃ ret last stored,
        parallelRun l.env l.strategies r.entries.length l.result l.fuel = .returned ret last stored) := by
  cases tasks : startedTasks l.env l.strategies with
  | nil =>
    refine Or.inr ⟨fun polls => polls.1 tasks, -1, l.result,
      r.entries.length + storedTasks l.env l.strategies, ?_⟩
    unfold parallelRun
    dsimp only
    rw [if_neg (Nat.not_lt.2 fits), tasks]
  | cons first rest =>
    have polls : StillPolls l ↔
        parallelWait l.env (startedTasks l.env l.strategies) l.fuel 0 0 = none := by
      have waits := @parallelWait_eq_none_iff l.env (startedTasks l.env l.strategies) l.fuel 0
      refine Iff.trans ⟨fun h k _ lt => h.2 k (by omega), fun h => ⟨?_, fun k lt => ?_⟩⟩ waits.symm
      · rw [tasks]
        exact List.cons_ne_nil _ _
      · exact h k (Nat.zero_le k) (by omega)
    rw [polls, parallelRun_eq fits tasks]
    cases parallelWait l.env (startedTasks l.env l.strategies) l.fuel 0 0 with
    | none => exact Or.inl ⟨rfl, rfl⟩
    | some outcome =>
      refine Or.inr ⟨Option.some_ne_none _, ?_⟩
      cases outcome with
      | none => exact ⟨_, _, _, rfl⟩
      | some task => exact ⟨_, _, _, rfl⟩

end Call

/-! ## Runs -/

/-- The registry is empty between the calls. -/
def RegistryEmpty : RegistryState → Prop
  | .undefined => False
  | .waiting r => r.entries.length ≤ maxStrategies
  | .idle r => r.entries = []

/-- What a call comes to, where the registry is empty. -/
theorem registryStep_cases {r : TaskRegistry} (empty : r.entries = []) (l : ParallelCall) :
    (StillPolls l ∧ ∃ r', registryStep (.idle r) l = .waiting r' ∧
        r'.entries.length ≤ maxStrategies) ∨
      (¬ StillPolls l ∧ ∃ r', registryStep (.idle r) l = .idle r' ∧
        r'.entries.length = storedTasks l.env l.strategies ∧ ∀ task ∈ r'.entries, task ∈ r'.freed) := by
  have count (call : ℕ) : (r.entries ++
      createdTasks l.env call l.strategies fun _ => true).length = storedTasks l.env l.strategies := by
    rw [empty, List.nil_append, length_createdTasks]
  have fits : r.entries.length + storedTasks l.env l.strategies ≤ maxStrategies := by
    rw [empty, List.length_nil, Nat.zero_add]
    exact storedTasks_le _ _
  unfold registryStep
  dsimp only
  rcases parallelRun_cases fits with ⟨polls, run⟩ | ⟨returns, ret, last, stored, run⟩
  · rw [run]
    exact Or.inl ⟨polls, _, rfl, (count _).trans_le (storedTasks_le _ _)⟩
  · rw [run]
    refine Or.inr ⟨returns, _, rfl, count _, ?_⟩
    rw [empty, List.nil_append]
    exact fun task mem => List.mem_append_right _ mem

theorem registrySound_step_iff {s : RegistryState} {l : ParallelCall} (empty : RegistryEmpty s) :
    RegistrySound (registryStep s l) ↔ CreatesNone s l := by
  cases s with
  | undefined => exact empty.elim
  | waiting r => exact iff_of_true empty fun _ h => nomatch h
  | idle r =>
    have only : CreatesNone (.idle r) l ↔ storedTasks l.env l.strategies = 0 ∨ StillPolls l :=
      ⟨fun h => h r rfl, fun h _ _ => h⟩
    rw [only]
    rcases registryStep_cases empty l with ⟨polls, r', step, few⟩ | ⟨returns, r', step, count, freed⟩
    · rw [step]
      exact iff_of_true few (Or.inr polls)
    · rw [step, or_iff_left returns, ← count, List.length_eq_zero_iff]
      constructor
      · rintro ⟨-, live⟩
        exact List.eq_nil_iff_forall_not_mem.2 fun task mem => live task mem (freed task mem)
      · intro none
        exact ⟨by rw [none]; exact Nat.zero_le _, by rw [none]; exact fun _ mem => nomatch mem⟩

theorem registryEmpty_step {s : RegistryState} {l : ParallelCall} (empty : RegistryEmpty s)
    (sound : RegistrySound (registryStep s l)) : RegistryEmpty (registryStep s l) := by
  cases s with
  | undefined => exact empty.elim
  | waiting r => exact empty
  | idle r =>
    rcases registryStep_cases empty l with ⟨-, r', step, few⟩ | ⟨-, r', step, -, freed⟩
    · rw [step]
      exact few
    · rw [step] at sound ⊢
      exact List.eq_nil_iff_forall_not_mem.2 fun task mem => sound.2 task mem (freed task mem)

/-- The registry stays sound through a sequence of calls exactly if those that return create no task. -/
theorem registry_sound_iff (calls : List ParallelCall) :
    (∀ before after, calls = before ++ after →
        RegistrySound (run registryStep (.idle .init) before)) ↔
      Meets registryStep CreatesNone (.idle .init) calls := by
  have start : RegistrySound (.idle .init) := ⟨Nat.zero_le _, fun _ mem => nomatch mem⟩
  have empty : RegistryEmpty (.idle .init) := rfl
  rw [forall_run_iff_meets start]
  exact meets_iff_of_invariant RegistryEmpty (fun _ => True)
    (fun _ _ empty _ => registrySound_step_iff empty)
    (fun _ _ empty _ => registryEmpty_step empty) empty fun _ _ => trivial

/-- A call of `parallel_run_single` whose one task fails. -/
def failingCall : ParallelCall :=
  .single (ParallelWorld.silent.env [.tcpPunch]) .tcpPunch .zero 2

/-- After one call the entry is dangling, and the seventeenth call writes outside the array. -/
theorem registry_overflows :
    run registryStep (.idle .init) [failingCall] = .idle ⟨[⟨0, 0⟩], [⟨0, 0⟩], 1⟩ ∧
      run registryStep (.idle .init) (List.replicate 17 failingCall) = .undefined ∧
      ¬ ∀ calls before after, calls = before ++ after →
        RegistrySound (run registryStep (.idle .init) before) := by
  have one : run registryStep (.idle .init) [failingCall] = .idle ⟨[⟨0, 0⟩], [⟨0, 0⟩], 1⟩ := rfl
  refine ⟨one, rfl, fun sound => ?_⟩
  have dangling := sound [failingCall] [failingCall] [] rfl
  rw [one] at dangling
  exact dangling.2 ⟨0, 0⟩ List.mem_cons_self List.mem_cons_self

end Orcashi
