import Orcashi.Punch.Manager

/-!
# Running strategies in parallel

`parallel_run` starts a thread for each strategy and polls their results.  A poll ends at the first task
in the list that is done, and counts it; a task that has failed is counted again at every poll, and hides
the tasks behind it.
-/

namespace Orcashi

open CMemory

/-! ## Tasks -/

/-- `MAX_STRATEGIES` -/
def maxStrategies : ℕ := 16

/-- What happens around a call of `parallel_run`: `i` counts the strategies, `k` the polls. -/
structure ParallelEnv where
  /-- whether `task_create` gets its memory -/
  creates : ℕ → Bool
  /-- whether `pthread_create` succeeds -/
  starts : ℕ → Bool
  /-- what the executor of the strategy returns, and the result it leaves -/
  execute : ℕ → ConnectionResult → ℤ × ConnectionResult
  startTime : ℕ → Time
  endTime : ℕ → Time
  /-- whether the poll finds the result that the task leaves -/
  seen : ℕ → ℕ → Bool

/-- `get_executor`: `STRATEGY_NONE` has none. -/
def getExecutor (env : ParallelEnv) (i : ℕ) :
    StrategyType → Option (ConnectionResult → ℤ × ConnectionResult)
  | .none => none
  | _ => some (env.execute i)

/-- `task_thread`: the result it leaves. -/
def taskThread (env : ParallelEnv) (i : ℕ) (strategy : StrategyType) : ConnectionResult :=
  let result := { ConnectionResult.zero with startTime := env.startTime i, strategy := strategy }
  let result :=
    match getExecutor env i strategy with
    | some executor => { (executor result).2 with success := (executor result).1 = 0 }
    | none => { result with success := false, errorMsg := ascii "No executor found" }
  { result with endTime := env.endTime i, elapsedMs := (env.endTime i - result.startTime) * 1000 }

/-- A task that was started, with the result its thread leaves. -/
structure ParallelTask where
  index : ℕ
  result : ConnectionResult
  deriving DecidableEq

/-- The strategies of the list, with their numbers. -/
def numbered (strategies : List StrategyType) : List (StrategyType × ℕ) :=
  (strategies.take maxStrategies).zipIdx

/-- The tasks `task_start` stores in `g_tasks`, whether their threads start or not. -/
def storedTasks (env : ParallelEnv) (strategies : List StrategyType) : ℕ :=
  (numbered strategies).countP fun x => env.creates x.2

/-- The tasks whose threads are started. -/
def startedTasks (env : ParallelEnv) (strategies : List StrategyType) : List ParallelTask :=
  ((numbered strategies).filter fun x => env.creates x.2 && env.starts x.2).map fun x =>
    ⟨x.2, taskThread env x.2 x.1⟩

/-! ## Polling -/

/-- The scan of one poll: the first task that is done. -/
def firstDone (env : ParallelEnv) (tasks : List ParallelTask) (k : ℕ) : Option ParallelTask :=
  tasks.find? fun task =>
    env.seen k task.index && (task.result.success || task.result.errorCode != 0)

/-- The polling loop, for as many turns as there is fuel: none if it goes on, or else the task that
`success_index` names. -/
def parallelWait (env : ParallelEnv) (tasks : List ParallelTask) :
    ℕ → ℕ → ℕ → Option (Option ParallelTask)
  | 0, _, _ => none
  | fuel + 1, k, completed =>
    if tasks.length ≤ completed then some none
    else
      match firstDone env tasks k with
      | some task =>
        if task.result.success then some (some task)
        else parallelWait env tasks fuel (k + 1) (completed + 1)
      | none => parallelWait env tasks fuel (k + 1) completed

/-- What a call of `parallel_run` comes to: it leaves the array `g_tasks`, or it still polls, or it has
returned with a result and the new `g_task_count`. -/
inductive ParallelEnd where
  | undefined
  | polling
  | returned (ret : ℤ) (result : ConnectionResult) (taskCount : ℕ)
  deriving DecidableEq

/-- `parallel_run`, as long as the fuel lasts. -/
def parallelRun (env : ParallelEnv) (strategies : List StrategyType) (taskCount : ℕ)
    (result : ConnectionResult) (fuel : ℕ) : ParallelEnd :=
  let tasks := startedTasks env strategies
  let stored := taskCount + storedTasks env strategies
  if maxStrategies < stored then .undefined
  else
    match tasks with
    | [] => .returned (-1) result stored
    | first :: _ =>
      match parallelWait env tasks fuel 0 0 with
      | none => .polling
      | some (some task) => .returned 0 task.result stored
      | some none => .returned (-1) first.result stored

/-! ## What it should find -/

/-- If a task succeeds, the call returns 0 with the result of one that does, and it returns -1 only if all
tasks fail. -/
structure FindsSuccess (env : ParallelEnv) (strategies : List StrategyType) (taskCount : ℕ)
    (result : ConnectionResult) : Prop where
  success : (∃ task ∈ startedTasks env strategies, task.result.success) →
    ∃ fuel stored, ∃ task ∈ startedTasks env strategies, task.result.success ∧
      parallelRun env strategies taskCount result fuel = .returned 0 task.result stored
  failure : ∀ fuel last stored,
    parallelRun env strategies taskCount result fuel = .returned (-1) last stored →
      ∀ task ∈ startedTasks env strategies, ¬ task.result.success

/-- The polls before the `k`-th one that find a task done. -/
def donePolls (env : ParallelEnv) (tasks : List ParallelTask) (k : ℕ) : ℕ :=
  (List.range k).countP fun j => (firstDone env tasks j).isSome

/-- The condition on the executors and on the timing: if a task succeeds, then `g_tasks` has room, and a
task that succeeds is the first one done in some poll while fewer polls have found a task done than there
are tasks. -/
def SeenInTime (env : ParallelEnv) (strategies : List StrategyType) (taskCount : ℕ) : Prop :=
  (∃ task ∈ startedTasks env strategies, task.result.success) →
    taskCount + storedTasks env strategies ≤ maxStrategies ∧
      ∃ k task, firstDone env (startedTasks env strategies) k = some task ∧ task.result.success ∧
        donePolls env (startedTasks env strategies) k < (startedTasks env strategies).length

section Wait

variable {env : ParallelEnv} {tasks : List ParallelTask} {k completed fuel : ℕ}

theorem donePolls_succ_of_none (h : firstDone env tasks k = none) :
    donePolls env tasks (k + 1) = donePolls env tasks k := by
  unfold donePolls
  rw [List.range_succ, List.countP_append, List.countP_singleton, h]
  rfl

theorem donePolls_succ_of_some {task : ParallelTask} (h : firstDone env tasks k = some task) :
    donePolls env tasks (k + 1) = donePolls env tasks k + 1 := by
  unfold donePolls
  rw [List.range_succ, List.countP_append, List.countP_singleton, h]
  rfl

theorem donePolls_le {j : ℕ} (h : j ≤ k) : donePolls env tasks j ≤ donePolls env tasks k :=
  (List.range_sublist.2 h).countP_le

/-- More fuel changes nothing about a loop that has ended. -/
theorem parallelWait_mono {outcome : Option ParallelTask} {more : ℕ}
    (h : parallelWait env tasks fuel k completed = some outcome) (le : fuel ≤ more) :
    parallelWait env tasks more k completed = some outcome := by
  induction fuel generalizing k completed more with
  | zero => cases h
  | succ fuel ih =>
    obtain ⟨more, rfl⟩ := Nat.exists_eq_succ_of_ne_zero (by omega : more ≠ 0)
    have le := Nat.le_of_succ_le_succ le
    unfold parallelWait at h ⊢
    split_ifs at h ⊢ with full
    · exact h
    · cases found : firstDone env tasks k with
      | none =>
        rw [found] at h
        exact ih h le
      | some task =>
        rw [found] at h
        dsimp only at h ⊢
        split_ifs at h ⊢
        · exact h
        · exact ih h le

/-- By induction on the polls that are left: a loop that has not ended before meets the success. -/
theorem parallelWait_success {poll : ℕ} {task : ParallelTask}
    (done : firstDone env tasks k = some task) (success : task.result.success = true)
    (few : donePolls env tasks k < tasks.length) (le : poll ≤ k) : ∃ fuel task',
      parallelWait env tasks fuel poll (donePolls env tasks poll) = some (some task') := by
  induction h : k - poll generalizing poll with
  | zero =>
    obtain rfl : poll = k := by omega
    refine ⟨1, task, ?_⟩
    unfold parallelWait
    rw [if_neg (Nat.not_le.2 few), done]
    exact if_pos success
  | succ n ih =>
    obtain ⟨fuel, task', later⟩ := @ih (poll + 1) (by omega) (by omega)
    have goes_on := Nat.lt_of_le_of_lt (donePolls_le le) few
    cases found : firstDone env tasks poll with
    | none =>
      rw [donePolls_succ_of_none found] at later
      refine ⟨fuel + 1, task', ?_⟩
      unfold parallelWait
      rw [if_neg (Nat.not_le.2 goes_on), found]
      exact later
    | some other =>
      rw [donePolls_succ_of_some found] at later
      by_cases wins : other.result.success = true
      · refine ⟨1, other, ?_⟩
        unfold parallelWait
        rw [if_neg (Nat.not_le.2 goes_on), found]
        exact if_pos wins
      · refine ⟨fuel + 1, task', ?_⟩
        unfold parallelWait
        rw [if_neg (Nat.not_le.2 goes_on), found]
        dsimp only
        rw [if_neg wins]
        exact later

/-- A loop that ends with a task has found it done, a success, and in time. -/
theorem of_parallelWait {poll : ℕ} {task : ParallelTask}
    (h : parallelWait env tasks fuel poll (donePolls env tasks poll) = some (some task)) :
    ∃ k, firstDone env tasks k = some task ∧ task.result.success = true ∧
      donePolls env tasks k < tasks.length := by
  induction fuel generalizing poll with
  | zero => cases h
  | succ fuel ih =>
    unfold parallelWait at h
    split_ifs at h with full
    · cases h
    · cases found : firstDone env tasks poll with
      | none =>
        rw [found, ← donePolls_succ_of_none found] at h
        exact ih h
      | some other =>
        rw [found] at h
        dsimp only at h
        by_cases wins : other.result.success = true
        · rw [if_pos wins] at h
          obtain rfl := Option.some.inj (Option.some.inj h)
          exact ⟨poll, found, wins, Nat.not_le.1 full⟩
        · rw [if_neg wins, ← donePolls_succ_of_some found] at h
          exact ih h

end Wait

section Run

variable {env : ParallelEnv} {strategies : List StrategyType} {taskCount : ℕ}
  {result : ConnectionResult}

theorem mem_of_firstDone {tasks : List ParallelTask} {k : ℕ} {task : ParallelTask}
    (h : firstDone env tasks k = some task) : task ∈ tasks :=
  List.mem_of_find?_eq_some h

/-- A call that has not left `g_tasks` and has tasks comes to what its loop comes to. -/
theorem parallelRun_eq (fits : taskCount + storedTasks env strategies ≤ maxStrategies)
    {first : ParallelTask} {rest : List ParallelTask}
    (tasks : startedTasks env strategies = first :: rest) (fuel : ℕ) :
    parallelRun env strategies taskCount result fuel =
      match parallelWait env (startedTasks env strategies) fuel 0 0 with
      | none => .polling
      | some (some task) => .returned 0 task.result (taskCount + storedTasks env strategies)
      | some none => .returned (-1) first.result (taskCount + storedTasks env strategies) := by
  unfold parallelRun
  dsimp only
  rw [if_neg (Nat.not_lt.2 fits), tasks]

/-- A success is found, and not missed with other fuel, exactly if it is seen in time. -/
theorem parallel_run_finds_success_iff (env : ParallelEnv) (strategies : List StrategyType)
    (taskCount : ℕ) (result : ConnectionResult) :
    FindsSuccess env strategies taskCount result ↔ SeenInTime env strategies taskCount := by
  constructor
  · rintro ⟨success, -⟩ wins
    obtain ⟨fuel, stored, task, mem, won, returned⟩ := success wins
    obtain ⟨first, rest, tasks⟩ := List.exists_cons_of_ne_nil (List.ne_nil_of_mem mem)
    by_cases fits : taskCount + storedTasks env strategies ≤ maxStrategies
    · refine ⟨fits, ?_⟩
      rw [parallelRun_eq fits tasks] at returned
      cases waited : parallelWait env (startedTasks env strategies) fuel 0 0 with
      | none =>
        rw [waited] at returned
        cases returned
      | some outcome =>
        rw [waited] at returned
        cases outcome with
        | none => cases returned
        | some found =>
          have waited : parallelWait env (startedTasks env strategies) fuel 0
              (donePolls env (startedTasks env strategies) 0) = some (some found) := waited
          obtain ⟨k, done, success, few⟩ := of_parallelWait waited
          exact ⟨k, found, done, success, few⟩
    · unfold parallelRun at returned
      dsimp only at returned
      rw [if_pos (Nat.not_le.1 fits)] at returned
      cases returned
  · intro inTime
    by_cases wins : ∃ task ∈ startedTasks env strategies, task.result.success = true
    swap
    · exact ⟨fun h => absurd h wins, fun _ _ _ _ task mem won => wins ⟨task, mem, won⟩⟩
    obtain ⟨fits, k, task, done, success, few⟩ := inTime wins
    obtain ⟨first, rest, tasks⟩ := List.exists_cons_of_ne_nil (List.ne_nil_of_mem (mem_of_firstDone done))
    obtain ⟨fuel, found, waited⟩ := parallelWait_success done success few (Nat.zero_le k)
    obtain ⟨j, done, won, -⟩ := of_parallelWait waited
    have waited : parallelWait env (startedTasks env strategies) fuel 0 0 = some (some found) := waited
    constructor
    · intro _
      refine ⟨fuel, taskCount + storedTasks env strategies, found, mem_of_firstDone done, won, ?_⟩
      rw [parallelRun_eq fits tasks, waited]
    · intro other last stored returned
      rw [parallelRun_eq fits tasks] at returned
      cases ended : parallelWait env (startedTasks env strategies) other 0 0 with
      | none =>
        rw [ended] at returned
        cases returned
      | some outcome =>
        -- with the fuel of both loops together they end alike
        have alike := (parallelWait_mono ended (Nat.le_add_left other fuel)).symm.trans
          (parallelWait_mono waited (Nat.le_add_right fuel other))
        obtain rfl := Option.some.inj alike
        rw [ended] at returned
        cases returned

end Run

/-- Two tasks: the first fails at once, the second succeeds and is seen so from the sixth poll on. -/
def failsFast : ParallelEnv where
  creates _ := true
  starts _ := true
  execute
    | 0, result => (-1, { result with errorCode := -1 })
    | _, result => (0, { result with success := true, socketFd := 3 })
  startTime _ := 0
  endTime _ := 0
  seen k i := i = 0 || 5 ≤ k

/-- The call gives up after two polls and returns the failure. -/
theorem slow_success_missed :
    (∃ task ∈ startedTasks failsFast [.udpPunch, .ttlPunch], task.result.success) ∧
      (∃ last, parallelRun failsFast [.udpPunch, .ttlPunch] 0 ConnectionResult.zero 3 =
        .returned (-1) last 2) ∧
      ¬ FindsSuccess failsFast [.udpPunch, .ttlPunch] 0 ConnectionResult.zero := by
  have wins : ∃ task ∈ startedTasks failsFast [.udpPunch, .ttlPunch], task.result.success :=
    ⟨_, List.mem_cons_of_mem _ List.mem_cons_self, rfl⟩
  have returned : parallelRun failsFast [.udpPunch, .ttlPunch] 0 ConnectionResult.zero 3 =
      .returned (-1) { ConnectionResult.zero with strategy := .udpPunch, errorCode := -1 } 2 := by
    decide
  refine ⟨wins, ⟨_, returned⟩, fun finds => ?_⟩
  obtain ⟨task, mem, won⟩ := wins
  exact finds.failure 3 _ 2 returned task mem won

end Orcashi
