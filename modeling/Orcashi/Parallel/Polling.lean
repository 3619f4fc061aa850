import Orcashi.Parallel.Executors

/-!
# The end of the polling loop

A poll takes a task for done by its result: a success, or an error code.  The loop counts polls that
find one, so it ends, once the threads have returned, where some task has left a mark; and where none
has, since none has an executor, it goes on for ever.
-/

namespace Orcashi

open CMemory

/-- The loop ends after some number of turns. -/
def PollingEnds (env : ParallelEnv) (strategies : List StrategyType) : Prop :=
  ∃ fuel outcome, parallelWait env (startedTasks env strategies) fuel 0 0 = some outcome

/-- The task of the strategy with this number is created, and its thread starts. -/
def ParallelWorld.Starts (w : ParallelWorld) (i : ℕ) : Prop := w.creates i = true ∧ w.starts i = true

/-! ## The loop -/

section Wait

variable {env : ParallelEnv} {tasks : List ParallelTask}

/-- A loop in which no poll finds a task done goes on for ever. -/
theorem parallelWait_stuck (never : ∀ k, firstDone env tasks k = none) {completed : ℕ}
    (few : completed < tasks.length) (fuel k : ℕ) : parallelWait env tasks fuel k completed = none := by
  induction fuel generalizing k with
  | zero => rfl
  | succ fuel ih =>
    rw [parallelWait, if_neg (Nat.not_le.2 few), never]
    exact ih (k + 1)

/-- From the `last`-th poll on some task is found done; the turns that are left before it, and the polls
that are left to count, bound the loop. -/
theorem parallelWait_ends {last : ℕ} (found : ∀ k, last ≤ k → (firstDone env tasks k).isSome)
    {k completed fuel : ℕ} (enough : (last - k) + (tasks.length - completed) < fuel) :
    (parallelWait env tasks fuel k completed).isSome := by
  induction fuel generalizing k completed with
  | zero => omega
  | succ fuel ih =>
    rw [parallelWait]
    split_ifs with full
    · rfl
    · cases done : firstDone env tasks k with
      | none =>
        have early : k < last := by
          by_contra late
          have := found k (Nat.le_of_not_lt late)
          rw [done] at this
          cases this
        exact ih (by omega)
      | some task =>
        dsimp only
        split_ifs
        · rfl
        · exact ih (by omega)

/-- How the loop ends: with the success that a poll finds, or with none once as many polls have found a
task done as there are tasks. -/
def LoopEnds (env : ParallelEnv) (tasks : List ParallelTask) (outcome : Option ParallelTask) : Prop :=
  ∃ k, (∀ j < k, ∀ task, firstDone env tasks j = some task → task.result.success = false) ∧
    match outcome with
    | none => tasks.length ≤ donePolls env tasks k
    | some task => donePolls env tasks k < tasks.length ∧ firstDone env tasks k = some task ∧
        task.result.success = true

theorem loopEnds_of_parallelWait {outcome : Option ParallelTask} {fuel poll : ℕ}
    (quiet : ∀ j < poll, ∀ task, firstDone env tasks j = some task → task.result.success = false)
    (ended : parallelWait env tasks fuel poll (donePolls env tasks poll) = some outcome) :
    LoopEnds env tasks outcome := by
  induction fuel generalizing poll with
  | zero => cases ended
  | succ fuel ih =>
    have later (failed : ∀ task, firstDone env tasks poll = some task → task.result.success = false) :
        ∀ j < poll + 1, ∀ task, firstDone env tasks j = some task → task.result.success = false := by
      intro j lt
      rcases Nat.lt_succ_iff_lt_or_eq.1 lt with before | rfl
      · exact quiet j before
      · exact failed
    rw [parallelWait] at ended
    split_ifs at ended with full
    · obtain rfl := Option.some.inj ended
      exact ⟨poll, quiet, full⟩
    · cases found : firstDone env tasks poll with
      | none =>
        rw [found, ← donePolls_succ_of_none found] at ended
        dsimp only at ended
        exact ih (later fun task some => by cases found.symm.trans some) ended
      | some task =>
        rw [found] at ended
        dsimp only at ended
        by_cases wins : task.result.success = true
        · rw [if_pos wins] at ended
          obtain rfl := Option.some.inj ended
          exact ⟨poll, quiet, Nat.not_le.1 full, found, wins⟩
        · rw [if_neg wins, ← donePolls_succ_of_some found] at ended
          refine ih (later fun other same => ?_) ended
          obtain rfl := Option.some.inj (found.symm.trans same)
          exact Bool.eq_false_iff.2 wins

/-- By induction on the polls before the one that ends the loop. -/
theorem parallelWait_of_loopEnds {outcome : Option ParallelTask} (ends : LoopEnds env tasks outcome) :
    ∃ fuel, parallelWait env tasks fuel 0 0 = some outcome := by
  obtain ⟨k, quiet, last⟩ := ends
  suffices general : ∀ left poll, poll + left = k → ∃ fuel,
      parallelWait env tasks fuel poll (donePolls env tasks poll) = some outcome from
    general k 0 (Nat.zero_add k)
  intro left
  induction left with
  | zero =>
    intro poll here
    rw [Nat.add_zero] at here
    subst here
    refine ⟨1, ?_⟩
    rw [parallelWait]
    cases outcome with
    | none => exact if_pos last
    | some task =>
      obtain ⟨few, found, wins⟩ := last
      rw [if_neg (Nat.not_le.2 few), found]
      exact if_pos wins
  | succ left ih =>
    intro poll here
    by_cases full : tasks.length ≤ donePolls env tasks poll
    · cases outcome with
      | none => exact ⟨1, if_pos full⟩
      | some task =>
        have few := Nat.lt_of_le_of_lt (donePolls_le (by omega : poll ≤ k)) last.1
        exact absurd full (Nat.not_le.2 few)
    · obtain ⟨fuel, ended⟩ := ih (poll + 1) (by omega)
      refine ⟨fuel + 1, ?_⟩
      rw [parallelWait, if_neg full]
      cases found : firstDone env tasks poll with
      | none => rwa [donePolls_succ_of_none found] at ended
      | some task =>
        have failed := quiet poll (by omega) task found
        rw [donePolls_succ_of_some found] at ended
        dsimp only
        rwa [if_neg (by rw [failed]; exact Bool.false_ne_true)]

end Wait

/-! ## The tasks -/

section Tasks

variable {w : ParallelWorld} {strategies : List StrategyType}

theorem getElem?_of_mem_numbered {x : StrategyType × ℕ} (h : x ∈ numbered strategies) :
    strategies[x.2]? = some x.1 := by
  unfold numbered at h
  have here := List.mem_zipIdx_iff_getElem?.1 h
  rw [List.getElem?_take] at here
  split_ifs at here
  exact here

/-- What marks a task that is done. -/
def ConnectionResult.done (result : ConnectionResult) : Bool := result.success || result.errorCode != 0

/-- The thread of a strategy with an executor leaves what the executor leaves. -/
theorem taskThread_execute {x : StrategyType × ℕ} (h : x ∈ numbered strategies)
    {execute : ConnectionResult → ℤ × ConnectionResult}
    (has : executor w.peer (w.net x.2) x.1 = some execute) : ∃ result,
      (taskThread (w.env strategies) x.2 x.1).success = decide ((execute result).1 = 0) ∧
      (taskThread (w.env strategies) x.2 x.1).socketFd = (execute result).2.socketFd ∧
      (taskThread (w.env strategies) x.2 x.1).errorCode = (execute result).2.errorCode := by
  obtain ⟨strategy, i⟩ := x
  have at_ := getElem?_of_mem_numbered h
  have get : getExecutor (w.env strategies) i strategy = some ((w.env strategies).execute i) := by
    cases strategy with
    | none => cases has
    | _ => rfl
  have is_ : (w.env strategies).execute i = execute := by
    funext result
    unfold ParallelWorld.env
    dsimp only
    rw [at_, Option.bind_some, has]
  refine ⟨{ ConnectionResult.zero with
    startTime := (w.env strategies).startTime i, strategy := strategy }, ?_⟩
  unfold taskThread
  dsimp only
  rw [get, is_]
  exact ⟨rfl, rfl, rfl⟩

/-- A task is marked exactly if its strategy has an executor. -/
theorem taskThread_done {x : StrategyType × ℕ} (h : x ∈ numbered strategies) :
    (taskThread (w.env strategies) x.2 x.1).done = true ↔ x.1 ≠ .none := by
  by_cases named : x.1 = .none
  · have unmarked : (taskThread (w.env strategies) x.2 x.1).done = false := by
      rw [named]
      rfl
    rw [unmarked]
    exact iff_of_false Bool.false_ne_true fun other => other named
  · obtain ⟨execute, has⟩ : ∃ execute, executor w.peer (w.net x.2) x.1 = some execute := by
      cases strategy : x.1 with
      | none => exact absurd strategy named
      | _ => exact ⟨_, rfl⟩
    obtain ⟨result, success, -, errorCode⟩ := taskThread_execute h has
    refine iff_of_true ?_ named
    unfold ConnectionResult.done
    rw [success, errorCode]
    rcases @marked_executor _ _ result _ _ has with done | failed
    · simp [done]
    · simp [failed]

theorem mem_startedTasks {task : ParallelTask} :
    task ∈ startedTasks (w.env strategies) strategies ↔ ∃ x ∈ numbered strategies, w.Starts x.2 ∧
      task = ⟨x.2, taskThread (w.env strategies) x.2 x.1⟩ := by
  unfold startedTasks
  rw [List.mem_map]
  refine exists_congr fun x => ?_
  rw [List.mem_filter, Bool.and_eq_true, and_assoc]
  exact and_congr_right fun _ => and_congr_right fun _ => eq_comm

/-- Once the threads have returned, the loop ends exactly if some task that was started, where there is
one, has an executor. -/
theorem polling_ends_iff (w : ParallelWorld) (strategies : List StrategyType) {last : ℕ}
    (returned : ∀ k i, last ≤ k → w.Starts i → w.seen k i = true) :
    PollingEnds (w.env strategies) strategies ↔
      ((∃ x ∈ numbered strategies, w.Starts x.2) →
        ∃ x ∈ numbered strategies, w.Starts x.2 ∧ x.1 ≠ .none) := by
  constructor
  · rintro ⟨fuel, outcome, ended⟩ ⟨x, mem, starts⟩
    by_contra idle
    have few : 0 < (startedTasks (w.env strategies) strategies).length :=
      List.length_pos_of_mem (mem_startedTasks.2 ⟨x, mem, starts, rfl⟩)
    have never (k : ℕ) : firstDone (w.env strategies) (startedTasks (w.env strategies) strategies) k =
        none := by
      refine List.find?_eq_none.2 fun task started => ?_
      obtain ⟨y, mem, starts, rfl⟩ := mem_startedTasks.1 started
      have unmarked := mt (taskThread_done (w := w) mem).1 fun named => idle ⟨y, mem, starts, named⟩
      rw [Bool.and_eq_true]
      exact fun h => unmarked h.2
    rw [parallelWait_stuck never few] at ended
    cases ended
  · intro executes
    by_cases started : ∃ x ∈ numbered strategies, w.Starts x.2
    · obtain ⟨x, mem, starts, named⟩ := executes started
      have found (k : ℕ) (late : last ≤ k) : (firstDone (w.env strategies)
          (startedTasks (w.env strategies) strategies) k).isSome := by
        rw [firstDone, List.find?_isSome]
        refine ⟨_, mem_startedTasks.2 ⟨x, mem, starts, rfl⟩, ?_⟩
        rw [Bool.and_eq_true]
        exact ⟨returned k x.2 late starts, (taskThread_done mem).2 named⟩
      obtain ⟨outcome, ended⟩ := Option.isSome_iff_exists.1
        (@parallelWait_ends _ _ _ found 0 0 _ (Nat.lt_succ_self _))
      exact ⟨_, outcome, ended⟩
    · refine ⟨1, none, ?_⟩
      have nothing : startedTasks (w.env strategies) strategies = [] := by
        refine List.eq_nil_iff_forall_not_mem.2 fun task here => ?_
        obtain ⟨y, mem, starts, -⟩ := mem_startedTasks.1 here
        exact started ⟨y, mem, starts⟩
      rw [nothing]
      rfl

end Tasks

theorem polling_ends_silent :
    PollingEnds (ParallelWorld.silent.env [.none, .tcpPunch]) [.none, .tcpPunch] ↔
      ((∃ x ∈ numbered [.none, .tcpPunch], ParallelWorld.silent.Starts x.2) →
        ∃ x ∈ numbered [.none, .tcpPunch], ParallelWorld.silent.Starts x.2 ∧ x.1 ≠ .none) :=
  @polling_ends_iff ParallelWorld.silent [.none, .tcpPunch] 0 fun _ _ _ _ => rfl

/-- The thread of the one task has returned before the first poll, and the loop goes on for ever. -/
theorem polling_none_endless :
    (∀ k i, ParallelWorld.silent.seen k i = true) ∧
      startedTasks (ParallelWorld.silent.env [.none]) [.none] =
        [⟨0, { ConnectionResult.zero with errorMsg := ascii "No executor found" }⟩] ∧
      ¬ PollingEnds (ParallelWorld.silent.env [.none]) [.none] := by
  have tasks : startedTasks (ParallelWorld.silent.env [.none]) [.none] =
      [⟨0, { ConnectionResult.zero with errorMsg := ascii "No executor found" }⟩] := rfl
  refine ⟨fun _ _ => rfl, tasks, ?_⟩
  rintro ⟨fuel, outcome, ended⟩
  rw [parallelWait_stuck (fun _ => by rw [tasks]; rfl) (by rw [tasks]; decide)] at ended
  cases ended

end Orcashi
