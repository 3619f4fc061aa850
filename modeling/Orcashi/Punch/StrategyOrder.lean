import Mathlib.Data.Int.Order.Basic
import Orcashi.Lib.BubbleSort
import Orcashi.ParallelRunner

/-!
# Strategies by priority

The priority of a strategy is looked up in a table, in which every value that is no strategy is taken for
its first entry.  The strategies of a list are sorted by it in place.
-/

namespace Orcashi

open CMemory

/-- The value of an enumerator. -/
def StrategyType.code : StrategyType → ℤ
  | .none => 0
  | .ipv6Direct => 1
  | .upnp => 2
  | .udpPunch => 3
  | .ttlPunch => 4
  | .simultaneousOpen => 5
  | .portPrediction => 6
  | .tcpPunch => 7
  | .friendRelay => 8
  | .turnRelay => 9
  | .manualPort => 10

/-- `StrategyInfo` -/
structure StrategyInfo where
  type : StrategyType
  name : CString
  priority : ℤ
  maxWaitMs : ℤ
  requiresPeer : Bool
  requiresServer : Bool
  deriving DecidableEq

/-- `g_strategy_info[0]`. -/
def StrategyInfo.first : StrategyInfo := ⟨.none, ascii "NONE", 99, 0, false, false⟩

/-- `g_strategy_info`. -/
def gStrategyInfo : List StrategyInfo :=
  [.first,
    ⟨.ipv6Direct, ascii "IPv6_DIRECT", 1, 2000, false, false⟩,
    ⟨.upnp, ascii "UPnP", 2, 3000, false, false⟩,
    ⟨.udpPunch, ascii "UDP_PUNCH", 3, 5000, false, false⟩,
    ⟨.ttlPunch, ascii "TTL_PUNCH", 4, 3000, false, false⟩,
    ⟨.simultaneousOpen, ascii "SIMULTANEOUS_OPEN", 5, 4000, false, false⟩,
    ⟨.portPrediction, ascii "PORT_PREDICTION", 6, 5000, false, false⟩,
    ⟨.tcpPunch, ascii "TCP_PUNCH", 7, 8000, false, false⟩,
    ⟨.friendRelay, ascii "FRIEND_RELAY", 8, 5000, true, false⟩,
    ⟨.turnRelay, ascii "TURN_RELAY", 9, 6000, false, true⟩,
    ⟨.manualPort, ascii "MANUAL_PORT", 10, 60000, false, false⟩]

/-- A `StrategyType` variable may hold any integer. -/
def strategyGetInfo (type : ℤ) : StrategyInfo :=
  (gStrategyInfo.find? fun info => info.type.code == type).getD .first

/-- `strategy_get_priority` -/
def strategyGetPriority (type : ℤ) : ℤ := (strategyGetInfo type).priority

/-- `StrategyList` -/
structure StrategyList where
  strategies : List ℤ
  size : strategies.length = maxStrategies
  count : ℕ
  le : count ≤ maxStrategies

/-- The strategies that are in the list. -/
def StrategyList.entries (list : StrategyList) : List ℤ := list.strategies.take list.count

/-- `strategy_sort_by_priority`: what it leaves in `strategies`; none where it would read or write
another element than the first `count`. -/
def strategySortByPriority (list : StrategyList) : Option (List ℤ) :=
  if list.count ≤ 1 then some list.strategies
  else BubbleSort.sort strategyGetPriority list.count list.strategies

/-! ## The table -/

/-- Every strategy has its entry. -/
theorem strategyGetInfo_code (type : StrategyType) : (strategyGetInfo type.code).type = type := by
  cases type <;> rfl

/-- What is no strategy has the first entry. -/
theorem strategyGetInfo_unknown {type : ℤ} (unknown : ∀ t : StrategyType, t.code ≠ type) :
    strategyGetInfo type = .first := by
  have absent : gStrategyInfo.find? (fun info => info.type.code == type) = none := by
    rw [List.find?_eq_none]
    intro info _ found
    exact unknown info.type (beq_iff_eq.1 found)
  unfold strategyGetInfo
  rw [absent]
  rfl

/-! ## The order -/

/-- The same strategies by priority, those of one priority in their order. -/
structure SortedByPriority (before after : List ℤ) : Prop where
  perm : after.Perm before
  ordered : after.Pairwise fun s t => strategyGetPriority s ≤ strategyGetPriority t
  stable : ∀ p, (after.filter fun s => strategyGetPriority s = p) =
    before.filter fun s => strategyGetPriority s = p

theorem sortedByPriority_passes (l : List ℤ) :
    SortedByPriority l (BubbleSort.passes strategyGetPriority (l.length - 1) l) where
  perm := BubbleSort.passes_perm _ l
  ordered := BubbleSort.passes_sorts l
  stable p := BubbleSort.passes_stable p _ l

/-- The passes over the strategies that are in the list are all that the function does, a list with one
strategy or none included. -/
theorem strategySortByPriority_eq (list : StrategyList) :
    strategySortByPriority list =
      some (BubbleSort.passes strategyGetPriority (list.entries.length - 1) list.entries ++
        list.strategies.drop list.count) := by
  have length : list.entries.length = list.count := by
    unfold StrategyList.entries
    rw [List.length_take, list.size]
    exact Nat.min_eq_left list.le
  have whole : list.entries ++ list.strategies.drop list.count = list.strategies :=
    List.take_append_drop _ _
  unfold strategySortByPriority
  rw [length]
  split_ifs with few
  · have none_ : list.count - 1 = 0 := by omega
    rw [none_, BubbleSort.passes, whole]
  · rw [← BubbleSort.sort_append length, whole]

/-- The function touches only the strategies in the list, sorts them by priority, and leaves a sorted list
as it is. -/
theorem strategies_sorted (list : StrategyList) :
    ∃ strategies, strategySortByPriority list = some strategies ∧
      strategies.drop list.count = list.strategies.drop list.count ∧
      SortedByPriority list.entries (strategies.take list.count) ∧
      ((list.entries.Pairwise fun s t => strategyGetPriority s ≤ strategyGetPriority t) →
        strategies = list.strategies) := by
  have sorted := sortedByPriority_passes list.entries
  have length : (BubbleSort.passes strategyGetPriority (list.entries.length - 1) list.entries).length =
      list.count := by
    rw [BubbleSort.length_passes]
    unfold StrategyList.entries
    rw [List.length_take, list.size]
    exact Nat.min_eq_left list.le
  refine ⟨_, strategySortByPriority_eq list, List.drop_left' length, ?_, fun before => ?_⟩
  · rwa [List.take_left' length]
  · rw [BubbleSort.passes_of_sorted before]
    exact List.take_append_drop _ _

/-- NONE and a value that is no strategy have one priority. -/
example : strategySortByPriority ⟨[77, 3, 0, 1] ++ List.replicate 12 0, rfl, 4, by decide⟩ =
    some ([1, 3, 77, 0] ++ List.replicate 12 0) := by decide +kernel

end Orcashi
