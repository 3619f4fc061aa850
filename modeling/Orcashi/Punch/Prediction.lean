import Orcashi.Punch.Peer
import Mathlib.Algebra.Ring.Int.Defs
import Mathlib.Data.Rat.Defs

/-!
# Predicted ports

The port a peer will be seen on next is predicted from the ones it was seen on: the same step again, the
next even or the next odd port, the line through the ports, or a guess.  The line and the guess are kept
within the range of ports.  The other three are not.
-/

namespace Orcashi

/-! ## The line through the ports -/

/-- A rational number as an `int`: towards 0. -/
def truncate (q : ℚ) : ℤ := q.num.tdiv q.den

/-- The port after `ports` on the line that fits them best, where it rises by more than 0.5 and less
than 10 for each. -/
def linearRegression (ports : List ℤ) : Option ℤ :=
  let n : ℤ := ports.length
  let sumX : ℤ := ((List.range ports.length).map fun i : ℕ => (i : ℤ)).sum
  let sumY : ℤ := ports.sum
  let sumXY : ℤ := (ports.zipIdx.map fun p => (p.2 : ℤ) * p.1).sum
  let sumX2 : ℤ := ((List.range ports.length).map fun i : ℕ => (i : ℤ) * i).sum
  let slope : ℚ := ((n * sumXY - sumX * sumY : ℤ) : ℚ) / ((n * sumX2 - sumX * sumX : ℤ) : ℚ)
  let intercept : ℚ := (sumY - slope * sumX) / n
  if 1 / 2 < slope ∧ slope < 10 then some (truncate (slope * n + intercept)) else none

example : linearRegression [2000, 2003, 2005, 2008] = some 2010 := by decide +kernel

/-- The same network, and the regression in rational numbers. -/
def PunchNet.rational (net : PunchNet) : PunchNet := { net with regression := linearRegression }

/-! ## Observations -/

/-- What is left of a predictor after some ports were reported. -/
def observe (net : PunchNet) (targetIp : IpText) (targetPort : ℤ) (ports : List ℤ) : PortPredictor :=
  ports.foldl (fun pred port => portPredictorAddObservation net port pred)
    (portPredictorInit targetIp targetPort)

/-- A port of the range. -/
def InRange (port : ℤ) : Prop := portPredictMinPort ≤ port ∧ port ≤ portPredictMaxPort

instance : DecidablePred InRange := fun _ => inferInstanceAs (Decidable (_ ∧ _))

/-- The ports that `port_predictor_add_observation` accepts. -/
def accepted (ports : List ℤ) : List ℤ := (ports.filter InRange).take portPredictSamples

theorem accepted_concat (ports : List ℤ) (port : ℤ) : accepted (ports ++ [port]) =
    if portPredictSamples ≤ (accepted ports).length ∨ port < portPredictMinPort ∨
        portPredictMaxPort < port then accepted ports
    else accepted ports ++ [port] := by
  have out : (port < portPredictMinPort ∨ portPredictMaxPort < port) ↔ ¬ InRange port := by
    unfold InRange
    omega
  unfold accepted
  rw [List.filter_append, List.length_take, List.take_append]
  by_cases range : InRange port
  · have one : List.filter (fun p => decide (InRange p)) [port] = [port] := by simp [range]
    have inside := mt out.1 (not_not_intro range)
    rw [one]
    split_ifs with full
    · rw [or_iff_left inside] at full
      have none_ : portPredictSamples - (ports.filter InRange).length = 0 := by omega
      rw [none_, List.take_zero, List.append_nil]
    · rw [not_or] at full
      congr 1
      refine List.take_of_length_le ?_
      rw [List.length_singleton]
      omega
  · have none_ : List.filter (fun p => decide (InRange p)) [port] = [] := by simp [range]
    rw [none_, if_pos (Or.inr (out.2 range)), List.take_nil, List.append_nil]

/-- A predictor keeps the accepted ports, in their order. -/
theorem observe_ports (net : PunchNet) (targetIp : IpText) (targetPort : ℤ) (ports : List ℤ) :
    (observe net targetIp targetPort ports).observations.map PortObservation.port = accepted ports := by
  induction ports using List.reverseRecOn with
  | nil => rfl
  | append_singleton ports port ih =>
    have step : observe net targetIp targetPort (ports ++ [port]) =
        portPredictorAddObservation net port (observe net targetIp targetPort ports) := by
      unfold observe
      rw [List.foldl_concat]
    have length := congrArg List.length ih
    rw [List.length_map] at length
    rw [step, accepted_concat, portPredictorAddObservation, length]
    split_ifs
    · exact ih
    · rw [List.map_append, ih]
      rfl

theorem inRange_of_mem_accepted {ports : List ℤ} {port : ℤ} (h : port ∈ accepted ports) : InRange port := by
  have mem := List.mem_filter.1 (List.mem_of_mem_take h)
  exact of_decide_eq_true mem.2

/-! ## What a prediction owes -/

/-- How far each port is from the one before it. -/
def differences (ports : List ℤ) : List ℤ := List.zipWith (fun a b => b - a) ports ports.tail

/-- The port that was seen last, or 0. -/
def lastPort (ports : List ℤ) : ℤ := ports.getLastD 0

/-- The ports rise by the same small step. -/
def Sequential (ports : List ℤ) (d : ℤ) : Prop :=
  3 ≤ ports.length ∧ (∀ x ∈ differences ports, x = d) ∧ 1 ≤ d ∧ d ≤ 19

/-- What a prediction from some accepted ports owes. -/
structure Predicts (ports : List ℤ) (ret : ℤ) : Prop where
  few : ports.length < 3 → ret = -1
  range : 3 ≤ ports.length → InRange ret
  follows (d : ℤ) : Sequential ports d → InRange (lastPort ports + d) → ret = lastPort ports + d

/-- How many ports are even. -/
def evens (ports : List ℤ) : ℕ := ports.countP fun port => port % 2 = 0

/-- More than two thirds of the ports are even, or odd. -/
def Lopsided (ports : List ℤ) : Prop :=
  (ports.length - evens ports) * 2 < evens ports ∨ evens ports * 2 < ports.length - evens ports

/-- The next port of the pattern is behind the range. -/
inductive Overshoots (ports : List ℤ) : Prop
  | sequential (d : ℤ) (h : Sequential ports d) (behind : portPredictMaxPort < lastPort ports + d)
  | parity (enough : 3 ≤ ports.length) (h : ∀ d, ¬ Sequential ports d) (lopsided : Lopsided ports)
      (behind : portPredictMaxPort - 1 ≤ lastPort ports)

/-- The prediction from some ports, by the branch it is made in. -/
inductive Prediction (ports : List ℤ) (ret : ℤ) : Prop
  | sequential (d : ℤ) (h : Sequential ports d) (eq : ret = lastPort ports + d)
  | even (h : ∀ d, ¬ Sequential ports d) (lopsided : Lopsided ports)
      (eq : ret = lastPort ports - lastPort ports % 2 + 2)
  | odd (h : ∀ d, ¬ Sequential ports d) (lopsided : Lopsided ports)
      (eq : ret = lastPort ports - lastPort ports % 2 + 1 + 2)
  | clamped (h : ∀ d, ¬ Sequential ports d) (balanced : ¬ Lopsided ports) (range : InRange ret)

theorem headD_differences {ports : List ℤ} {d : ℤ} (h : Sequential ports d) :
    (differences ports).headD 0 = d := by
  obtain ⟨enough, same, -⟩ := h
  match ports, enough with
  | a :: b :: ports, _ => exact same _ List.mem_cons_self

/-- The test for a step that is always the same. -/
theorem steps_iff {ports : List ℤ} (enough : 3 ≤ ports.length) :
    ((differences ports).all (fun d => d = (differences ports).headD 0) ∧
      0 < (differences ports).headD 0 ∧ (differences ports).headD 0 < 20) ↔ ∃ d, Sequential ports d := by
  rw [List.all_eq_true]
  constructor
  · rintro ⟨same, low, high⟩
    exact ⟨_, enough, fun x mem => of_decide_eq_true (same x mem), low, by omega⟩
  · rintro ⟨d, h⟩
    rw [headD_differences h]
    obtain ⟨-, same, low, high⟩ := h
    exact ⟨fun x mem => decide_eq_true (same x mem), low, by omega⟩

theorem inRange_lastPort {ports : List ℤ} (enough : 3 ≤ ports.length) (h : ∀ p ∈ ports, InRange p) :
    InRange (lastPort ports) := by
  obtain rfl | ⟨init, last, rfl⟩ := List.eq_nil_or_concat ports
  · cases enough
  · rw [List.concat_eq_append] at h ⊢
    unfold lastPort
    rw [List.getLastD_concat]
    exact h last (List.mem_append_right _ (List.mem_singleton_self last))

/-- A guess is a little behind the last port. -/
theorem inRange_guess {last : ℤ} (h : InRange last) (r : ℕ) :
    InRange (min (last + r % 5 + 1) portPredictMaxPort) := by
  unfold InRange portPredictMinPort portPredictMaxPort at *
  omega

theorem inRange_clamp (port : ℤ) : InRange (min (max port portPredictMinPort) portPredictMaxPort) := by
  unfold InRange portPredictMinPort portPredictMaxPort
  omega

/-- The cases of `port_predictor_predict`. -/
theorem predict_cases (net : PunchNet) {pred : PortPredictor} {ports : List ℤ}
    (h : pred.observations.map PortObservation.port = ports) (enough : 3 ≤ ports.length)
    (inside : ∀ p ∈ ports, InRange p) : Prediction ports (portPredictorPredict net pred).1 := by
  have length := congrArg List.length h
  rw [List.length_map] at length
  have last := inRange_lastPort enough inside
  have steps := steps_iff enough
  have step := @headD_differences ports
  unfold portPredictorPredict portAnalyzePattern
  rw [h, if_neg (by omega)]
  unfold differences at steps step
  dsimp only at steps ⊢
  by_cases sequential : ∃ d, Sequential ports d
  · rw [if_pos (steps.2 sequential)]
    obtain ⟨d, h⟩ := sequential
    rw [step h]
    exact .sequential d h rfl
  rw [if_neg (mt steps.1 sequential)]
  rw [not_exists] at sequential
  by_cases even : (ports.length - evens ports) * 2 < evens ports
  · have test := even
    unfold evens at test
    rw [if_pos test]
    exact .even sequential (Or.inl even) rfl
  by_cases odd : evens ports * 2 < ports.length - evens ports
  · have test := And.intro even odd
    unfold evens at test
    rw [if_neg test.1, if_pos test.2]
    exact .odd sequential (Or.inr odd) rfl
  have test := And.intro even odd
  unfold evens at test
  rw [if_neg test.1, if_neg test.2]
  refine .clamped sequential (not_or.2 ⟨even, odd⟩) ?_
  generalize (if 4 ≤ ports.length then net.regression ports else none) = line
  cases line with
  | some port => exact inRange_clamp port
  | none => exact inRange_guess last (net.rand 1)

theorem overshoots_iff_of_sequential {ports : List ℤ} {d : ℤ} (h : Sequential ports d) :
    Overshoots ports ↔ portPredictMaxPort < lastPort ports + d := by
  constructor
  · rintro (⟨e, h', behind⟩ | ⟨-, none_, -⟩)
    · rwa [← headD_differences h, headD_differences h']
    · exact absurd h (none_ d)
  · exact fun behind => .sequential d h behind

theorem overshoots_iff_of_lopsided {ports : List ℤ} (enough : 3 ≤ ports.length)
    (h : ∀ d, ¬ Sequential ports d) (lopsided : Lopsided ports) :
    Overshoots ports ↔ portPredictMaxPort - 1 ≤ lastPort ports := by
  constructor
  · rintro (⟨d, h', -⟩ | ⟨-, -, -, behind⟩)
    · exact absurd h' (h d)
    · exact behind
  · exact fun behind => .parity enough h lopsided behind

/-- From three accepted ports on, a prediction is what it should be unless the pattern leaves the range. -/
theorem predicts_iff_of_prediction {ports : List ℤ} {ret : ℤ} (enough : 3 ≤ ports.length)
    (inside : ∀ p ∈ ports, InRange p) (prediction : Prediction ports ret) :
    Predicts ports ret ↔ ¬ Overshoots ports := by
  have last := inRange_lastPort enough inside
  have range : Predicts ports ret ↔ InRange ret := by
    constructor
    · exact fun predicts => predicts.range enough
    · refine fun range => ⟨fun few => by omega, fun _ => range, fun d h _ => ?_⟩
      cases prediction with
      | sequential e h' eq => rw [eq, ← headD_differences h, ← headD_differences h']
      | even none_ => exact absurd h (none_ d)
      | odd none_ => exact absurd h (none_ d)
      | clamped none_ => exact absurd h (none_ d)
  rw [range]
  unfold InRange portPredictMinPort portPredictMaxPort at *
  cases prediction with
  | sequential d h eq =>
    have overshoots := overshoots_iff_of_sequential h
    have positive := h.2.2.1
    unfold portPredictMaxPort at overshoots
    rw [overshoots, eq]
    omega
  | even none_ lopsided eq =>
    have overshoots := overshoots_iff_of_lopsided enough none_ lopsided
    unfold portPredictMaxPort at overshoots
    rw [overshoots, eq]
    omega
  | odd none_ lopsided eq =>
    have overshoots := overshoots_iff_of_lopsided enough none_ lopsided
    unfold portPredictMaxPort at overshoots
    rw [overshoots, eq]
    omega
  | clamped none_ balanced range =>
    refine iff_of_true range ?_
    rintro (⟨e, h', -⟩ | ⟨-, -, lopsided, -⟩)
    · exact none_ e h'
    · exact balanced lopsided

/-- Whatever ports are reported and whatever `rand` gives. -/
theorem prediction_iff (net : PunchNet) (targetIp : IpText) (targetPort : ℤ) (ports : List ℤ) :
    Predicts (accepted ports)
        (portPredictorPredict net.rational (observe net targetIp targetPort ports)).1 ↔
      ¬ Overshoots (accepted ports) := by
  have same := observe_ports net targetIp targetPort ports
  by_cases enough : 3 ≤ (accepted ports).length
  · have inside : ∀ p ∈ accepted ports, InRange p := fun p => inRange_of_mem_accepted
    exact predicts_iff_of_prediction enough inside (predict_cases net.rational same enough inside)
  · have length := congrArg List.length same
    rw [List.length_map] at length
    unfold portPredictorPredict
    rw [if_pos (by omega)]
    refine iff_of_true ⟨fun _ => rfl, fun h => absurd h enough, fun d h => absurd h.1 enough⟩ ?_
    rintro (⟨d, h, -⟩ | ⟨enough', -⟩)
    · exact enough h.1
    · exact enough enough'

/-- 65536 is predicted after 65533, 65534 and 65535, and after 65534 three times, and 65537 after 65535
three times. -/
theorem behind_the_ports :
    (portPredictorPredict PunchNet.silent.rational
      (observe PunchNet.silent IpText.empty 0 [65533, 65534, 65535])).1 = 65536 ∧
    (portPredictorPredict PunchNet.silent.rational
      (observe PunchNet.silent IpText.empty 0 [65534, 65534, 65534])).1 = 65536 ∧
    (portPredictorPredict PunchNet.silent.rational
      (observe PunchNet.silent IpText.empty 0 [65535, 65535, 65535])).1 = 65537 ∧
    ¬ Predicts (accepted [65533, 65534, 65535]) 65536 := by
  refine ⟨by decide, by decide, by decide, fun predicts => ?_⟩
  have range := predicts.range (by decide)
  revert range
  decide

end Orcashi
