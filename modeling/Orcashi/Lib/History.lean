import Mathlib.Data.List.Basic
import Mathlib.Tactic.Common

/-!
# Runs and their histories

A machine with labelled steps, the runs it makes, and the two rules with which a property of one
step becomes a property of every run.  `Since` speaks about the history a run leaves behind: an
event of one kind has happened and no event of another kind has happened after it.
-/

namespace History

/-! ## What has happened since -/

section Since

variable {ε : Type*} {start stop : ε → Prop}

/-- Some event of the history satisfies `start` and none after it satisfies `stop`. -/
def Since (start stop : ε → Prop) (t : List ε) : Prop :=
  ∃ before e after, t = before ++ e :: after ∧ start e ∧ ∀ x ∈ after, ¬ stop x

/-- Events that do not stop it extend a history. -/
theorem Since.append {t u : List ε} (h : Since start stop t) (hu : ∀ x ∈ u, ¬ stop x) :
    Since start stop (t ++ u) := by
  obtain ⟨before, e, after, rfl, he, hafter⟩ := h
  refine ⟨before, e, after ++ u, by simp, he, ?_⟩
  intro x hx
  rcases List.mem_append.1 hx with hx | hx
  · exact hafter x hx
  · exact hu x hx

/-- What went before does not matter. -/
theorem Since.prepend {t u : List ε} (h : Since start stop u) : Since start stop (t ++ u) := by
  obtain ⟨before, e, after, rfl, he, hafter⟩ := h
  exact ⟨t ++ before, e, after, by simp, he, hafter⟩

theorem since_cons {e : ε} {u : List ε} (he : start e) (hu : ∀ x ∈ u, ¬ stop x) :
    Since start stop (e :: u) :=
  ⟨[], e, u, rfl, he, hu⟩

theorem Since.mono {start' stop' : ε → Prop} {t : List ε} (h : Since start stop t)
    (hstart : ∀ e, start e → start' e) (hstop : ∀ e, stop' e → stop e) :
    Since start' stop' t := by
  obtain ⟨before, e, after, rfl, he, hafter⟩ := h
  exact ⟨before, e, after, rfl, hstart e he, fun x hx hs => hafter x hx (hstop x hs)⟩

end Since

/-! ## Moments -/

section Once

variable {ε : Type*} {P : List ε → ε → List ε → Prop} {t : List ε} {x : ε}

/-- At some event, `P` holds of what came before it, of the event and of what came after it. -/
def Once (P : List ε → ε → List ε → Prop) (t : List ε) : Prop :=
  ∃ before e after, t = before ++ e :: after ∧ P before e after

theorem not_once_nil : ¬ Once P [] := by
  rintro ⟨before, e, after, h, -⟩
  simp at h

/-- The moment is the last event or an earlier one. -/
theorem once_concat :
    Once P (t ++ [x]) ↔ P t x [] ∨ Once (fun before e after => P before e (after ++ [x])) t := by
  constructor
  · rintro ⟨before, e, after, h, holds⟩
    rcases List.eq_nil_or_concat after with rfl | ⟨after, y, rfl⟩
    · obtain ⟨rfl, last⟩ := List.append_inj' h rfl
      obtain rfl := List.singleton_inj.1 last
      exact Or.inl holds
    · rw [List.concat_eq_append, ← List.cons_append, ← List.append_assoc] at h
      obtain ⟨rfl, last⟩ := List.append_inj' h rfl
      obtain rfl := List.singleton_inj.1 last
      rw [List.concat_eq_append] at holds
      exact Or.inr ⟨before, e, after, rfl, holds⟩
  · rintro (holds | ⟨before, e, after, rfl, holds⟩)
    · exact ⟨t, x, [], rfl, holds⟩
    · exact ⟨before, e, after ++ [x], by simp, holds⟩

theorem Once.mono {Q : List ε → ε → List ε → Prop} (h : Once P t)
    (weaker : ∀ before e after, P before e after → Q before e after) : Once Q t := by
  obtain ⟨before, e, after, rfl, holds⟩ := h
  exact ⟨before, e, after, rfl, weaker _ _ _ holds⟩

end Once

/-! ## Runs -/

section Run

variable {σ ι : Type*} (step : σ → ι → σ)

/-- The state after a sequence of steps. -/
def run (s : σ) (ls : List ι) : σ := ls.foldl step s

/-- Every step of the run is taken in a state in which it meets `cond`. -/
def Meets (cond : σ → ι → Prop) : σ → List ι → Prop
  | _, [] => True
  | s, l :: ls => cond s l ∧ Meets cond (step s l) ls

variable {step}

theorem meets_of_forall {cond : σ → ι → Prop} (h : ∀ s l, cond s l) {s : σ} {ls : List ι} :
    Meets step cond s ls := by
  induction ls generalizing s with
  | nil => trivial
  | cons l ls ih => exact ⟨h s l, ih⟩

theorem run_nil {s : σ} : run step s [] = s := rfl

theorem run_append {s : σ} {ls ls' : List ι} : run step s (ls ++ ls') = run step (run step s ls) ls' :=
  List.foldl_append

theorem run_concat {s : σ} {ls : List ι} {l : ι} :
    run step s (ls ++ [l]) = step (run step s ls) l := by
  unfold run
  rw [List.foldl_concat]

/-- The steps of a run, each with what it comes after. -/
theorem meets_iff_forall {cond : σ → ι → Prop} {s : σ} {ls : List ι} :
    Meets step cond s ls ↔
      ∀ before l after, ls = before ++ l :: after → cond (run step s before) l := by
  induction ls generalizing s with
  | nil =>
    refine iff_of_true trivial ?_
    intro before l after h
    simp at h
  | cons l ls ih =>
    constructor
    · rintro ⟨first, rest⟩ before l' after h
      cases before with
      | nil =>
        obtain rfl := (List.cons.inj h).1
        exact first
      | cons b before =>
        obtain ⟨rfl, split⟩ := List.cons.inj h
        exact ih.1 rest before l' after split
    · intro h
      refine ⟨h [] l ls rfl, ih.2 ?_⟩
      intro before l' after hls
      exact h (l :: before) l' after (by rw [hls]; rfl)

theorem meets_congr {cond cond' : σ → ι → Prop} (h : ∀ s l, cond s l ↔ cond' s l) {s : σ}
    {ls : List ι} : Meets step cond s ls ↔ Meets step cond' s ls := by
  induction ls generalizing s with
  | nil => exact Iff.rfl
  | cons l ls ih => exact and_congr (h s l) ih

/-- A condition on the steps alone can be added. -/
theorem Meets.and {cond : σ → ι → Prop} {only : ι → Prop} {s : σ} {ls : List ι}
    (meets : Meets step cond s ls) (all : ∀ l ∈ ls, only l) :
    Meets step (fun s l => only l ∧ cond s l) s ls := by
  induction ls generalizing s with
  | nil => trivial
  | cons l ls ih =>
    constructor
    · exact ⟨all l List.mem_cons_self, meets.1⟩
    · exact ih meets.2 fun l' hl' => all l' (List.mem_cons_of_mem l hl')

/-- What every step that meets the condition preserves holds after every run whose steps meet
it. -/
theorem run_invariant (inv : σ → Prop) {cond : σ → ι → Prop}
    (preserved : ∀ s l, inv s → cond s l → inv (step s l)) {s : σ} (start : inv s) {ls : List ι}
    (meets : Meets step cond s ls) : inv (run step s ls) := by
  induction ls generalizing s with
  | nil => exact start
  | cons l ls ih => exact ih (preserved s l start meets.1) meets.2

/-- A condition that keeps an invariant gives every step what it gives in a state of the invariant. -/
theorem Meets.imp_of_invariant (inv : σ → Prop) {cond prop : σ → ι → Prop}
    (preserved : ∀ s l, inv s → cond s l → inv (step s l))
    (gives : ∀ s l, inv s → cond s l → prop s l) {s : σ} (start : inv s) {ls : List ι}
    (meets : Meets step cond s ls) : Meets step prop s ls := by
  induction ls generalizing s with
  | nil => trivial
  | cons l ls ih =>
    exact ⟨gives s l start meets.1, ih (preserved s l start meets.1) meets.2⟩

/-- Where a condition decides about a property of steps, as long as an invariant holds that the
property keeps up, it decides about runs. -/
theorem meets_iff_of_invariant (inv : σ → Prop) (only : ι → Prop) {prop cond : σ → ι → Prop}
    (decides : ∀ s l, inv s → only l → (prop s l ↔ cond s l))
    (kept : ∀ s l, inv s → only l → prop s l → inv (step s l)) {s : σ} (start : inv s) {ls : List ι}
    (all : ∀ l ∈ ls, only l) : Meets step prop s ls ↔ Meets step cond s ls := by
  induction ls generalizing s with
  | nil => exact Iff.rfl
  | cons l ls ih =>
    have first := all l List.mem_cons_self
    have rest (next : inv (step s l)) := ih next fun l' hl' => all l' (List.mem_cons_of_mem l hl')
    constructor
    · rintro ⟨holds, after⟩
      exact ⟨(decides s l start first).1 holds, (rest (kept s l start first holds)).1 after⟩
    · rintro ⟨meets, after⟩
      have holds := (decides s l start first).2 meets
      exact ⟨holds, (rest (kept s l start first holds)).2 after⟩

/-- Where a condition decides whether a step keeps an invariant, it decides whether a run does. -/
theorem meets_invariant_iff {inv : σ → Prop} {cond : σ → ι → Prop}
    (preserved : ∀ s l, inv s → (inv (step s l) ↔ cond s l)) {s : σ} (start : inv s) {ls : List ι} :
    Meets step (fun s l => inv (step s l)) s ls ↔ Meets step cond s ls :=
  meets_iff_of_invariant inv (fun _ => True) (fun s l h _ => preserved s l h) (fun _ _ _ _ h => h)
    start fun _ _ => trivial

/-- What a step can only lose, and loses where it does not meet the condition, is left at the end of a
run exactly if its steps meet the condition. -/
theorem run_iff_meets (inv : σ → Prop) {good : σ → Prop} {cond : σ → ι → Prop}
    (preserved : ∀ s l, inv s → inv (step s l))
    (decides : ∀ s l, inv s → (good (step s l) ↔ good s ∧ cond s l)) {s : σ} (start : inv s)
    (hs : good s) {ls : List ι} : good (run step s ls) ↔ Meets step cond s ls := by
  have general : good (run step s ls) ↔ good s ∧ Meets step cond s ls := by
    clear hs
    induction ls generalizing s with
    | nil => exact (and_iff_left trivial).symm
    | cons l ls ih => exact (ih (preserved s l start)).trans ((and_congr_left' (decides s l start)).trans and_assoc)
  exact general.trans (and_iff_right hs)

/-- What holds at the start holds in every state of a run exactly if every step leaves it. -/
theorem forall_run_iff_meets {good : σ → Prop} {s : σ} (start : good s) {ls : List ι} :
    (∀ before after, ls = before ++ after → good (run step s before)) ↔
      Meets step (fun s l => good (step s l)) s ls := by
  rw [meets_iff_forall]
  constructor
  · intro states before l after split
    rw [← @run_concat _ _ step]
    exact states (before ++ [l]) after (by rw [split, List.append_assoc]; rfl)
  · intro steps before after split
    rcases List.eq_nil_or_concat before with rfl | ⟨before, l, rfl⟩
    · exact start
    · rw [List.concat_eq_append] at split ⊢
      rw [run_concat]
      exact steps before l after (by rw [split, List.append_assoc]; rfl)

/-- What the steps of a run give out, in order. -/
def outputs {ο : Type*} (step : σ → ι → σ) (out : σ → ι → List ο) : σ → List ι → List ο
  | _, [] => []
  | s, l :: ls => out s l ++ outputs step out (step s l) ls

/-- The rule for properties of the state and of what was given out so far. -/
theorem run_invariant_outputs {ο : Type*} {out : σ → ι → List ο} (inv : σ → List ο → Prop)
    {cond : σ → ι → Prop}
    (preserved : ∀ s l given, inv s given → cond s l → inv (step s l) (given ++ out s l)) {s : σ}
    {given : List ο} (start : inv s given) {ls : List ι} (meets : Meets step cond s ls) :
    inv (run step s ls) (given ++ outputs step out s ls) := by
  induction ls generalizing s given with
  | nil =>
    rw [outputs, List.append_nil]
    exact start
  | cons l ls ih =>
    rw [outputs, ← List.append_assoc]
    exact ih (preserved s l given start meets.1) meets.2

/-- What is given out only by steps that meet a condition. -/
theorem forall_mem_outputs_iff {ο : Type*} {out : σ → ι → List ο} {q : ο → Prop} {s : σ}
    {ls : List ι} :
    (∀ o ∈ outputs step out s ls, q o) ↔ Meets step (fun s l => ∀ o ∈ out s l, q o) s ls := by
  induction ls generalizing s with
  | nil => simp [outputs, Meets]
  | cons l ls ih => simp only [outputs, List.forall_mem_append, ih, Meets]

end Run

end History
