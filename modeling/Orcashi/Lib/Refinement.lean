import Orcashi.Lib.History

/-!
# Refinement of machines that answer

A machine takes calls and answers each of them.  Its abstract counterpart says which answer a call
may get and which abstract states may follow.  The machine refines it along a run if a relation
between the two holds before, between and after the calls and every answer is an allowed one.
-/

namespace Refinement

variable {σ τ ι ο : Type*} (step : σ → ι → ο × σ) (spec : τ → ι → ο → τ → Prop)
  (R : σ → τ → Prop)

/-- Every step of a run is one that is allowed, between states that are related. -/
def Refines : σ → τ → List ι → Prop
  | s, t, [] => R s t
  | s, t, i :: is =>
    R s t ∧ ∃ t', spec t i (step s i).1 t' ∧ Refines (step s i).2 t' is

variable {step spec R}

/-- A weaker relation is kept as well. -/
theorem Refines.mono {R' : σ → τ → Prop} (weaker : ∀ s t, R s t → R' s t) {s : σ} {t : τ}
    {is : List ι} (h : Refines step spec R s t is) : Refines step spec R' s t is := by
  induction is generalizing s t with
  | nil => exact weaker s t h
  | cons i is ih =>
    obtain ⟨related, t', answer, rest⟩ := h
    exact ⟨weaker s t related, t', answer, ih rest⟩

/-- If each call from related states can be matched, then so can every run. -/
theorem refines_of_step (cond : σ → ι → Prop)
    (matched : ∀ s t i, R s t → cond s i → ∃ t', spec t i (step s i).1 t' ∧ R (step s i).2 t')
    {s : σ} {t : τ} (start : R s t) {is : List ι}
    (meets : History.Meets (fun s i => (step s i).2) cond s is) : Refines step spec R s t is := by
  induction is generalizing s t with
  | nil => exact start
  | cons i is ih =>
    obtain ⟨t', answer, related⟩ := matched s t i start meets.1
    exact ⟨start, t', answer, ih related meets.2⟩

end Refinement
