import Orcashi.Dht.Runs

/-!
# How long a token is accepted

A token is made with the secret in use.  The secrets are rotated every 15 to 45 minutes, and a token of the one
before is accepted as well.
-/

namespace Orcashi

namespace Dht

section Tokens

variable {s : Dht} {c : Call}

/-- A token of some secret is accepted until a time: the secret is the one in use, or it was the one before and
will stay so. -/
def Accepts (secret : Bytes) (stop : Time) (s : Dht) : Prop :=
  s.secret = secret ∨ (s.oldsecret = secret ∧ stop ≤ s.rotateSecretsTime)

theorem accepts_of_secrets {s' : Dht} {secret : Bytes} {stop : Time} (same : s'.secrets = s.secrets)
    (h : Accepts secret stop s) : Accepts secret stop s' := by
  have secret' : s'.secret = s.secret := congrArg Prod.fst same
  have oldsecret : s'.oldsecret = s.oldsecret := congrArg (fun x => x.2.1) same
  have time : s'.rotateSecretsTime = s.rotateSecretsTime := congrArg (fun x => x.2.2) same
  unfold Accepts
  rwa [secret', oldsecret, time]

/-- The secrets change only when it is time, and then for at least 15 minutes. -/
theorem Accepts.rotateIfDue {secret : Bytes} {stop : Time} (h : Accepts secret stop s) (early : s.now < stop)
    (late : stop ≤ s.now + 900) : Accepts secret stop s.rotateIfDue := by
  unfold Dht.rotateIfDue
  split_ifs with due
  · rcases h with h | ⟨-, h⟩
    · refine Or.inr ⟨h, late.trans ?_⟩
      exact le_add_of_nonneg_right (Int.natCast_nonneg _)
    · exact absurd (early.trans_le h) (not_lt.2 due)
  · exact h

theorem Accepts.perform {secret : Bytes} {stop : Time} (h : Accepts secret stop s) (c : Call) (sound : s.Sound)
    (during : ∀ clock d, c = .periodic clock d → clock < stop ∧ stop ≤ clock + 900) :
    Accepts secret stop (s.perform c) := by
  by_cases other : ∀ clock d, c ≠ .periodic clock d
  · exact accepts_of_secrets (congrArg Dht.secrets (fixed_perform c sound other) :) h
  · simp only [not_forall, not_not] at other
    obtain ⟨clock, d, rfl⟩ := other
    obtain ⟨early, late⟩ := during clock d rfl
    rcases periodic_cases sound clock d with same | ⟨rs, ps, s₁, received, same⟩
    · rw [Dht.perform, same]
      exact h
    · have now : s₁.now = clock := received.now
      have before : Accepts secret stop s₁ := accepts_of_secrets received.secrets h
      have rotated := before.rotateIfDue (by rwa [now]) (by rwa [now])
      rw [Dht.perform, same]
      exact accepts_of_secrets (Serves.maintain (Does.rotateIfDue received.does.sound).sound).secrets rotated

theorem Accepts.run {secret : Bytes} {stop : Time} (calls : List Call) (h : Accepts secret stop s) (sound : s.Sound)
    (during : ∀ clock d, .periodic clock d ∈ calls → clock < stop ∧ stop ≤ clock + 900) :
    Accepts secret stop (s.run calls) := by
  induction calls generalizing s with
  | nil => exact h
  | cons c calls ih =>
    refine ih (h.perform c sound fun clock d e => during clock d (e ▸ List.mem_cons_self)) (sound_perform c sound) ?_
    exact fun clock d mem => during clock d (List.mem_cons_of_mem c mem)

/-- A token that is sent is accepted for 15 minutes, whatever is called until then. -/
theorem Reachable.token_accepted (h : Reachable s) (calls : List Call) (t : Time) (sa : SockAddr)
    (during : ∀ clock d, .periodic clock d ∈ calls → t ≤ clock ∧ clock < t + 900) :
    tokenMatch (s.run calls).secret (s.run calls).oldsecret (makeToken s.secret sa) sa = true := by
  have accepts : Accepts s.secret (t + 900) (s.run calls) := by
    refine Accepts.run calls (Or.inl rfl) h.sound fun clock d mem => ?_
    obtain ⟨begun, ends⟩ := during clock d mem
    exact ⟨ends, add_le_add_left begun 900⟩
  have length : (makeToken s.secret sa).length = 8 := by simp [makeToken]
  unfold tokenMatch
  rw [length]
  rcases accepts with same | ⟨same, -⟩
  · rw [same]
    simp
  · rw [same]
    simp

/-- The secrets are rotated in between. -/
theorem token_accepted_sample :
    let s := sample.run [.periodic 1100 none, .periodic 1950 none]
    tokenMatch s.secret s.oldsecret (makeToken sample.secret sampleAddr) sampleAddr = true :=
  sample_reachable.token_accepted [.periodic 1100 none, .periodic 1950 none] 1100 sampleAddr
    fun clock d mem => by
      simp only [List.mem_cons, Call.periodic.injEq, List.not_mem_nil, or_false] at mem
      rcases mem with ⟨rfl, -⟩ | ⟨rfl, -⟩ <;> decide

end Tokens

end Dht

end Orcashi
