-- What an application needs of its parts. A run that comes to a value has
-- brought the function and the argument to their values first, and its count
-- is the sum of theirs and of what is done with them. So a part that never
-- ends keeps the whole from ending, as `omega` does.
import PrimedLambda.Catalogue
import PrimedLambda.Proofs.Stepping

namespace PrimedLambda.Term

/-! ## The count of a run -/

section

variable {t v : Term} {k n : Nat}

theorem evaluateWithin_of_value (h : t.Steps k v) (hv : v.isValue = true) (n : Nat) :
    t.evaluateWithin n = if k ≤ n then .ok v else .error ⟨n⟩ := by
  split
  · exact evaluateWithin_of_steps h hv ‹k ≤ n›
  · exact evaluateWithin_of_lt h (by omega)

/-- The least limit that is enough is the count of the steps to the value. -/
theorem takes_iff : t.Takes k v ↔ t.Steps k v ∧ v.isValue = true := by
  constructor
  · rintro ⟨henough, hleast⟩
    obtain ⟨j, hj, hs, hv⟩ := steps_of_evaluateWithin henough
    rcases Nat.lt_or_eq_of_le hj with hlt | rfl
    · exact absurd (evaluateWithin_of_steps hs hv (Nat.le_refl j)) (hleast j hlt v)
    · exact ⟨hs, hv⟩
  · rintro ⟨hs, hv⟩
    refine ⟨evaluateWithin_of_steps hs hv (Nat.le_refl k), fun n hn w hw => ?_⟩
    rw [evaluateWithin_of_lt hs hn] at hw
    cases hw

theorem exists_takes (h : t.evaluateWithin n = .ok v) : ∃ k, t.Takes k v := by
  obtain ⟨k, -, hsteps, hv⟩ := steps_of_evaluateWithin h
  exact ⟨k, takes_iff.2 ⟨hsteps, hv⟩⟩

end

/-! ## Terms without a value -/

section

variable {t : Term} {n : Nat}

theorem evaluateWithin_eq_error (h : ∀ w, t.evaluateWithin n ≠ .ok w) :
    t.evaluateWithin n = .error ⟨n⟩ := by
  unfold evaluateWithin at h ⊢
  split
  · rename_i w left hout
    simp only [hout] at h
    exact absurd rfl (h w)
  · rfl

/-- A term that has no value under any limit has none without a limit. -/
theorem evaluate_eq_none (h : ∀ n w, t.evaluateWithin n ≠ .ok w) : t.evaluate = none := by
  rcases hrun : t.evaluate with _ | w
  · rfl
  · obtain ⟨k, hsteps, hw⟩ := steps_of_evaluate hrun
    exact absurd (evaluateWithin_of_steps hsteps hw (Nat.le_refl k)) (h k w)

end

/-! ## The parts of an application -/

section

variable {apply : Term → Term → Term} {f a v : Term} {k : Nat}

/-- Steps that bring an application to a value go through the values of its parts. -/
theorem StepsBy.parts (h : StepsBy apply (app f a) k v) (hv : v.isValue = true) :
    ∃ i j l vf va, StepsBy apply f i vf ∧ vf.isValue = true ∧ StepsBy apply a j va ∧
      va.isValue = true ∧ StepsBy apply (apply vf va) l v ∧ k = i + j + vf.cost + l := by
  generalize ht : app f a = t at h
  induction h generalizing f a with
  | none =>
    subst ht
    cases hv
  | more hstep hrest ih =>
    subst ht
    cases hstep with
    | inFunction hf =>
      obtain ⟨i, j, l, vf, va, hfs, hvf, has, hva, hl, rfl⟩ := ih hv rfl
      exact ⟨_, j, l, vf, va, .more hf hfs, hvf, has, hva, hl, by omega⟩
    | inArgument hf ha =>
      obtain ⟨i, j, l, vf, va, hfs, hvf, has, hva, hl, rfl⟩ := ih hv rfl
      exact ⟨i, _, l, vf, va, hfs, hvf, .more ha has, hva, hl, by omega⟩
    | application hf ha =>
      exact ⟨0, 0, _, f, a, .none f, hf, .none a, ha, hrest, by omega⟩

/-- Where the application comes to a value, so does its argument. -/
theorem evaluateWithin_of_app {n : Nat} (h : (app f a).evaluateWithin n = .ok v) :
    (∃ i w, f.evaluateWithin i = .ok w) ∧ ∃ j w, a.evaluateWithin j = .ok w := by
  obtain ⟨k, -, hs, hv⟩ := steps_of_evaluateWithin h
  obtain ⟨i, j, l, vf, va, hf, hvf, ha, hva, -, -⟩ := hs.parts hv
  exact ⟨⟨i, vf, evaluateWithin_of_steps hf hvf (Nat.le_refl i)⟩,
    ⟨j, va, evaluateWithin_of_steps ha hva (Nat.le_refl j)⟩⟩

end

end PrimedLambda.Term

namespace PrimedLambda.Church

open Term

/-! ## Divergence -/

/-- A reduction of `omega` gives `omega` again. -/
theorem steps_omega (n : Nat) : omega.Steps n omega := by
  have hstep : omega.Step 1 omega := by
    have happly : omegaAux.applyTo omegaAux = omega := by
      simp [omegaAux, omega, applyTo, lam, letter]
    have h : omega.Step 1 (omegaAux.applyTo omegaAux) := .application rfl rfl
    rwa [happly] at h
  induction n with
  | zero => exact .none omega
  | succ n ih => exact ih.trans hstep.single

theorem omega_never_ends (n : Nat) : omega.evaluateWithin n = .error ⟨n⟩ :=
  evaluateWithin_of_lt (steps_omega (n + 1)) (Nat.lt_succ_self n)

theorem omega_has_no_value (n : Nat) (w : Term) : omega.evaluateWithin n ≠ .ok w := by
  rw [omega_never_ends]
  intro h
  cases h

end PrimedLambda.Church
