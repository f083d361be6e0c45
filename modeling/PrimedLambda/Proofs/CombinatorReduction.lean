-- The rules of application are sound. What a combinator turns into when it
-- is applied, its lambda term reduces to: in no step where the head is free,
-- in one step where it is an abstraction, and for the full test in the steps
-- of the two applications it makes as well.
import PrimedLambda.Combinator.Lambda

namespace PrimedLambda.Combinator

open Nameless (Beta Betas)

/-! ## One rule -/

/-- What a combinator has taken in is not touched when a number is filled. -/
@[simp] theorem instantiate_lambda (v : Var) (c : Combinator) (k : Nat) (u : Nameless) :
    (c.lambda v).instantiate k u = c.lambda v :=
  Nameless.instantiate_of_closedAt (closedAt_lambda v c k) u

/-- A combinator whose term is an abstraction reduces with its argument in one step. -/
theorem beta_of_abs {v : Var} {f a : Combinator} {b t : Nameless} (hf : f.lambda v = .abs b)
    (ht : b.instantiate 0 (a.lambda v) = t) : Beta (.app (f.lambda v) (a.lambda v)) t := by
  have hb : b.ClosedAt 1 := by
    have hclosed := closedAt_lambda v f 0
    rwa [hf] at hclosed
  rw [hf, ← ht]
  exact Nameless.beta_of_closedAt hb (closedAt_lambda v a 0)

/-- A head that is free takes in its argument and stays free. -/
theorem apply_of_isNeutral {f : Combinator} (h : f.isNeutral = true) (a : Combinator) :
    f.apply a = .stuckApp f a := by
  cases f with
  | freeVar => exact apply_freeVar a
  | stuckApp g b => exact apply_stuckApp a g b
  | _ => cases h

/-! ## All the rules -/

/-- The application of the terms takes a step, and then it reduces to the term of what the rules
make of the two. -/
def Fires (v : Var) (f a : Combinator) : Prop :=
  ∃ t, Beta (.app (f.lambda v) (a.lambda v)) t ∧ Betas t ((f.apply a).lambda v)

/-- Where the head is free nothing needs to reduce. -/
theorem betas_of_fires {v : Var} {f a : Combinator} (h : f.isNeutral = false → Fires v f a) :
    Betas (.app (f.lambda v) (a.lambda v)) ((f.apply a).lambda v) := by
  cases hf : f.isNeutral with
  | true =>
    rw [apply_of_isNeutral hf]
    exact .none _
  | false =>
    obtain ⟨t, hstep, hrest⟩ := h hf
    exact .more hstep hrest

/-- Any other head fires. -/
theorem fires (v : Var) (f a : Combinator) : f.isNeutral = false → Fires v f a := by
  unfold Fires
  induction f, a using apply_induction with
  | freeVar a =>
    intro h
    cases h
  | stuckApp f b a =>
    intro h
    cases h
  | id a =>
    intro _
    rw [apply_id]
    exact ⟨_, beta_of_abs rfl rfl, .none _⟩
  | constant c a =>
    intro _
    rw [apply_constant]
    exact ⟨_, beta_of_abs rfl (instantiate_lambda v c 0 _), .none _⟩
  | tru a =>
    intro _
    rw [apply_tru]
    exact ⟨_, beta_of_abs rfl rfl, .none _⟩
  | fls a =>
    intro _
    rw [apply_fls]
    exact ⟨_, beta_of_abs rfl rfl, .none _⟩
  | test a =>
    intro _
    rw [apply_test]
    exact ⟨_, beta_of_abs rfl rfl, .none _⟩
  | testWith x a =>
    intro _
    rw [apply_testWith]
    refine ⟨_, beta_of_abs rfl ?_, .none _⟩
    simp [lambda, Nameless.instantiate]
  | testWithBoth x y a hinner houter =>
    intro _
    rw [apply_testWithBoth]
    -- The step fills the third argument, and the two applications that are left fire or are stuck.
    have hfill : Beta (.app ((testWithBoth x y).lambda v) (a.lambda v))
        (.app (.app (x.lambda v) (y.lambda v)) (a.lambda v)) := by
      refine beta_of_abs rfl ?_
      simp [Nameless.instantiate]
    exact ⟨_, hfill, ((betas_of_fires hinner).inFunction _).trans (betas_of_fires houter)⟩

/-! ## The law -/

/-- The lambda term of a combinator, applied to that of its argument, reduces to the term of what
the rules make of the two. It takes a step at least, unless the head is a free variable or a stuck
application, which takes in the argument as it is. -/
theorem application_is_reduction (v : Var) (f a : Combinator) :
    Betas (.app (f.lambda v) (a.lambda v)) ((f.apply a).lambda v) ∧
      (f.isNeutral = true → f.apply a = .stuckApp f a) ∧ (f.isNeutral = false → Fires v f a) :=
  ⟨betas_of_fires (fires v f a), fun h => apply_of_isNeutral h a, fires v f a⟩

end PrimedLambda.Combinator
