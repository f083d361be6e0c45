-- What two Church programs cost. The test for zero takes as many reductions
-- as the numeral has applications, and three more. The first projection of a
-- pair of `tru` and a term takes those of the term, and six more. Each of
-- them comes to a boolean, with some primes on its binders, which reads as
-- the boolean it was.
import Mathlib.Logic.Function.Iterate
import PrimedLambda.Proofs.Selection
import PrimedLambda.Proofs.Strictness

namespace PrimedLambda

open Textbook (primed)

namespace Term

/-! ## A function applied again and again -/

section

variable {f a b v w : Term} {p : Var}

theorem mark_iterate (p : Var) (f a : Term) (n : Nat) :
    ((app f)^[n] a).mark p = (app (f.mark p))^[n] (a.mark p) := by
  induction n with
  | zero => rfl
  | succ n ih => rw [Function.iterate_succ_apply', Function.iterate_succ_apply', mark, ih]

theorem substitute_iterate (target : Var) (value f a : Term) (n : Nat) :
    ((app f)^[n] a).substitute target value =
      (app (f.substitute target value))^[n] (a.substitute target value) := by
  induction n with
  | zero => rfl
  | succ n ih =>
    rw [Function.iterate_succ_apply', Function.iterate_succ_apply', substitute_app, ih]

/-- A constant function takes one reduction for each application, the innermost first. -/
theorem steps_iterate (ha : a.isValue = true) (hv : v.isValue = true)
    (hconst : ∀ u, b.substitute p u = v) (n : Nat) :
    ((app (abs p b))^[n] a).Steps n (if n = 0 then a else v) := by
  induction n with
  | zero => exact .none a
  | succ n ih =>
    rw [Function.iterate_succ_apply', if_neg (Nat.succ_ne_zero n)]
    have hinner : (if n = 0 then a else v).isValue = true := by
      split
      · exact ha
      · exact hv
    exact (steps_of_abs (.none _) ih hinner (hconst _)).cast (by omega)

end

end Term

namespace Church

open Term

/-! ## Booleans with primes -/

theorem primedTo_tru (n : Nat) :
    tru.primedTo n id = abs (primed .t n) (abs (primed .f n) (var (primed .t n))) := rfl

theorem primedTo_fls (n : Nat) :
    fls.primedTo n id = abs (primed .t n) (abs (primed .f n) (var (primed .f n))) := rfl

theorem asBool_of_steps {t v : Term} {k : Nat}
    (h : (t.applyAll [letter .x, letter .y]).Steps k v) (hv : v.isValue = true) :
    asBool t = some (selected v) := by
  unfold asBool
  rw [evaluate_of_value h hv, Option.map_some]

/-- However many primes its binders have, `tru` selects the first of two letters. -/
theorem asBool_tru (n : Nat) : asBool (tru.primedTo n id) = some (some true) := by
  have hne : primed .f n ≠ primed .t n := Textbook.primed_ne (by decide) n n
  have hsteps : ((tru.primedTo n id).applyAll [letter .x, letter .y]).Steps 2 (letter .x) := by
    rw [primedTo_tru]
    refine steps_abs_abs (Ne.symm hne) rfl rfl ?_
    simp [mark, hne, letter]
  exact asBool_of_steps hsteps rfl

/-- And `fls` selects the second. -/
theorem asBool_fls (n : Nat) : asBool (fls.primedTo n id) = some (some false) := by
  have hne : primed .t n ≠ (primed .f n).prime := Textbook.primed_ne (by decide) n (n + 1)
  have hsteps : ((fls.primedTo n id).applyAll [letter .x, letter .y]).Steps 2 (letter .y) := by
    rw [primedTo_fls]
    refine steps_abs_abs (Textbook.primed_ne (by decide) n n) rfl rfl ?_
    simp [mark, hne]
  exact asBool_of_steps hsteps rfl

/-! ## Numerals -/

theorem iterate_eq (n : Nat) : iterate n = (app (letter .x))^[n] (letter .y) := by
  induction n with
  | zero => rfl
  | succ n ih => rw [Function.iterate_succ_apply', iterate, ih]

/-- A numeral applies a function again and again, from a start. The start is substituted into the
function on the way. -/
theorem steps_numeral {f a : Term} (hf : f.isValue = true) (ha : a.isValue = true) (n : Nat) :
    ((numeral n).applyAll [f, a]).Steps 2 ((app (f.substitute (primed .y 1) a))^[n] a) := by
  refine steps_abs_abs (by decide) hf ha ?_
  have hmark : (iterate n).mark (.letter .y) = (app (letter .x))^[n] (var (primed .y 1)) := by
    rw [iterate_eq, mark_iterate]
    rfl
  rw [hmark, substitute_iterate, substitute_iterate]
  simp [letter, primed]

/-! ## The test for zero -/

/-- The constant function of the test gains a prime with each of two substitutions, the second of
which reaches into its body. -/
theorem substitute_constant :
    (abs (primed .x 1) fls).substitute (primed .y 1) tru =
      abs (primed .x 2) (fls.primedTo 1 id) := by
  have hbody : fls.substitute (primed .y 1) tru = fls.primedTo 1 id :=
    substitute_of_not_clashes (by decide) (by decide)
  have hmark : fls.mark (primed .x 1) = fls := mark_prime_of_letters (by decide) _
  rw [substitute_abs_of_ne (by decide), hmark, hbody]
  rfl

theorem steps_iszero (n : Nat) :
    (iszero.app (numeral n)).Steps 3
      ((app (abs (primed .x 2) (fls.primedTo 1 id)))^[n] tru) := by
  have htest : (iszero.app (numeral n)).Steps 1
      ((numeral n).applyAll [abs (primed .x 1) fls, tru]) := by
    refine steps_of_abs (.none _) (.none _) rfl ?_
    simp [letter, lam, fls, tru, substitute_abs_of_ne, substitute_abs_same, mark, primed]
  rw [← substitute_constant]
  exact htest.trans (steps_numeral rfl rfl n)

/-- The test for zero takes as many reductions as the numeral has applications, and three more,
under any limit, and what it comes to reads as whether there were none. -/
theorem iszero_decides_each_numeral (n : Nat) :
    ∃ v, (∀ m, (iszero.app (numeral n)).evaluateWithin m =
        if n + 3 ≤ m then .ok v else .error ⟨m⟩) ∧
      asBool v = some (some (n == 0)) := by
  have hconst : ∀ u, (fls.primedTo 1 id).substitute (primed .x 2) u = fls.primedTo 2 id := fun u =>
    substitute_primedTo_succ (by decide) (by decide)
  have happlied := steps_iterate (a := tru) rfl rfl hconst n
  have hsteps := ((steps_iszero n).trans happlied).cast (Nat.add_comm 3 n)
  refine ⟨_, evaluateWithin_of_value hsteps ?_, ?_⟩
  · split <;> rfl
  · rcases n with _ | n
    · exact asBool_tru 0
    · exact asBool_fls 2

/-! ## The first projection -/

/-- The value of `tru` in a pair, and the primes it gains on its way out. Nothing of the other
component is found in it. -/
theorem substitute_tru (u w : Term) :
    ((tru.substitute (primed .x 1) u).substitute (primed .y 2) tru).substitute (primed .f 1) w =
      tru.primedTo 3 id := by
  have hletters : ∀ v ∈ tru.vars, v.depth = 0 := by decide
  rw [substitute_of_not_clashes hletters (by decide), substitute_primedTo_succ hletters (by decide),
    substitute_primedTo_of_ne hletters (by decide) (by decide) (by decide)]

/-- The first projection of a pair with `tru` takes six reductions more than the other component,
under any limit, and what it comes to reads as true, whatever that component is. Where no limit is
enough for the component, none is enough for the projection. -/
theorem a_projection_runs_both_components (t : Term) :
    (∀ k u, t.Takes k u → ∃ w, (∀ m, (fst.app (pair.applyAll [tru, t])).evaluateWithin m =
        if k + 6 ≤ m then .ok w else .error ⟨m⟩) ∧ asBool w = some (some true)) ∧
      ((∀ k u, t.evaluateWithin k ≠ .ok u) →
        ∀ m w, (fst.app (pair.applyAll [tru, t])).evaluateWithin m ≠ .ok w) := by
  constructor
  · intro k u ht
    obtain ⟨hsteps, hu⟩ := takes_iff.1 ht
    have hfst := steps_fst hsteps (a := tru) rfl hu (by decide)
    rw [substitute_tru] at hfst
    exact ⟨_, evaluateWithin_of_value hfst rfl, asBool_tru 3⟩
  · intro hnever m w hw
    obtain ⟨-, j, p, hpair⟩ := evaluateWithin_of_app hw
    obtain ⟨-, k, u, hu⟩ := evaluateWithin_of_app hpair
    exact hnever k u hu

/-- `[λx.x λt''.[f' y]]`, whose value is over a variable that `tru` is over on its way and has a
variable free that is substituted for, and `omega`, which never ends. -/
theorem a_primed_component_is_run :
    ((lam .x (letter .x)).app (abs (primed .t 2) (stuck ((var (primed .f 1)).app (letter .y))))).Takes
        1 (abs (primed .t 2) (stuck ((var (primed .f 1)).app (letter .y)))) ∧
      (∃ w, (∀ m, (fst.app (pair.applyAll [tru, (lam .x (letter .x)).app
          (abs (primed .t 2) (stuck ((var (primed .f 1)).app (letter .y))))])).evaluateWithin m =
            if 1 + 6 ≤ m then .ok w else .error ⟨m⟩) ∧ asBool w = some (some true)) ∧
      (∀ k u, omega.evaluateWithin k ≠ .ok u) ∧
      ∀ m w, (fst.app (pair.applyAll [tru, omega])).evaluateWithin m ≠ .ok w := by
  have hsteps : ((lam .x (letter .x)).app
      (abs (primed .t 2) (stuck ((var (primed .f 1)).app (letter .y))))).Steps 1
      (abs (primed .t 2) (stuck ((var (primed .f 1)).app (letter .y)))) :=
    steps_of_abs (.none _) (.none _) rfl (by simp [letter])
  have htakes := takes_iff.2 ⟨hsteps, rfl⟩
  have hnever : ∀ k u, omega.evaluateWithin k ≠ .ok u := by
    intro k u h
    rw [omega_never_ends] at h
    cases h
  have hruns := (a_projection_runs_both_components _).1 _ _ htakes
  have hdiverges := (a_projection_runs_both_components omega).2 hnever
  exact ⟨htakes, hruns, hnever, hdiverges⟩

end Church

end PrimedLambda
