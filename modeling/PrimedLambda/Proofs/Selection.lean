-- Selection by booleans and by pairs, among values without primes. `fls` and
-- the second projection choose as they should. The test of `tru` does not:
-- the second argument clashes with `tru` itself and takes its place. The first
-- projection gives the first component, unless that clashes with the pair or
-- with the selector on its way.
import Mathlib.Data.Nat.Init
import PrimedLambda.Catalogue
import PrimedLambda.Proofs.EvenPrimes
import PrimedLambda.Proofs.Stepping

namespace PrimedLambda

open Textbook (primed)

namespace Term

/-! ## Abstractions that take values in -/

section

variable {a b c f u v w : Term} {p q : Var} {i j : Nat}

theorem steps_of_abs (hf : f.Steps i (abs p b)) (ha : a.Steps j u) (hu : u.isValue = true)
    (hv : b.substitute p u = v) : (app f a).Steps (i + j + 1) v := by
  have happly : (app (abs p b) u).Steps 1 v := by
    rw [← hv]
    exact StepBy.single (.application rfl hu)
  rw [Nat.add_assoc]
  exact (hf.inFunction a).trans ((ha.inArgument rfl).trans happly)

/-- The second abstraction has a prime when its value comes. Its argument is evaluated only after
the first reduction. -/
theorem steps_abs_abs_of_steps (hpq : p ≠ q) (ha : a.Steps i u) (hu : u.isValue = true)
    (hb : b.Steps j w) (hw : w.isValue = true)
    (hv : ((c.mark q).substitute p u).substitute q.prime w = v) :
    ((abs p (abs q c)).applyAll [a, b]).Steps (i + j + 2) v := by
  have hfirst : (app (abs p (abs q c)) a).Steps (0 + i + 1)
      (abs q.prime ((c.mark q).substitute p u)) :=
    steps_of_abs (.none _) ha hu (substitute_abs_of_ne hpq u c)
  exact (steps_of_abs hfirst hb hw hv).cast (by omega)

theorem steps_abs_abs (hpq : p ≠ q) (hu : u.isValue = true) (hw : w.isValue = true)
    (hv : ((c.mark q).substitute p u).substitute q.prime w = v) :
    ((abs p (abs q c)).applyAll [u, w]).Steps 2 v :=
  steps_abs_abs_of_steps hpq (.none u) hu (.none w) hw hv

end

end Term

namespace Church

open Term

variable {a b s t u w : Term} {k : Nat}

/-! ## The test -/

/-- The test applies its first argument to the other two. On the way the second one is substituted
into the first, and the third into both. -/
theorem steps_test (hs : s.isValue = true) (hletters : ∀ v ∈ s.vars, v.depth = 0)
    (ha : a.isValue = true) (hb : b.isValue = true) :
    (test.applyAll [s, a, b]).Steps 3
      (((s.substitute (primed .y 1) a).substitute (primed .t 2) b).applyAll
        [a.substitute (primed .t 2) b, b]) := by
  have htwo : (test.applyAll [s, a]).Steps 2 (abs (primed .t 2)
      ((s.substitute (primed .y 1) a).applyAll [a, var (primed .t 2)])) := by
    refine steps_abs_abs (by decide) hs ha ?_
    simp [lam, letter, substitute_abs_of_ne, mark, primed, mark_prime_of_letters hletters]
  exact steps_of_abs htwo (.none b) hb (by simp [primed])

/-- The occurrence that `tru` binds is taken for the target. So `tru` gives the second value. -/
theorem steps_test_tru (ha : a.isValue = true) (hb : b.isValue = true)
    (hletters : ∀ v ∈ b.vars, v.depth = 0) :
    (test.applyAll [tru, a, b]).Steps 5 (b.primedTo 2 id) := by
  have hclash : (tru.substitute (primed .y 1) a).substitute (primed .t 2) b =
      abs (primed .t 2) (abs (primed .f 2) b) := by
    simp [tru, lam, letter, substitute_abs_of_ne, mark, primed]
  have hsecond : ((b.mark (primed .f 2)).substitute (primed .t 2)
      (a.substitute (primed .t 2) b)).substitute (primed .f 3) b = b.primedTo 2 id := by
    rw [primed, mark_prime_of_letters hletters, substitute_of_letters hletters (by decide)]
    exact substitute_primedTo_of_ne hletters (by decide) (by decide) (by decide)
  have htest := steps_test (s := tru) rfl (by decide) ha hb
  rw [hclash] at htest
  exact htest.trans (steps_abs_abs (by decide) (isValue_substitute _ ha hb) hb hsecond)

theorem steps_test_fls (ha : a.isValue = true) (hb : b.isValue = true) :
    (test.applyAll [fls, a, b]).Steps 5 b := by
  have hkept : (fls.substitute (primed .y 1) a).substitute (primed .t 2) b =
      abs (primed .t 2) (abs (primed .f 2) (var (primed .f 2))) := by
    simp [fls, lam, letter, substitute_abs_of_ne, mark, primed]
  have htest := steps_test (s := fls) rfl (by decide) ha hb
  rw [hkept] at htest
  refine htest.trans (steps_abs_abs (by decide) (isValue_substitute _ ha hb) hb ?_)
  simp [mark, primed]

/-! ## Pairs -/

/-- A pair of a value and what comes to one. The second component is substituted into the first. -/
theorem steps_pair (ht : t.Steps k b) (ha : a.isValue = true) (hb : b.isValue = true)
    (hletters : ∀ v ∈ a.vars, v.depth = 0) :
    (pair.applyAll [a, t]).Steps (k + 2)
      (abs (primed .y 2) ((var (primed .y 2)).applyAll [a.substitute (primed .x 1) b, b])) := by
  refine (steps_abs_abs_of_steps (by decide) (.none a) ha ht hb ?_).cast (by omega)
  simp [lam, letter, substitute_abs_of_ne, mark, primed, mark_prime_of_letters hletters]

/-- A projection applies its selector to the components of the pair, and on the way the selector is
substituted into both. -/
theorem steps_projection (c : Term) (ht : t.Steps k b) (ha : a.isValue = true)
    (hb : b.isValue = true) (hletters : ∀ v ∈ a.vars, v.depth = 0) :
    ((lam .t ((letter .t).app (lam .t c))).app (pair.applyAll [a, t])).Steps (k + 4)
      ((lam .t c).applyAll [(a.substitute (primed .x 1) b).substitute (primed .y 2) (lam .t c),
        b.substitute (primed .y 2) (lam .t c)]) := by
  have hpair := steps_pair ht ha hb hletters
  have htaken : ((lam .t ((letter .t).app (lam .t c))).app (pair.applyAll [a, t])).Steps
      (0 + (k + 2) + 1) ((abs (primed .y 2)
        ((var (primed .y 2)).applyAll [a.substitute (primed .x 1) b, b])).app (lam .t c)) :=
    steps_of_abs (.none _) hpair rfl (by simp [lam, letter, substitute_abs_same])
  exact (htaken.trans (steps_of_abs (.none _) (.none _) rfl (by simp))).cast (by omega)

theorem steps_fst (ht : t.Steps k b) (ha : a.isValue = true)
    (hb : b.isValue = true) (hletters : ∀ v ∈ a.vars, v.depth = 0) :
    (fst.app (pair.applyAll [a, t])).Steps (k + 6)
      (((a.substitute (primed .x 1) b).substitute (primed .y 2) tru).substitute (primed .f 1)
        (b.substitute (primed .y 2) tru)) := by
  refine (steps_projection (lam .f (letter .t)) ht ha hb hletters).trans
    (steps_abs_abs (by decide) ?_ (isValue_substitute _ hb rfl) ?_)
  · exact isValue_substitute _ (isValue_substitute _ ha hb) rfl
  · simp [letter, mark, primed, tru]

theorem steps_snd (ha : a.isValue = true) (hb : b.isValue = true)
    (hletters : ∀ v ∈ a.vars, v.depth = 0) :
    (snd.app (pair.applyAll [a, b])).Steps 6 (b.substitute (primed .y 2) fls) := by
  refine (steps_projection (lam .f (letter .f)) (.none b) ha hb hletters).trans
    (steps_abs_abs (by decide) ?_ (isValue_substitute _ hb rfl) ?_)
  · exact isValue_substitute _ (isValue_substitute _ ha hb) rfl
  · simp [letter, mark, primed, fls]

theorem evaluate_fst (ha : a.isValue = true) (hb : b.isValue = true)
    (hletters : ∀ v ∈ a.vars, v.depth = 0) :
    (fst.app (pair.applyAll [a, b])).evaluate =
      some (((a.substitute (primed .x 1) b).substitute (primed .y 2) tru).substitute (primed .f 1)
        (b.substitute (primed .y 2) tru)) := by
  refine evaluate_of_value (steps_fst (.none b) ha hb hletters) (isValue_substitute _ ?_ ?_)
  · exact isValue_substitute _ (isValue_substitute _ ha hb) rfl
  · exact isValue_substitute _ hb rfl

/-- The first component goes through three substitutions, and only the first two can clash. -/
theorem alpha_first_iff (hletters : ∀ v ∈ a.vars, v.depth = 0)
    (hb : ∀ v, b = .var v → v.depth = 0) (w : Term) :
    (((a.substitute (primed .x 1) b).substitute (primed .y 2) tru).substitute (primed .f 1)
      w).Alpha a ↔ ¬ a.Clashes (.prime (.letter .x)) ∧ ¬ a.Clashes (.prime (.letter .y)) := by
  have hzero := primedTo_zero hletters
  by_cases hx : a.Clashes (.prime (.letter .x))
  · have hlost : Strays (a.resolve []) (a.substitute (primed .x 1) b) := by
      have h : Strays (a.resolve []) ((a.primedTo 0 id).substitute (primed .x 1) b) :=
        strays_of_clashes hletters keepsLetters_id hb hx
      rwa [hzero] at h
    have hstill : Strays (a.resolve []) (((a.substitute (primed .x 1) b).substitute
        (primed .y 2) tru).substitute (primed .f 1) w) :=
      (hlost.substitute (by decide)).substitute (by decide)
    exact iff_of_false (hstill.resolve_ne (by simp)) fun h => h.1 hx
  · rw [substitute_of_not_clashes hletters hx]
    by_cases hy : a.Clashes (.prime (.letter .y))
    · have hlost : Strays (a.resolve []) ((a.primedTo 1 id).substitute (primed .y 2) tru) :=
        strays_of_clashes hletters keepsLetters_id (by rintro v ⟨⟩) hy
      have hstill : Strays (a.resolve []) (((a.primedTo 1 id).substitute (primed .y 2)
          tru).substitute (primed .f 1) w) := hlost.substitute (by decide)
      exact iff_of_false (hstill.resolve_ne (by simp)) fun h => h.2 hy
    · rw [substitute_primedTo_succ hletters hy,
        substitute_primedTo_of_ne hletters (by decide) (by decide) (by decide)]
      exact iff_of_true (alpha_primedTo hletters 3) ⟨hx, hy⟩

/-! ## The law -/

/-- What the tests and the projections select of two values without primes, up to names. The test
of `fls` and the second projection select the second value, as they should. So does the test of
`tru`, which is right only when the two are the same. The first projection selects the first value
exactly when no abstraction over `x` or over `y` in it uses its parameter. -/
theorem a_selection_is_right_unless_it_clashes {a b : Term} (hpa : a.Plain) (hpb : b.Plain)
    (ha : a.isValue = true) (hb : b.isValue = true) :
    (∃ v, (test.applyAll [tru, a, b]).evaluate = some v ∧ v.Alpha b ∧
      (v.Alpha a ↔ a.Alpha b)) ∧
    (∃ v, (test.applyAll [fls, a, b]).evaluate = some v ∧ v.Alpha b) ∧
    (∃ v, (fst.app (pair.applyAll [a, b])).evaluate = some v ∧
      (v.Alpha a ↔
        ¬ a.Clashes (.prime (.letter .x)) ∧ ¬ a.Clashes (.prime (.letter .y)))) ∧
    ∃ v, (snd.app (pair.applyAll [a, b])).evaluate = some v ∧ v.Alpha b := by
  refine ⟨⟨_, evaluate_of_value (steps_test_tru ha hb hpb.2) (isValue_primedTo.trans hb), ?_⟩,
    ⟨b, evaluate_of_value (steps_test_fls ha hb) hb, .refl b⟩, ⟨_, evaluate_fst ha hb hpa.2, ?_⟩,
    ⟨_, evaluate_of_value (steps_snd ha hb hpa.2) (isValue_substitute _ hb rfl), ?_⟩⟩
  · have halpha := alpha_primedTo hpb.2 2
    exact ⟨halpha, fun h => h.symm.trans halpha, fun h => halpha.trans h.symm⟩
  · refine alpha_first_iff hpa.2 (fun v hv => ?_) _
    subst hv
    exact hpb.2 v List.mem_cons_self
  · rw [substitute_of_letters hpb.2 (by decide)]
    exact alpha_primedTo hpb.2 1

/-- The selections between `tru` and `fls`, in which nothing is over `x` or `y`. The first one is the
test of `tru`. -/
theorem booleans_are_selected :
    tru.Plain ∧ fls.Plain ∧ tru.isValue = true ∧ fls.isValue = true ∧
      (∃ v, (test.applyAll [tru, tru, fls]).evaluate = some v ∧ v.Alpha fls) ∧
      (∃ v, (test.applyAll [fls, tru, fls]).evaluate = some v ∧ v.Alpha fls) ∧
      (∃ v, (fst.app (pair.applyAll [tru, fls])).evaluate = some v ∧ v.Alpha tru) ∧
      ∃ v, (snd.app (pair.applyAll [tru, fls])).evaluate = some v ∧ v.Alpha fls := by
  have htru : tru.Plain := by decide
  have hfls : fls.Plain := by decide
  obtain ⟨⟨v, hv, hvb, -⟩, hsecond, ⟨w, hw, hiff⟩, hsnd⟩ :=
    a_selection_is_right_unless_it_clashes htru hfls rfl rfl
  exact ⟨htru, hfls, rfl, rfl, ⟨v, hv, hvb⟩, hsecond,
    ⟨w, hw, hiff.2 ⟨by decide, by decide⟩⟩, hsnd⟩

/-- `[[[test tru] x] y]` selects `y`, and `[fst [[pair λx.x] y]]` is no identity. -/
theorem a_test_and_a_pair_select_wrongly :
    (test.applyAll [tru, letter .x, letter .y]).evaluate = some (letter .y) ∧
      ¬ (letter .y).Alpha (letter .x) ∧
      ∃ v, (fst.app (pair.applyAll [lam .x (letter .x), letter .y])).evaluate = some v ∧
        ¬ v.Alpha (lam .x (letter .x)) := by
  have htest : (test.applyAll [tru, letter .x, letter .y]).evaluate = some (letter .y) :=
    evaluate_of_value (steps_test_tru rfl rfl (by decide)) rfl
  have hclash : (lam .x (letter .x)).Clashes (.prime (.letter .x)) := by decide
  have hletters : ∀ v ∈ (lam .x (letter .x)).vars, v.depth = 0 := by decide
  refine ⟨htest, by decide, _, evaluate_fst rfl rfl hletters, fun halpha => ?_⟩
  refine ((alpha_first_iff hletters (fun v hv => ?_) _).1 halpha).1 hclash
  cases hv
  rfl

end Church

end PrimedLambda
