-- Applications to several arguments. A variable or a stuck node takes the
-- values of its arguments in, one after the other, and the run costs what the
-- arguments cost. Whatever the head is, the run needs a value of the head and
-- of each argument, so one part that never ends keeps it from ending.
import Mathlib.Algebra.GroupWithZero.Nat
import Mathlib.Data.List.Forall2
import PrimedLambda.Proofs.Strictness

namespace PrimedLambda

namespace Term

/-! ## Heads that reduce nothing -/

/-- The head takes any argument in, and a stuck node then holds the content applied to it: a
variable is its own content, and a stuck node has one. -/
inductive Gathers : (head content : Term) → Prop where
  | var (v : Var) : Gathers (.var v) (.var v)
  | stuck (s : Term) : Gathers (.stuck s) s

/-- Each term comes to the value of its run, and the count of that run is the least limit that is
enough. -/
abbrev RunsOf (args : List Term) (runs : List (Nat × Term)) : Prop :=
  List.Forall₂ (fun a run => a.Takes run.1 run.2) args runs

section

variable {head content a v : Term} {args : List Term} {runs : List (Nat × Term)} {k n : Nat}

theorem steps_of_gathers (h : Gathers head content) (ha : a.Takes k v) :
    (head.app a).Steps k (stuck (content.app v)) := by
  obtain ⟨hsteps, hv⟩ := takes_iff.1 ha
  have hvalue : head.isValue = true := by cases h <;> rfl
  have hgathered : (head.app v).Steps 0 (stuck (content.app v)) := by
    cases h with
    | var w => exact StepBy.single (.application rfl hv)
    | stuck s => exact StepBy.single (.application rfl hv)
  exact (hsteps.inArgument hvalue).trans hgathered

/-! ## One argument after the other -/

theorem StepsBy.inHead {apply : Term → Term → Term} {f g : Term} (h : StepsBy apply f n g)
    (args : List Term) : StepsBy apply (f.applyAll args) n (g.applyAll args) := by
  induction args generalizing f g with
  | nil => exact h
  | cons a args ih => exact ih (h.inFunction a)

/-- From the first argument on the head is a stuck node, so this is the case to induct on. -/
theorem steps_applyAll_stuck (h : RunsOf args runs) (s : Term) :
    ((stuck s).applyAll args).Steps (runs.map (·.1)).sum (stuck (s.applyAll (runs.map (·.2)))) := by
  induction h generalizing s with
  | nil => exact .none _
  | @cons a run args runs ha _ ih =>
    have hfirst := (steps_of_gathers (.stuck s) ha).inHead args
    exact hfirst.trans (ih (s.app run.2))

theorem steps_applyAll_of_gathers (hhead : Gathers head content) (hargs : args ≠ [])
    (h : RunsOf args runs) :
    (head.applyAll args).Steps (runs.map (·.1)).sum
      (stuck (content.applyAll (runs.map (·.2)))) := by
  cases h with
  | nil => exact absurd rfl hargs
  | @cons a run args runs ha has =>
    have hfirst := (steps_of_gathers hhead ha).inHead args
    exact hfirst.trans (steps_applyAll_stuck has (content.app run.2))

/-! ## What a run needs -/

/-- Where the application comes to a value, so do its head and each of its arguments. -/
theorem evaluateWithin_of_applyAll (h : (head.applyAll args).evaluateWithin n = .ok v) :
    (∃ i w, head.evaluateWithin i = .ok w) ∧ ∀ a ∈ args, ∃ j w, a.evaluateWithin j = .ok w := by
  induction args generalizing head with
  | nil => exact ⟨⟨n, v, h⟩, fun a ha => absurd ha List.not_mem_nil⟩
  | cons a args ih =>
    obtain ⟨⟨i, w, hfirst⟩, hargs⟩ := ih h
    obtain ⟨hhead, ha⟩ := evaluateWithin_of_app hfirst
    exact ⟨hhead, List.forall_mem_cons.2 ⟨ha, hargs⟩⟩

theorem exists_runsOf (h : ∀ a ∈ args, ∃ j w, a.evaluateWithin j = .ok w) :
    ∃ runs, RunsOf args runs := by
  induction args with
  | nil => exact ⟨[], .nil⟩
  | cons a args ih =>
    obtain ⟨⟨j, w, ha⟩, hargs⟩ := List.forall_mem_cons.1 h
    obtain ⟨k, htakes⟩ := exists_takes ha
    obtain ⟨runs, hruns⟩ := ih hargs
    exact ⟨(k, w) :: runs, .cons htakes hruns⟩

/-! ## The law of a head that reduces nothing -/

theorem evaluateWithin_applyAll_iff {w : Term} (hhead : Gathers head content) (hargs : args ≠ []) :
    (head.applyAll args).evaluateWithin n = .ok w ↔
      ∃ runs, RunsOf args runs ∧ (runs.map (·.1)).sum ≤ n ∧
        w = stuck (content.applyAll (runs.map (·.2))) := by
  constructor
  · intro hw
    obtain ⟨runs, hruns⟩ := exists_runsOf (evaluateWithin_of_applyAll hw).2
    rw [evaluateWithin_of_value (steps_applyAll_of_gathers hhead hargs hruns) rfl] at hw
    split at hw
    · cases hw
      exact ⟨runs, hruns, ‹_›, rfl⟩
    · cases hw
  · rintro ⟨runs, hruns, hle, rfl⟩
    exact evaluateWithin_of_steps (steps_applyAll_of_gathers hhead hargs hruns) rfl hle

/-- A variable or a stuck node applied to arguments comes to a value exactly under the limits that
are enough for all the arguments together. The value is one stuck node, which holds the head, or
the content of the head, applied to the values of the arguments. Under any other limit the fuel
runs out. -/
theorem a_stuck_head_gathers_the_values (hhead : Gathers head content) (hargs : args ≠ [])
    (n : Nat) :
    (∀ w, (head.applyAll args).evaluateWithin n = .ok w ↔
      ∃ runs, RunsOf args runs ∧ (runs.map (·.1)).sum ≤ n ∧
        w = stuck (content.applyAll (runs.map (·.2)))) ∧
    ((¬ ∃ runs, RunsOf args runs ∧ (runs.map (·.1)).sum ≤ n) →
      (head.applyAll args).evaluateWithin n = .error ⟨n⟩) := by
  refine ⟨fun w => evaluateWithin_applyAll_iff hhead hargs, fun hnone => ?_⟩
  refine evaluateWithin_eq_error fun w hw => hnone ?_
  obtain ⟨runs, hruns, hle, -⟩ := (evaluateWithin_applyAll_iff hhead hargs).1 hw
  exact ⟨runs, hruns, hle⟩

end

end Term

namespace Church

open Term

/-- A primed variable and an argument that takes a reduction, and a stuck node with an argument
that never ends. -/
theorem two_arguments_are_gathered :
    Gathers (var (.prime (.letter .f))) (var (.prime (.letter .f))) ∧
      Gathers (stuck ((letter .x).app (letter .y))) ((letter .x).app (letter .y)) ∧
      ((var (.prime (.letter .f))).applyAll
        [(lam .x (letter .x)).app (letter .y), tru]).evaluateWithin 1 =
          .ok (stuck ((var (.prime (.letter .f))).applyAll [letter .y, tru])) ∧
      ((stuck ((letter .x).app (letter .y))).applyAll [tru, omega]).evaluateWithin 7 =
        .error ⟨7⟩ := by
  have hfree := Gathers.var (.prime (.letter .f))
  have hstuck := Gathers.stuck ((letter .x).app (letter .y))
  have hruns : RunsOf [(lam .x (letter .x)).app (letter .y), tru]
      [(1, letter .y), (0, tru)] := by
    have hid : ((lam .x (letter .x)).app (letter .y)).Steps 1 (letter .y) := by
      have hstep : ((lam .x (letter .x)).app (letter .y)).Step 1
          ((lam .x (letter .x)).applyTo (letter .y)) := .application rfl rfl
      simpa [lam, letter, applyTo] using hstep.single
    exact .cons (takes_iff.2 ⟨hid, rfl⟩) (.cons (takes_iff.2 ⟨.none tru, rfl⟩) .nil)
  have hnever : ¬ ∃ runs, RunsOf [tru, omega] runs ∧ (runs.map (·.1)).sum ≤ 7 := by
    rintro ⟨runs, hruns, -⟩
    have hrun : ∃ run : Nat × Term, omega.Takes run.1 run.2 := by
      cases hruns with
      | cons _ hrest =>
        cases hrest with
        | cons homega _ => exact ⟨_, homega⟩
    obtain ⟨run, hrun⟩ := hrun
    exact omega_has_no_value _ _ hrun.enough
  have hvalue : ((var (.prime (.letter .f))).applyAll
      [(lam .x (letter .x)).app (letter .y), tru]).evaluateWithin 1 =
        .ok (stuck ((var (.prime (.letter .f))).applyAll [letter .y, tru])) :=
    ((a_stuck_head_gathers_the_values hfree (List.cons_ne_nil _ _) 1).1 _).2
      ⟨_, hruns, Nat.le_refl 1, rfl⟩
  have herror := (a_stuck_head_gathers_the_values hstuck (List.cons_ne_nil _ _) 7).2 hnever
  exact ⟨hfree, hstuck, hvalue, herror⟩

/-! ## The law of divergence -/

/-- Where `omega` is the head or an argument, whatever the other parts are, no limit is enough, and
without a limit the evaluation never ends. -/
theorem omega_in_any_place_never_ends {head : Term} {args : List Term}
    (h : head = omega ∨ omega ∈ args) :
    (∀ n, (head.applyAll args).evaluateWithin n = .error ⟨n⟩) ∧
      (head.applyAll args).evaluate = none := by
  have hnever : ∀ n w, (head.applyAll args).evaluateWithin n ≠ .ok w := by
    intro n w hw
    obtain ⟨hhead, hargs⟩ := evaluateWithin_of_applyAll hw
    have homega : ∃ i u, omega.evaluateWithin i = .ok u := by
      rcases h with rfl | hmem
      · exact hhead
      · exact hargs omega hmem
    obtain ⟨i, u, hu⟩ := homega
    exact omega_has_no_value i u hu
  exact ⟨fun n => evaluateWithin_eq_error (hnever n), evaluate_eq_none hnever⟩

/-- A function that ignores its argument, a free variable with a stuck argument beside `omega`, and
`omega` before others. -/
theorem omega_is_not_ignored :
    (∀ n, ((lam .x (letter .y)).applyAll [omega]).evaluateWithin n = .error ⟨n⟩) ∧
      (∀ n, ((letter .f).applyAll
        [stuck ((letter .x).app (letter .y)), omega, tru]).evaluateWithin n = .error ⟨n⟩) ∧
      ∀ n, (omega.applyAll [fls, tru]).evaluateWithin n = .error ⟨n⟩ :=
  ⟨(omega_in_any_place_never_ends (.inr (by simp))).1,
    (omega_in_any_place_never_ends (.inr (by simp))).1,
    (omega_in_any_place_never_ends (.inl rfl)).1⟩

end Church

end PrimedLambda
