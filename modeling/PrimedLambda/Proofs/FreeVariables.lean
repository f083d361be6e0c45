-- No variable is freed. Substitution keeps to the free variables of its
-- parts, so a step of evaluation keeps to those of the term, and so does a
-- whole evaluation. A closed term therefore never gets stuck: it can only
-- come to a closed abstraction. Nor does a substitution bind a letter that
-- was free.
import Mathlib.Data.Nat.Init
import PrimedLambda.Catalogue
import PrimedLambda.Proofs.Marking
import PrimedLambda.Proofs.Stepping

namespace PrimedLambda.Term

/-! ## Free variables -/

/-- What is free after a substitution was free in the base, and is not the target, or is free in
the value. The prime that a binder gains is taken by its own occurrences only. -/
theorem free_substitute {base value : Term} {target w : Var}
    (h : (base.substitute target value).Free w) :
    base.Free w ∧ w ≠ target ∨ value.Free w := by
  induction base using substitute_induction target with
  | var v =>
    rw [substitute_var] at h
    split at h
    · exact .inr h
    · rename_i hv
      exact .inl ⟨h, fun hw => hv (hw.symm.trans h.symm)⟩
  | app f a ihf iha =>
    rw [substitute_app] at h
    rcases h with hf | ha
    · exact (ihf hf).imp_left fun h => ⟨.inl h.1, h.2⟩
    · exact (iha ha).imp_left fun h => ⟨.inr h.1, h.2⟩
  | same b =>
    rw [substitute_abs_same] at h
    exact .inl ⟨h, Ne.symm h.1⟩
  | other p b hp ih =>
    rw [substitute_abs_of_ne hp] at h
    obtain ⟨hpw, hb⟩ := h
    rcases ih hb with ⟨hm, hw⟩ | hv
    · rcases free_mark hm with ⟨hb, hne⟩ | ⟨rfl, _⟩
      · exact .inl ⟨⟨Ne.symm hne, hb⟩, hw⟩
      · exact absurd rfl hpw
    · exact .inr hv
  | stuck t ih =>
    rw [substitute_stuck] at h
    exact ih h

/-- A letter that is free stays free. The abstractions that a substitution enters are over primed
variables afterwards. -/
theorem free_substitute_of_ne {base : Term} {target w : Var} (h : base.Free w)
    (hw : w ≠ target) (hdepth : w.depth = 0) (value : Term) :
    (base.substitute target value).Free w := by
  induction base using substitute_induction target with
  | var v =>
    have hv : target ≠ v := fun htv => hw (h.symm.trans htv.symm)
    rw [substitute_var, if_neg hv]
    exact h
  | app f a ihf iha =>
    rw [substitute_app]
    exact h.imp ihf iha
  | same b =>
    rw [substitute_abs_same]
    exact h
  | other p b hp ih =>
    rw [substitute_abs_of_ne hp]
    exact ⟨Var.prime_ne_of_depth_zero hdepth p, ih (free_mark_of_ne h.2 (Ne.symm h.1))⟩
  | stuck t ih =>
    rw [substitute_stuck]
    exact ih h

/-- Where the target is free, a letter that the value carries in is free in the result. -/
theorem free_substitute_of_value {base value : Term} {target w : Var} (h : base.Free target)
    (hw : value.Free w) (hdepth : w.depth = 0) : (base.substitute target value).Free w := by
  induction base using substitute_induction target with
  | var v =>
    rw [substitute_var, if_pos h.symm]
    exact hw
  | app f a ihf iha =>
    rw [substitute_app]
    exact h.imp ihf iha
  | same b => exact absurd rfl h.1
  | other p b hp ih =>
    rw [substitute_abs_of_ne hp]
    exact ⟨Var.prime_ne_of_depth_zero hdepth p, ih (free_mark_of_ne h.2 hp)⟩
  | stuck t ih =>
    rw [substitute_stuck]
    exact ih h

theorem free_applyTo {f a : Term} {w : Var} (h : (f.applyTo a).Free w) : (app f a).Free w := by
  cases f with
  | abs p b => exact (free_substitute h).imp_left fun hb => ⟨Ne.symm hb.2, hb.1⟩
  | _ => exact h

/-- A step frees no variable. -/
theorem free_of_step {t u : Term} {c : Nat} {w : Var} (h : t.Step c u) (hw : u.Free w) :
    t.Free w := by
  induction h with
  | inFunction h ih => exact hw.imp_left ih
  | inArgument hf h ih => exact hw.imp_right ih
  | application hf ha => exact free_applyTo hw

theorem free_of_steps {t u : Term} {k : Nat} {w : Var} (h : t.Steps k u) (hw : u.Free w) :
    t.Free w := by
  induction h with
  | none => exact hw
  | more h _ ih => exact free_of_step h (ih hw)

/-! ## Stuck nodes -/

theorem unstuck_mark {t : Term} (h : t.Unstuck) (p : Var) : (t.mark p).Unstuck := by
  induction t with
  | var v => trivial
  | app f a ihf iha => exact ⟨ihf h.1, iha h.2⟩
  | abs r b ih =>
    by_cases hr : r = p
    · rwa [hr, mark_abs_same, ← hr]
    · rw [mark_abs_of_ne hr]
      exact ih h
  | stuck t ih => cases h

theorem unstuck_substitute {base value : Term} {target : Var} (hb : base.Unstuck)
    (hv : value.Unstuck) : (base.substitute target value).Unstuck := by
  induction base using substitute_induction target with
  | var v =>
    rw [substitute_var]
    split
    · exact hv
    · trivial
  | app f a ihf iha =>
    rw [substitute_app]
    exact ⟨ihf hb.1, iha hb.2⟩
  | same b => rwa [substitute_abs_same]
  | other p b hp ih =>
    have hbody : b.Unstuck := hb
    rw [substitute_abs_of_ne hp]
    exact ih (unstuck_mark hbody p)
  | stuck t ih => cases hb

/-- A closed value that is not stuck can only be an abstraction. -/
theorem eq_abs_of_closed {t : Term} (hv : t.isValue = true) (hc : t.Closed) (hu : t.Unstuck) :
    ∃ p b, t = abs p b := by
  cases t with
  | var v => exact absurd rfl (hc v)
  | app f a => cases hv
  | abs p b => exact ⟨p, b, rfl⟩
  | stuck t => cases hu

/-- A step of a closed term puts no stuck node into it: what it applies is an abstraction. -/
theorem unstuck_of_step {t u : Term} {c : Nat} (h : t.Step c u) (hc : t.Closed)
    (hu : t.Unstuck) : u.Unstuck := by
  induction h with
  | inFunction h ih => exact ⟨ih (fun w hw => hc w (.inl hw)) hu.1, hu.2⟩
  | inArgument hf h ih => exact ⟨hu.1, ih (fun w hw => hc w (.inr hw)) hu.2⟩
  | application hf ha =>
    obtain ⟨p, b, rfl⟩ := eq_abs_of_closed hf (fun w hw => hc w (.inl hw)) hu.1
    exact unstuck_substitute hu.1 hu.2

/-! ## The laws -/

/-- What is free after a substitution was free in the base, and is not the target, or is free in
the value. A letter that is free in the base and is not the target stays free, and where the target
is free the letters that are free in the value stay free too: no abstraction takes them. -/
theorem a_substitution_binds_no_letter (base : Term) (target : Var) (value : Term) :
    (∀ w, (base.substitute target value).Free w → base.Free w ∧ w ≠ target ∨ value.Free w) ∧
      (∀ w, w.depth = 0 → base.Free w → w ≠ target → (base.substitute target value).Free w) ∧
      (base.Free target → ∀ w, w.depth = 0 → value.Free w →
        (base.substitute target value).Free w) := by
  refine ⟨fun w h => free_substitute h, fun w hdepth h hw => ?_, fun h w hdepth hw => ?_⟩
  · exact free_substitute_of_ne h hw hdepth value
  · exact free_substitute_of_value h hw hdepth

/-- `λy.[x t]` with `y` for `x`, where the `y` that goes in is not the one that is bound. -/
theorem a_letter_stays_free_under_its_own_binder :
    (lam .y ((letter .x).app (letter .t))).Free (.letter .x) ∧
      (lam .y ((letter .x).app (letter .t))).Free (.letter .t) ∧
      ¬ ((lam .y ((letter .x).app (letter .t))).substitute (.letter .x) (letter .y)).Free
        (.letter .x) ∧
      ((lam .y ((letter .x).app (letter .t))).substitute (.letter .x) (letter .y)).Free
        (.letter .t) ∧
      ((lam .y ((letter .x).app (letter .t))).substitute (.letter .x) (letter .y)).Free
        (.letter .y) := by
  have hx : (lam .y ((letter .x).app (letter .t))).Free (.letter .x) := by decide
  have ht : (lam .y ((letter .x).app (letter .t))).Free (.letter .t) := by decide
  obtain ⟨hold, hkept, hcarried⟩ := a_substitution_binds_no_letter
    (lam .y ((letter .x).app (letter .t))) (.letter .x) (letter .y)
  refine ⟨hx, ht, fun h => ?_, hkept _ rfl ht (by decide), hcarried hx _ rfl rfl⟩
  rcases hold _ h with ⟨-, hne⟩ | hvalue
  · exact hne rfl
  · cases hvalue

/-- Evaluation frees no variable. So a closed term with no stuck node, whatever primes it uses,
comes to a closed abstraction with no stuck node, if it comes to anything. -/
theorem evaluation_frees_no_variable {t v : Term} {n : Nat} (h : t.evaluateWithin n = .ok v) :
    (∀ w, v.Free w → t.Free w) ∧
      (t.Closed → t.Unstuck → v.Closed ∧ v.Unstuck ∧ ∃ p b, v = abs p b) := by
  obtain ⟨k, -, hs, hv⟩ := steps_of_evaluateWithin h
  refine ⟨fun w => free_of_steps hs, fun hc hu => ?_⟩
  have hkeep : v.Closed ∧ v.Unstuck :=
    hs.keeps (P := fun u => u.Closed ∧ u.Unstuck)
      (fun hstep hu => ⟨fun w hw => hu.1 w (free_of_step hstep hw), unstuck_of_step hstep hu.1 hu.2⟩)
      ⟨hc, hu⟩
  exact ⟨hkeep.1, hkeep.2, eq_abs_of_closed hv hkeep.1 hkeep.2⟩

/-- `[[tru λf.f] fls]`, where the value is taken in by an abstraction over `f` within another. -/
theorem a_closed_choice_stays_closed :
    (Church.tru.applyAll [lam .f (letter .f), Church.fls]).Closed ∧
      (Church.tru.applyAll [lam .f (letter .f), Church.fls]).Unstuck ∧
      (Church.tru.applyAll [lam .f (letter .f), Church.fls]).evaluateWithin 2 =
        .ok (abs (Var.letter .f).prime Church.fls) ∧
      (abs (Var.letter .f).prime Church.fls).Closed ∧
      (abs (Var.letter .f).prime Church.fls).Unstuck := by
  have hclosed : (Church.tru.applyAll [lam .f (letter .f), Church.fls]).Closed := by decide
  have hunstuck : (Church.tru.applyAll [lam .f (letter .f), Church.fls]).Unstuck := by decide
  have hrun : (Church.tru.applyAll [lam .f (letter .f), Church.fls]).evaluateWithin 2 =
      .ok (abs (Var.letter .f).prime Church.fls) := by cbv
  obtain ⟨hc, hu, -⟩ := (evaluation_frees_no_variable hrun).2 hclosed hunstuck
  exact ⟨hclosed, hunstuck, hrun, hc, hu⟩

end PrimedLambda.Term
