-- What marking does to a term. To mark a variable is to rename its free
-- occurrences to the variable with one more prime, so each law is said of
-- renaming first: which variables are free afterwards, and which free
-- occurrences lie inside which abstractions. A mark shows on what is free, and
-- a second one of the same variable finds nothing.
import PrimedLambda.Textbook

namespace PrimedLambda

open Textbook (rename)

/-! ## Renaming -/

namespace Textbook

variable {p q v w : Var} {t : Term}

theorem rename_abs_same (p q : Var) (b : Term) : rename p q (.abs p b) = .abs p b := by
  simp [rename]

theorem rename_abs_of_ne {r : Var} (h : r ≠ p) (q : Var) (b : Term) :
    rename p q (.abs r b) = .abs r (rename p q b) := by
  simp [rename, h]

/-- A variable that is free after the renaming was free before it, or it is the new name. -/
theorem free_rename (h : (rename p q t).Free w) : t.Free w ∧ w ≠ p ∨ w = q ∧ t.Free p := by
  induction t with
  | var v =>
    simp only [rename, Term.Free] at h ⊢
    split at h
    · exact .inr ⟨h.symm, ‹v = p›⟩
    · exact .inl ⟨h, fun hw => ‹¬ v = p› (h.trans hw)⟩
  | app f a ihf iha =>
    rcases h with hf | ha
    · exact (ihf hf).imp (fun h => ⟨.inl h.1, h.2⟩) fun h => ⟨h.1, .inl h.2⟩
    · exact (iha ha).imp (fun h => ⟨.inr h.1, h.2⟩) fun h => ⟨h.1, .inr h.2⟩
  | abs r b ih =>
    by_cases hr : r = p
    · subst hr
      rw [rename_abs_same] at h
      exact .inl ⟨h, Ne.symm h.1⟩
    · rw [rename_abs_of_ne hr] at h
      exact (ih h.2).imp (fun hw => ⟨⟨h.1, hw.1⟩, hw.2⟩) fun hw => ⟨hw.1, hr, hw.2⟩
  | stuck t ih => exact ih h

/-- Renaming leaves the other free variables free. -/
theorem free_rename_of_ne (h : t.Free w) (hw : w ≠ p) (q : Var) : (rename p q t).Free w := by
  induction t with
  | var v =>
    have hv : v ≠ p := fun hv => hw (h.symm.trans hv)
    simpa [rename, hv] using h
  | app f a ihf iha => exact h.imp ihf iha
  | abs r b ih =>
    by_cases hr : r = p
    · rwa [hr, rename_abs_same, ← hr]
    · rw [rename_abs_of_ne hr]
      exact ⟨h.1, ih h.2⟩
  | stuck t ih => exact ih h

/-- Without a free occurrence there is nothing to rename. -/
theorem rename_of_not_free (h : ¬ t.Free p) (q : Var) : rename p q t = t := by
  induction t with
  | var v => simp [rename, show v ≠ p from h]
  | app f a ihf iha =>
    rw [rename, ihf fun hf => h (.inl hf), iha fun ha => h (.inr ha)]
  | abs r b ih =>
    by_cases hr : r = p
    · rw [hr, rename_abs_same]
    · rw [rename_abs_of_ne hr, ih fun hb => h ⟨hr, hb⟩]
  | stuck t ih => rw [rename, ih h]

/-- An occurrence stays inside the abstractions it was inside of. -/
theorem freeUnder_rename {r : Var} (h : (rename p q t).FreeUnder w r) :
    t.FreeUnder w r ∧ w ≠ p ∨ w = q ∧ t.FreeUnder p r := by
  induction t with
  | var v => cases h
  | app f a ihf iha =>
    rcases h with hf | ha
    · exact (ihf hf).imp (fun h => ⟨.inl h.1, h.2⟩) fun h => ⟨h.1, .inl h.2⟩
    · exact (iha ha).imp (fun h => ⟨.inr h.1, h.2⟩) fun h => ⟨h.1, .inr h.2⟩
  | abs s b ih =>
    by_cases hs : s = p
    · subst hs
      rw [rename_abs_same] at h
      exact .inl ⟨h, Ne.symm h.1⟩
    · rw [rename_abs_of_ne hs] at h
      obtain ⟨hsw, ⟨rfl, hb⟩ | hb⟩ := h
      · exact (free_rename hb).imp (fun h => ⟨⟨hsw, .inl ⟨rfl, h.1⟩⟩, h.2⟩)
          fun h => ⟨h.1, hs, .inl ⟨rfl, h.2⟩⟩
      · exact (ih hb).imp (fun h => ⟨⟨hsw, .inr h.1⟩, h.2⟩) fun h => ⟨h.1, hs, .inr h.2⟩
  | stuck t ih => exact ih h

end Textbook

/-! ## Marking -/

namespace Term

variable {p v w : Var} {t : Term}

theorem mark_eq_rename (p : Var) (t : Term) : t.mark p = rename p p.prime t := by
  induction t with
  | var v =>
    by_cases h : v = p
    · simp [mark, rename, h]
    · simp [mark, rename, h, Ne.symm h]
  | app f a ihf iha => rw [mark, rename, ihf, iha]
  | abs r b ih =>
    by_cases h : r = p
    · simp [mark, rename, h]
    · simp [mark, rename, h, Ne.symm h, ih]
  | stuck t ih => rw [mark, rename, ih]

theorem mark_abs_same (p : Var) (b : Term) : (abs p b).mark p = abs p b := by
  simp [mark]

theorem mark_abs_of_ne {r : Var} (h : r ≠ p) (b : Term) :
    (abs r b).mark p = abs r (b.mark p) := by
  simp [mark, Ne.symm h]

theorem free_mark (h : (t.mark p).Free w) : t.Free w ∧ w ≠ p ∨ w = p.prime ∧ t.Free p := by
  rw [mark_eq_rename] at h
  exact Textbook.free_rename h

theorem free_mark_of_ne (h : t.Free w) (hw : w ≠ p) : (t.mark p).Free w := by
  rw [mark_eq_rename]
  exact Textbook.free_rename_of_ne h hw _

theorem mark_of_not_free (h : ¬ t.Free p) : t.mark p = t := by
  rw [mark_eq_rename]
  exact Textbook.rename_of_not_free h _

theorem freeUnder_mark {r : Var} (h : (t.mark p).FreeUnder w r) :
    t.FreeUnder w r ∧ w ≠ p ∨ w = p.prime ∧ t.FreeUnder p r := by
  rw [mark_eq_rename] at h
  exact Textbook.freeUnder_rename h

/-! ## Marking twice -/

/-- What was free has its mark, so nothing is left to mark. -/
theorem not_free_mark (v : Var) (t : Term) : ¬ (t.mark v).Free v := by
  intro h
  rcases free_mark h with ⟨-, hne⟩ | ⟨heq, -⟩
  · exact hne rfl
  · exact v.prime_ne_self heq.symm

theorem mark_eq_self_iff : t.mark v = t ↔ ¬ t.Free v := by
  constructor
  · intro h hfree
    have hnot := not_free_mark v t
    rw [h] at hnot
    exact hnot hfree
  · exact mark_of_not_free

theorem mark_mark_self (v : Var) (t : Term) : (t.mark v).mark v = t.mark v :=
  mark_of_not_free (not_free_mark v t)

/-- Two marks commute where neither makes what the other looks for. The binders stay as they are,
so they stop the same marks in either order. -/
theorem mark_comm {u v : Var} (huv : u ≠ v.prime) (hvu : v ≠ u.prime) (t : Term) :
    (t.mark u).mark v = (t.mark v).mark u := by
  induction t with
  | var w =>
    by_cases hu : u = w
    · subst hu
      by_cases hv : v = u
      · rw [hv]
      · simp [mark, hv, hvu]
    · by_cases hv : v = w
      · subst hv
        simp [mark, hu, huv]
      · simp [mark, hu, hv]
  | app f a ihf iha => simp only [mark, ihf, iha]
  | abs p b ih =>
    by_cases hu : p = u
    · subst hu
      by_cases hv : p = v
      · rw [hv]
      · rw [mark_abs_same, mark_abs_of_ne hv, mark_abs_same]
    · by_cases hv : p = v
      · subst hv
        rw [mark_abs_same, mark_abs_of_ne hu, mark_abs_same]
      · rw [mark_abs_of_ne hu, mark_abs_of_ne hv, mark_abs_of_ne hv, mark_abs_of_ne hu, ih]
  | stuck t ih => simp only [mark, ih]

/-! ## Substitution, case by case -/

/-- Induction along a substitution, which enters an abstraction with its parameter marked in the
body. -/
theorem substitute_induction (target : Var) {P : Term → Prop} (var : ∀ v, P (.var v))
    (app : ∀ f a, P f → P a → P (.app f a)) (same : ∀ b, P (.abs target b))
    (other : ∀ p b, target ≠ p → P (b.mark p) → P (.abs p b))
    (stuck : ∀ t, P t → P (.stuck t)) (base : Term) : P base := by
  induction base using substitute.induct target with
  | case1 v => exact var v
  | case2 f a ihf iha => exact app f a ihf iha
  | case3 p b h =>
    rw [← Var.same_iff.1 h]
    exact same b
  | case4 p b h ih => exact other p b (by simpa using h) ih
  | case5 t ih => exact stuck t ih

theorem isValue_mark (p : Var) (t : Term) : (t.mark p).isValue = t.isValue := by
  cases t with
  | abs r b =>
    simp only [mark]
    split <;> rfl
  | _ => rfl

theorem isValue_substitute {base value : Term} (target : Var) (hb : base.isValue = true)
    (hv : value.isValue = true) : (base.substitute target value).isValue = true := by
  cases base with
  | var v =>
    rw [substitute_var]
    split
    · exact hv
    · rfl
  | app f a => cases hb
  | abs p b =>
    rw [substitute]
    split <;> rfl
  | stuck t =>
    rw [substitute_stuck]
    rfl

/-! ## The law -/

/-- A mark shows exactly where the variable is free, and it shows once: afterwards the variable is
free nowhere, so a second mark changes nothing. It frees nothing but the primed variable, and the
marks of two variables commute unless one of them is the other with a prime. -/
theorem marking_is_exact_and_done_at_once (t : Term) (v : Var) :
    (t.mark v = t ↔ ¬ t.Free v) ∧
      ¬ (t.mark v).Free v ∧
      (t.mark v).mark v = t.mark v ∧
      (∀ w, (t.mark v).Free w → t.Free w ∨ w = v.prime) ∧
      ∀ u, u ≠ v.prime → v ≠ u.prime → (t.mark u).mark v = (t.mark v).mark u := by
  refine ⟨mark_eq_self_iff, not_free_mark v t, mark_mark_self v t, fun w hw => ?_, fun u hu hv => ?_⟩
  · exact (free_mark hw).imp (·.1) (·.1)
  · exact mark_comm hu hv t

/-- In `λx'.[x y]` the binder takes the marked `x` as its own, and `y` stays free. -/
theorem a_primed_binder_takes_the_marked_letter :
    Var.letter .y ≠ (Var.letter .x).prime ∧ Var.letter .x ≠ (Var.letter .y).prime ∧
      ((abs (Var.letter .x).prime ((letter .x).app (letter .y))).mark (.letter .x)).Free
        (.letter .y) ∧
      (abs (Var.letter .x).prime ((letter .x).app (letter .y))).Free (.letter .y) ∧
      ((abs (Var.letter .x).prime ((letter .x).app (letter .y))).mark (.letter .y)).mark
          (.letter .x) =
        ((abs (Var.letter .x).prime ((letter .x).app (letter .y))).mark (.letter .x)).mark
          (.letter .y) := by
  have hyx : Var.letter .y ≠ (Var.letter .x).prime := by decide
  have hxy : Var.letter .x ≠ (Var.letter .y).prime := by decide
  have hmarked : ((abs (Var.letter .x).prime ((letter .x).app (letter .y))).mark
      (.letter .x)).Free (.letter .y) := by decide
  obtain ⟨-, -, -, hold, hcomm⟩ := marking_is_exact_and_done_at_once
    (abs (Var.letter .x).prime ((letter .x).app (letter .y))) (.letter .x)
  exact ⟨hyx, hxy, hmarked, (hold _ hmarked).resolve_right hyx, hcomm _ hyx hxy⟩

end Term

end PrimedLambda
