-- Terms up to the names of their bound variables, and what becomes of them.
-- Renaming a variable does not show when the new name captures nothing. The
-- substitution of the textbook is replacement in the nameless term, and its
-- reduction fills the number of the abstraction.
import PrimedLambda.Nameless
import PrimedLambda.Proofs.Marking

namespace PrimedLambda.Term

open Textbook (rename)

/-! ## Variables under the binders in scope -/

section

variable {p q v w : Var} {scope scope' : List Var}

@[simp] theorem resolveVar_nil (v : Var) : resolveVar [] v = .free v := rfl

@[simp] theorem resolveVar_cons_self (p : Var) (scope : List Var) :
    resolveVar (p :: scope) p = .bound 0 := by
  simp [resolveVar, List.idxOf?_cons]

theorem resolveVar_of_not_mem (h : v ∉ scope) : resolveVar scope v = .free v := by
  simp [resolveVar, List.idxOf?_eq_none_iff.2 h]

theorem resolveVar_of_mem (h : v ∈ scope) : ∃ i, resolveVar scope v = .bound i := by
  rcases hi : scope.idxOf? v with _ | i
  · exact absurd h (List.idxOf?_eq_none_iff.1 hi)
  · exact ⟨i, by simp [resolveVar, hi]⟩

/-- Only the variable of the nearest binder points to it. -/
theorem resolveVar_cons_ne (hv : v ≠ p) (scope : List Var) :
    resolveVar (p :: scope) v ≠ .bound 0 := by
  unfold resolveVar
  simp only [List.idxOf?_cons, beq_iff_eq, if_neg (Ne.symm hv)]
  rcases scope.idxOf? v with _ | i <;> simp

/-- Binders over other variables do not tell whether two occurrences are the same. -/
theorem resolveVar_cons_iff (hv : v ≠ p) (hw : w ≠ q) :
    resolveVar (p :: scope) v = resolveVar (q :: scope') w ↔
      resolveVar scope v = resolveVar scope' w := by
  unfold resolveVar
  simp only [List.idxOf?_cons, beq_iff_eq, if_neg (Ne.symm hv), if_neg (Ne.symm hw)]
  rcases scope.idxOf? v with _ | i <;> rcases scope'.idxOf? w with _ | j <;> simp

/-- One more binder, over another variable, keeps what is the same of two occurrences. -/
theorem resolveVar_cons_congr (h : resolveVar scope v = resolveVar scope' w) (hv : v ≠ p)
    (hw : w ≠ q) : resolveVar (p :: scope) v = resolveVar (q :: scope') w :=
  (resolveVar_cons_iff hv hw).2 h

end

/-! ## Terms under the binders in scope -/

section

variable {t : Term} {p q x : Var} {scope scope' : List Var}

/-- Only the free variables of a term look at the scope. -/
theorem resolve_congr (h : ∀ w, t.Free w → resolveVar scope w = resolveVar scope' w) :
    t.resolve scope = t.resolve scope' := by
  induction t generalizing scope scope' with
  | var v => exact h v rfl
  | app f a ihf iha =>
    simp only [resolve, ihf fun w hw => h w (.inl hw), iha fun w hw => h w (.inr hw)]
  | abs r b ih =>
    simp only [resolve]
    refine congrArg _ (ih fun w hw => ?_)
    by_cases hr : r = w
    · rw [hr, resolveVar_cons_self, resolveVar_cons_self]
    · exact resolveVar_cons_congr (h w ⟨hr, hw⟩) (Ne.symm hr) (Ne.symm hr)
  | stuck t ih => simp only [resolve, ih h]

/-- A renaming does not show when the new name stands for what the old one stood for, and no
abstraction on the way to an occurrence captures it. -/
theorem resolve_rename (hp : t.Free p → resolveVar scope' q = resolveVar scope p)
    (hne : ∀ w, t.Free w → w ≠ p → resolveVar scope' w = resolveVar scope w)
    (hq : ¬ t.FreeUnder p q) : (rename p q t).resolve scope' = t.resolve scope := by
  induction t generalizing scope scope' with
  | var v =>
    simp only [rename, resolve]
    split
    · rename_i hv
      rw [hv]
      exact hp hv
    · exact hne v rfl ‹v ≠ p›
  | app f a ihf iha =>
    simp only [rename, resolve]
    rw [ihf (fun h => hp (.inl h)) (fun w hw => hne w (.inl hw)) fun h => hq (.inl h),
      iha (fun h => hp (.inr h)) (fun w hw => hne w (.inr hw)) fun h => hq (.inr h)]
  | abs r b ih =>
    by_cases hr : r = p
    · rw [hr, Textbook.rename_abs_same]
      exact resolve_congr fun w hw => hne w (hr ▸ hw) (Ne.symm hw.1)
    · rw [Textbook.rename_abs_of_ne hr]
      simp only [resolve]
      refine congrArg _ (ih (fun h => ?_) (fun w hw hwp => ?_) fun h => hq ⟨hr, .inr h⟩)
      · have hqr : q ≠ r := fun hqr => hq ⟨hr, .inl ⟨hqr.symm, h⟩⟩
        exact resolveVar_cons_congr (hp ⟨hr, h⟩) hqr (Ne.symm hr)
      · by_cases hrw : r = w
        · rw [hrw, resolveVar_cons_self, resolveVar_cons_self]
        · exact resolveVar_cons_congr (hne w ⟨hrw, hw⟩ hwp) (Ne.symm hrw) (Ne.symm hrw)
  | stuck t ih => simp only [rename, resolve, ih hp hne hq]

/-- A body whose parameter is renamed along with its occurrences is the same body. -/
theorem resolve_rename_body (hfree : ¬ t.Free q) (hq : ¬ t.FreeUnder p q) (scope : List Var) :
    (rename p q t).resolve (q :: scope) = t.resolve (p :: scope) := by
  refine resolve_rename (fun _ => ?_) (fun w hw hwp => ?_) hq
  · rw [resolveVar_cons_self, resolveVar_cons_self]
  · exact resolveVar_cons_congr rfl (fun hwq => hfree (hwq ▸ hw)) hwp

/-- An abstraction that gains a prime is the same abstraction, when the prime captures nothing. -/
theorem resolve_mark_body (hfree : ¬ t.Free p.prime) (hp : ¬ t.FreeUnder p p.prime)
    (scope : List Var) : (t.mark p).resolve (p.prime :: scope) = t.resolve (p :: scope) := by
  rw [mark_eq_rename]
  exact resolve_rename_body hfree hp scope

/-- A variable that is not free, or that the scope binds, has nothing to replace. -/
theorem replace_resolve (h : t.Free x → x ∈ scope) (u : Nameless) :
    (t.resolve scope).replace x u = t.resolve scope := by
  induction t generalizing scope with
  | var v =>
    simp only [resolve]
    by_cases hv : v ∈ scope
    · obtain ⟨i, hi⟩ := resolveVar_of_mem hv
      rw [hi, Nameless.replace]
    · have hne : v ≠ x := fun hvx => hv (hvx ▸ h hvx)
      rw [resolveVar_of_not_mem hv, Nameless.replace, if_neg hne]
  | app f a ihf iha =>
    simp only [resolve, Nameless.replace, ihf fun hf => h (.inl hf), iha fun ha => h (.inr ha)]
  | abs r b ih =>
    simp only [resolve, Nameless.replace]
    rw [ih]
    intro hb
    by_cases hr : r = x
    · exact hr ▸ List.mem_cons_self
    · exact List.mem_cons_of_mem r (h ⟨hr, hb⟩)
  | stuck t ih => simp only [resolve, Nameless.replace, ih h]

/-- To fill the number of the outermost binder is to replace the binder's variable. -/
theorem instantiate_resolve (t : Term) (p : Var) (scope : List Var) (u : Nameless) :
    (t.resolve (scope ++ [p])).instantiate scope.length u = (t.resolve scope).replace p u := by
  induction t generalizing scope with
  | var v =>
    simp only [resolve, resolveVar, List.idxOf?, List.findIdx?_append]
    rcases hi : scope.findIdx? (· == v) with _ | i
    · by_cases hv : v = p
      · simp [hv, Nameless.instantiate, Nameless.replace]
      · simp [hv, Ne.symm hv, Nameless.instantiate, Nameless.replace]
    · have hlt : i < scope.length := (List.findIdx?_eq_some_iff_getElem.1 hi).1
      simp [Nameless.instantiate, Nameless.replace, Nat.ne_of_lt hlt]
  | app f a ihf iha =>
    simp only [resolve, Nameless.instantiate, Nameless.replace, ihf, iha]
  | abs r b ih =>
    simp only [resolve, Nameless.instantiate, Nameless.replace]
    exact congrArg _ (ih (r :: scope))
  | stuck t ih => simp only [resolve, Nameless.instantiate, Nameless.replace, ih]

end

/-! ## The textbook -/

/-- What is free in the value is free where the value goes in, when no binder in scope binds it. -/
theorem resolve_eq_of_not_mem {t : Term} {scope : List Var} (h : ∀ w, t.Free w → w ∉ scope) :
    t.resolve scope = t.resolve [] :=
  resolve_congr fun w hw => resolveVar_of_not_mem (h w hw)

/-- The substitution of the textbook is replacement in the nameless term. -/
theorem resolve_textbook_substitute {base value : Term} {target : Var} {scope : List Var}
    (htarget : base.Free target → target ∉ scope)
    (hvalue : base.Free target → ∀ w, value.Free w → w ∉ scope) :
    (Textbook.substitute base target value).resolve scope =
      (base.resolve scope).replace target (value.resolve []) := by
  induction base using Textbook.substitute.induct target value generalizing scope with
  | case1 =>
    rw [Textbook.substitute, if_pos rfl, resolve_eq_of_not_mem (hvalue rfl), resolve,
      resolveVar_of_not_mem (htarget rfl), Nameless.replace, if_pos rfl]
  | case2 v hv =>
    have hfree : ¬ (var v).Free target := hv
    rw [Textbook.substitute, if_neg hv, replace_resolve fun h => absurd h hfree]
  | case3 f a ihf iha =>
    rw [Textbook.substitute]
    simp only [resolve, Nameless.replace]
    rw [ihf (fun h => htarget (.inl h)) fun h => hvalue (.inl h),
      iha (fun h => htarget (.inr h)) fun h => hvalue (.inr h)]
  | case4 b =>
    have hfree : ¬ (abs target b).Free target := fun h => h.1 rfl
    rw [Textbook.substitute, if_pos rfl, replace_resolve fun h => absurd h hfree]
  | case5 r b hr hcapture q =>
    rename_i ih
    have hq : q ∉ target :: value.vars ++ b.vars := Textbook.fresh_not_mem _
    rw [Textbook.substitute, if_neg hr, if_pos hcapture]
    change (abs q (Textbook.substitute (rename r q b) target value)).resolve scope = _
    simp only [List.cons_append, List.mem_cons, List.mem_append, not_or] at hq
    obtain ⟨hqt, hqv, hqb⟩ := hq
    simp only [resolve, Nameless.replace]
    rw [ih, resolve_rename_body (fun h => hqb h.mem_vars) fun h => hqb h.mem_vars]
    · intro _
      exact List.not_mem_cons_of_ne_of_not_mem (Ne.symm hqt) (htarget ⟨hr, hcapture.2⟩)
    · intro _ w hw
      have hwq : w ≠ q := fun h => hqv (h ▸ hw.mem_vars)
      exact List.not_mem_cons_of_ne_of_not_mem hwq (hvalue ⟨hr, hcapture.2⟩ w hw)
  | case6 r b hr hcapture ih =>
    rw [Textbook.substitute, if_neg hr, if_neg hcapture]
    simp only [resolve, Nameless.replace]
    rw [ih]
    · intro hb
      exact List.not_mem_cons_of_ne_of_not_mem (Ne.symm hr) (htarget ⟨hr, hb⟩)
    · intro hb w hw
      have hwr : w ≠ r := fun h => hcapture ⟨h ▸ hw, hb⟩
      exact List.not_mem_cons_of_ne_of_not_mem hwr (hvalue ⟨hr, hb⟩ w hw)
  | case7 t ih =>
    rw [Textbook.substitute]
    simp only [resolve, Nameless.replace]
    rw [ih htarget hvalue]

theorem textbook_substitute_resolve (base : Term) (target : Var) (value : Term) :
    (Textbook.substitute base target value).resolve [] =
      (base.resolve []).replace target (value.resolve []) :=
  resolve_textbook_substitute (by simp) (by simp)

/-- A reduction of the textbook fills the number of the abstraction. -/
theorem resolve_textbook_contract (p : Var) (b a : Term) :
    (Textbook.substitute b p a).resolve [] =
      (b.resolve [p]).instantiate 0 (a.resolve []) := by
  rw [textbook_substitute_resolve]
  exact (instantiate_resolve b p [] _).symm

end PrimedLambda.Term
