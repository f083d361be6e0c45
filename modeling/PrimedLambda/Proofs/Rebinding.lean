-- When an abstraction may gain a prime. What a renaming does to the nameless
-- term is settled by where the old and the new name point, so the renaming of
-- a parameter goes unseen only where the new name is fresh. A prime is such a
-- new name.
import PrimedLambda.Proofs.Resolution

namespace PrimedLambda.Term

open Textbook (rename)

section

variable {p q v w : Var} {t : Term} {scope scope' : List Var}

/-! ## What an occurrence tells of its scope -/

/-- Two scopes that give one nameless term give the same to each free variable. -/
theorem resolveVar_of_resolve (h : t.resolve scope = t.resolve scope') (hw : t.Free w) :
    resolveVar scope w = resolveVar scope' w := by
  induction t generalizing scope scope' with
  | var v =>
    cases hw
    exact h
  | app f a ihf iha =>
    obtain ⟨hf, ha⟩ := Nameless.app.inj h
    rcases hw with hw | hw
    · exact ihf hf hw
    · exact iha ha hw
  | abs r b ih =>
    have hb := ih (Nameless.abs.inj h) hw.2
    exact (resolveVar_cons_iff (Ne.symm hw.1) (Ne.symm hw.1)).1 hb
  | stuck t ih => exact ih (Nameless.stuck.inj h) hw

/-! ## Renaming a free variable -/

/-- A renaming that does not show has the new name point to where the old one did, touches nothing
else, and meets no abstraction over the new name on its way. -/
theorem of_resolve_rename (hpq : p ≠ q) (h : (rename p q t).resolve scope' = t.resolve scope) :
    (t.Free p → resolveVar scope' q = resolveVar scope p) ∧
      (∀ w, t.Free w → w ≠ p → resolveVar scope' w = resolveVar scope w) ∧
      ¬ t.FreeUnder p q := by
  induction t generalizing scope scope' with
  | var v =>
    unfold rename at h
    refine ⟨fun hv => ?_, fun w hw hwp => ?_, id⟩
    · cases hv
      rwa [if_pos rfl] at h
    · cases hw
      rwa [if_neg hwp] at h
  | app f a ihf iha =>
    obtain ⟨hf, ha⟩ := Nameless.app.inj h
    obtain ⟨hpf, hnf, huf⟩ := ihf hf
    obtain ⟨hpa, hna, hua⟩ := iha ha
    exact ⟨fun hp => hp.elim hpf hpa,
      fun w hw hwp => hw.elim (fun hw => hnf w hw hwp) fun hw => hna w hw hwp,
      fun hu => hu.elim huf hua⟩
  | abs r b ih =>
    by_cases hr : r = p
    · subst hr
      rw [Textbook.rename_abs_same] at h
      exact ⟨fun hp => absurd rfl hp.1, fun w hw _ => resolveVar_of_resolve h hw,
        fun hu => hu.1 rfl⟩
    · rw [Textbook.rename_abs_of_ne hr] at h
      obtain ⟨hp, hne, hu⟩ := ih (Nameless.abs.inj h)
      -- An abstraction over the new name would take the occurrence as its own.
      have hrq : b.Free p → r ≠ q := by
        rintro hb rfl
        have heq := hp hb
        rw [resolveVar_cons_self] at heq
        exact resolveVar_cons_ne (Ne.symm hr) scope heq.symm
      refine ⟨fun hb => ?_, fun w hw hwp => ?_, ?_⟩
      · exact (resolveVar_cons_iff (Ne.symm (hrq hb.2)) (Ne.symm hr)).1 (hp hb.2)
      · exact (resolveVar_cons_iff (Ne.symm hw.1) (Ne.symm hw.1)).1 (hne w hw.2 hwp)
      · rintro ⟨-, ⟨hq, hb⟩ | hb⟩
        · exact hrq hb hq
        · exact hu hb
  | stuck t ih => exact ih (Nameless.stuck.inj h)

/-- The parameter of an abstraction may be renamed to what is not free in the body and captures
nothing there, and to nothing else. -/
theorem alpha_rename_iff (hpq : p ≠ q) (b : Term) :
    (abs p b).Alpha (abs q (rename p q b)) ↔ ¬ b.Free q ∧ ¬ b.FreeUnder p q := by
  unfold Alpha
  constructor
  · intro h
    obtain ⟨-, hne, hu⟩ := of_resolve_rename hpq (Nameless.abs.inj h).symm
    refine ⟨fun hq => ?_, hu⟩
    have heq := hne q hq (Ne.symm hpq)
    rw [resolveVar_cons_self] at heq
    exact resolveVar_cons_ne (Ne.symm hpq) [] heq.symm
  · rintro ⟨hq, hu⟩
    simp only [resolve, resolve_rename_body hq hu]

end

/-! ## The law -/

/-- An abstraction that gains a prime, with the occurrences it binds, is the same abstraction up to
names exactly when the prime is fresh: the primed variable is not free in the body, and no
abstraction over it stands between the parameter and what it binds. -/
theorem a_prime_goes_unseen_where_it_is_fresh (p : Var) (b : Term) :
    (abs p b).Alpha (abs p.prime (b.mark p)) ↔ ¬ b.Free p.prime ∧ ¬ b.FreeUnder p p.prime := by
  rw [mark_eq_rename]
  exact alpha_rename_iff (Ne.symm p.prime_ne_self) b

/-- The inner abstraction of `λx.λx'.x` takes the occurrence that `λx` binds. -/
example : ¬ (lam .x (abs (Var.letter .x).prime (letter .x))).Alpha
    (abs (Var.letter .x).prime ((abs (Var.letter .x).prime (letter .x)).mark (.letter .x))) := by
  decide

end PrimedLambda.Term
