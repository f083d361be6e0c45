-- Evaluation of a plain term is that of the textbook, up to names, until a
-- clash. The invariant of a run is that only bare letters are free, and that
-- a binder has at least the primes of the abstractions between it and what
-- it binds. So the one thing that can go wrong in a reduction is a clash.
import PrimedLambda.Catalogue
import PrimedLambda.Proofs.Capture
import PrimedLambda.Proofs.FreeVariables

namespace PrimedLambda.Term

/-! ## The invariant of a run -/

/-- The free variables are bare letters, and no abstraction over a variable with more primes stands
between a binder and what it binds. -/
structure Layered (t : Term) : Prop where
  free : ∀ w, t.Free w → w.depth = 0
  bound : t.EveryAbs fun q b => ∀ r, b.FreeUnder q r → r.depth ≤ q.depth

section

variable {base value t u : Term} {target p w r : Var}

theorem layered_of_plain (h : t.Plain) : Layered t := by
  refine ⟨fun w hw => h.2 w hw.mem_vars, everyAbs_of_vars (fun q b _ hb r hr => ?_) h.2⟩
  rw [hb r hr.mem_vars]
  exact Nat.zero_le _

theorem layered_app {f a : Term} (h : Layered (app f a)) : Layered f ∧ Layered a :=
  ⟨⟨fun w hw => h.free w (.inl hw), h.bound.1⟩, ⟨fun w hw => h.free w (.inr hw), h.bound.2⟩⟩

/-- The body of an abstraction of a run has room for the primes of a substitution. -/
theorem Layered.spaced {b : Term} (h : Layered (abs p b)) : Spaced p b := by
  refine ⟨fun q hq hu => ?_, h.bound.2.imp fun q d hd hu => ?_⟩
  · exact absurd (h.free q.prime ⟨Ne.symm hq, hu.free⟩) (Nat.succ_ne_zero _)
  · exact absurd (hd q.prime hu) (Nat.not_succ_le_self _)

/-- The abstractions around an occurrence that was there before a substitution gain a prime at
most. -/
theorem freeUnder_substitute (h : (base.substitute target value).FreeUnder w r) :
    (w ≠ target ∧ ∃ s, base.FreeUnder w s ∧ r.depth ≤ s.depth + 1) ∨ value.Free w := by
  induction base using substitute_induction target with
  | var v =>
    rw [substitute_var] at h
    split at h
    · exact .inr h.free
    · cases h
  | app f a ihf iha =>
    rw [substitute_app] at h
    rcases h with hf | ha
    · exact (ihf hf).imp_left fun ⟨hw, s, hs, hr⟩ => ⟨hw, s, .inl hs, hr⟩
    · exact (iha ha).imp_left fun ⟨hw, s, hs, hr⟩ => ⟨hw, s, .inr hs, hr⟩
  | same b =>
    rw [substitute_abs_same] at h
    exact .inl ⟨Ne.symm h.1, r, h, Nat.le_succ _⟩
  | other p b hp ih =>
    rw [substitute_abs_of_ne hp] at h
    obtain ⟨hpw, ⟨rfl, hb⟩ | hb⟩ := h
    · rcases free_substitute hb with ⟨hm, hw⟩ | hv
      · rcases free_mark hm with ⟨hb, hwp⟩ | ⟨heq, _⟩
        · exact .inl ⟨hw, p, ⟨Ne.symm hwp, .inl ⟨rfl, hb⟩⟩, Nat.le_refl _⟩
        · exact absurd heq.symm hpw
      · exact .inr hv
    · rcases ih hb with ⟨hw, s, hm, hr⟩ | hv
      · rcases freeUnder_mark hm with ⟨hs, hwp⟩ | ⟨heq, _⟩
        · exact .inl ⟨hw, s, ⟨Ne.symm hwp, .inr hs⟩, hr⟩
        · exact absurd heq.symm hpw
      · exact .inr hv
  | stuck t ih =>
    rw [substitute_stuck] at h
    exact ih h

/-- Substitution keeps the order of the primes. A binder on the way gains one, and so do at most
the abstractions between it and what it binds. -/
theorem everyAbs_substitute (hs : Spaced target base)
    (hb : base.EveryAbs fun q b => ∀ r, b.FreeUnder q r → r.depth ≤ q.depth)
    (hv : Layered value) : (base.substitute target value).EveryAbs fun q b =>
      ∀ r, b.FreeUnder q r → r.depth ≤ q.depth := by
  induction base using substitute_induction target with
  | var v =>
    rw [substitute_var]
    split
    · exact hv.bound
    · trivial
  | app f a ihf iha =>
    rw [substitute_app]
    exact ⟨ihf (spaced_app hs).1 hb.1, iha (spaced_app hs).2 hb.2⟩
  | same b => rwa [substitute_abs_same]
  | other p b hp ih =>
    rw [substitute_abs_of_ne hp]
    refine ⟨fun r hr => ?_, ih hs.body (hb.2.mark (fun q d _ hqd hd r hu => ?_) hs.bound.1)⟩
    · rcases freeUnder_substitute hr with ⟨hpt, s, hm, hle⟩ | hfree
      · rcases freeUnder_mark hm with ⟨hu, _⟩ | ⟨_, hu⟩
        · exact absurd hu.free (hs.not_free_prime hpt)
        · exact Nat.le_trans hle (Nat.succ_le_succ (hb.1 s hu))
      · exact absurd (hv.free p.prime hfree) (Nat.succ_ne_zero _)
    · rcases freeUnder_mark hu with ⟨hud, _⟩ | ⟨heq, hud⟩
      · exact hd r hud
      · exact absurd ⟨heq, hud.free⟩ hqd
  | stuck t ih =>
    rw [substitute_stuck]
    exact ih ⟨hs.free, hs.bound⟩ hb

/-- A step keeps the invariant. -/
theorem layered_of_step {c : Nat} (hstep : t.Step c u) (h : Layered t) : Layered u := by
  refine ⟨fun w hw => h.free w (free_of_step hstep hw), ?_⟩
  induction hstep with
  | inFunction _ ih => exact ⟨ih (layered_app h).1, h.bound.2⟩
  | inArgument _ _ ih => exact ⟨h.bound.1, ih (layered_app h).2⟩
  | @application f a hf ha =>
    obtain ⟨hlf, hla⟩ := layered_app h
    cases f with
    | abs p b => exact everyAbs_substitute hlf.spaced hlf.bound.2 hla
    | _ => exact h.bound

end

/-! ## Terms that are equal up to names -/

section

variable {f a g c t u w : Term} {p : Var} {b : Term}

theorem alpha_app_iff : (app f a).Alpha (app g c) ↔ f.Alpha g ∧ a.Alpha c := by
  simp [Alpha, resolve]

theorem alpha_stuck_iff : (stuck t).Alpha (stuck u) ↔ t.Alpha u := by
  simp [Alpha, resolve]

theorem eq_app_of_alpha (h : (app f a).Alpha w) :
    ∃ g c, w = app g c ∧ f.Alpha g ∧ a.Alpha c := by
  cases w with
  | app g c => exact ⟨g, c, rfl, alpha_app_iff.1 h⟩
  | _ => simp [Alpha, resolve] at h

theorem eq_abs_of_alpha (h : (abs p b).Alpha w) :
    ∃ q d, w = abs q d ∧ b.resolve [p] = d.resolve [q] := by
  cases w with
  | abs q d => exact ⟨q, d, rfl, by simpa [Alpha, resolve] using h⟩
  | _ => simp [Alpha, resolve] at h

theorem eq_var_of_alpha {v : Var} (h : (var v).Alpha w) : w = var v := by
  cases w with
  | var v' => simpa [Alpha, resolve, eq_comm] using h
  | _ => simp [Alpha, resolve] at h

theorem eq_stuck_of_alpha (h : (stuck t).Alpha w) : ∃ s, w = stuck s ∧ t.Alpha s := by
  cases w with
  | stuck s => exact ⟨s, rfl, by simpa [Alpha, resolve] using h⟩
  | _ => simp [Alpha, resolve] at h

theorem isValue_of_alpha (h : u.Alpha w) : w.isValue = u.isValue := by
  cases u <;> cases w <;> simp_all [Alpha, resolve, isValue]

/-! ## The contraction of a step -/

theorem contracts_in_function (hf : f.isValue = false) {x : Term} :
    (app f a).Contracts p b x ↔ f.Contracts p b x := by
  constructor
  · intro h
    cases h with
    | inFunction h => exact h
    | inArgument h _ => simp [h] at hf
    | here _ => cases hf
  · exact .inFunction

theorem contracts_in_argument (hf : f.isValue = true) (ha : a.isValue = false) {x : Term} :
    (app f a).Contracts p b x ↔ a.Contracts p b x := by
  constructor
  · intro h
    cases h with
    | inFunction h => simp [h.not_isValue] at hf
    | inArgument _ h => exact h
    | here h => simp [h] at ha
  · exact .inArgument hf

theorem contracts_of_values (hf : f.isValue = true) (ha : a.isValue = true) {x : Term} :
    (app f a).Contracts p b x ↔ f = abs p b ∧ a = x := by
  constructor
  · intro h
    cases h with
    | inFunction h => simp [h.not_isValue] at hf
    | inArgument _ h => simp [h.not_isValue] at ha
    | here _ => exact ⟨rfl, rfl⟩
  · rintro ⟨rfl, rfl⟩
    exact .here ha

/-- A step that contracts counts one. -/
theorem Contracts.cost {x : Term} {n : Nat} (h : t.Contracts p b x) (hstep : t.Step n u) :
    n = 1 := by
  induction hstep with
  | inFunction hs ih => exact ih ((contracts_in_function hs.not_isValue).1 h)
  | inArgument hf hs ih => exact ih ((contracts_in_argument hf hs.not_isValue).1 h)
  | application hf ha =>
    obtain ⟨rfl, _⟩ := (contracts_of_values hf ha).1 h
    rfl

/-! ## One step beside the textbook -/

/-- From terms that are equal up to names, a step leads to such terms again exactly when there is
no clash in what it contracts. -/
theorem step_beside {n : Nat} (hstep : t.Step n u) (halpha : t.Alpha w) (hl : Layered t) :
    ∃ w', w.TextbookStep n w' ∧
      (u.Alpha w' ↔ ∀ p b x, t.Contracts p b x → ¬ b.Clashes p) := by
  induction hstep generalizing w with
  | inFunction hs ih =>
    obtain ⟨g, c, rfl, hfg, hac⟩ := eq_app_of_alpha halpha
    obtain ⟨g', hg, hiff⟩ := ih hfg (layered_app hl).1
    refine ⟨app g' c, .inFunction hg, ?_⟩
    rw [alpha_app_iff, and_iff_left hac, hiff]
    simp only [contracts_in_function hs.not_isValue]
  | inArgument hf hs ih =>
    obtain ⟨g, c, rfl, hfg, hac⟩ := eq_app_of_alpha halpha
    obtain ⟨c', hc, hiff⟩ := ih hac (layered_app hl).2
    refine ⟨app g c', .inArgument (by rwa [isValue_of_alpha hfg]) hc, ?_⟩
    rw [alpha_app_iff, and_iff_right hfg, hiff]
    simp only [contracts_in_argument hf hs.not_isValue]
  | @application f a hf ha =>
    obtain ⟨g, c, rfl, hfg, hac⟩ := eq_app_of_alpha halpha
    have hg : g.isValue = true := by rwa [isValue_of_alpha hfg]
    have hc : c.isValue = true := by rwa [isValue_of_alpha hac]
    obtain ⟨hlf, hla⟩ := layered_app hl
    cases f with
    | abs p b =>
      obtain ⟨q, d, rfl, hbd⟩ := eq_abs_of_alpha hfg
      refine ⟨Textbook.substitute d q c, .application hg hc, ?_⟩
      have hsame : (Textbook.substitute b p a).Alpha (Textbook.substitute d q c) := by
        unfold Alpha at hac ⊢
        rw [resolve_textbook_contract, resolve_textbook_contract, hbd, hac]
      have hiff : (b.substitute p a).Alpha (Textbook.substitute b p a) ↔ ¬ b.Clashes p :=
        substitute_alpha_iff hlf.spaced hla.free
      simp only [contracts_of_values hf ha, applyTo]
      constructor
      · rintro h p' b' x ⟨heq, _⟩
        cases heq
        exact hiff.1 (h.trans hsame.symm)
      · exact fun h => (hiff.2 (h p b a ⟨rfl, rfl⟩)).trans hsame
    | var v =>
      cases eq_var_of_alpha hfg
      refine ⟨stuck (app (var v) c), .application hg hc, ?_⟩
      simp only [contracts_of_values hf ha, applyTo]
      refine iff_of_true (alpha_stuck_iff.2 (alpha_app_iff.2 ⟨hfg, hac⟩)) ?_
      rintro p b x ⟨h, -⟩
      cases h
    | stuck s =>
      obtain ⟨r, rfl, hsr⟩ := eq_stuck_of_alpha hfg
      refine ⟨stuck (app r c), .application hg hc, ?_⟩
      simp only [contracts_of_values hf ha, applyTo]
      refine iff_of_true (alpha_stuck_iff.2 (alpha_app_iff.2 ⟨hsr, hac⟩)) ?_
      rintro p b x ⟨h, -⟩
      cases h
    | app _ _ => cases hf

end

/-! ## Whole runs beside the textbook -/

section

variable {t u w : Term} {k n : Nat}

theorem Layered.steps (h : t.Steps k u) (hl : Layered t) : Layered u :=
  h.keeps layered_of_step hl

theorem ClashFree.steps (hc : t.ClashFree n) (h : t.Steps k u) : u.ClashFree (n - k) :=
  fun i _ p b a hi hs => hc (k + i) _ p b a (by omega) (h.trans hs)

/-- A step within the limit contracts nothing that clashes. -/
theorem ClashFree.contracts {c : Nat} (hc : t.ClashFree n) (hstep : t.Step c u) (hn : c ≤ n)
    (p : Var) (b a : Term) (h : t.Contracts p b a) : ¬ b.Clashes p := by
  have hone := h.cost hstep
  exact hc 0 t p b a (by omega) (.none t) h

theorem clashFree_of_isValue (h : t.isValue = true) (n : Nat) : t.ClashFree n := by
  intro k u p b a _ hs hcon
  cases hs with
  | none => simp [hcon.not_isValue] at h
  | more hstep _ => simp [hstep.not_isValue] at h

/-- A run is free of clashes when its first step is, and then the rest. -/
theorem clashFree_of_step {c : Nat} (hstep : t.Step c u)
    (hcon : ∀ p b a, t.Contracts p b a → ¬ b.Clashes p) (hu : u.ClashFree (n - c)) :
    t.ClashFree n := by
  intro k x p b a hk hs h
  cases hs with
  | none => exact hcon p b a h
  | more hfirst hrest =>
    obtain ⟨rfl, rfl⟩ := hfirst.unique hstep
    exact hu _ x p b a (by omega) hrest h

theorem Beside.steps (h : Beside t k u w) : t.Steps k u := by
  induction h with
  | start => exact .none t
  | next _ hu _ ih => exact ih.trans hu.single

/-- Free of clashes, the runs stay equal up to names. -/
theorem Beside.alpha (h : Beside t k u w) (hl : Layered t) (hc : t.ClashFree n) (hk : k ≤ n) :
    u.Alpha w := by
  induction h with
  | start => exact .refl t
  | @next k c d u u' w w' h hu hw ih =>
    have hlu : Layered u := hl.steps h.steps
    obtain ⟨x, hx, hiff⟩ := step_beside hu (ih (by omega)) hlu
    obtain ⟨-, rfl⟩ := hx.unique hw
    exact hiff.2 ((hc.steps h.steps).contracts hu (by omega))

/-- As long as the runs are equal up to names, the textbook goes on where the other one does. -/
theorem Beside.extend {i j : Nat} {x : Term} (h : Beside t i u w) (hl : Layered t)
    (hsame : ∀ k u w, k ≤ n → Beside t k u w → u.Alpha w) (hs : u.Steps j x) (hij : i + j ≤ n) :
    ∃ y, Beside t (i + j) x y := by
  induction hs generalizing i w with
  | none => exact ⟨w, h⟩
  | @more a b x m j hstep hrest ih =>
    obtain ⟨w', hw, -⟩ := step_beside hstep (hsame i a w (by omega) h) (hl.steps h.steps)
    rw [← Nat.add_assoc] at hij ⊢
    exact ih (.next h hstep hw) hij

/-- Runs that stay equal up to names are free of clashes. -/
theorem clashFree_of_beside (hl : Layered t)
    (hsame : ∀ k u w, k ≤ n → Beside t k u w → u.Alpha w) : t.ClashFree n := by
  intro k u p b a hk hs hcon
  obtain ⟨w, h⟩ := Beside.start.extend hl hsame hs (by omega)
  rw [Nat.zero_add] at h
  obtain ⟨c, u', hstep⟩ := stepBy_of_not_isValue applyTo hcon.not_isValue
  obtain ⟨w', hw, hiff⟩ := step_beside hstep (hsame k u w (by omega) h) (hl.steps hs)
  have hone := hcon.cost hstep
  exact hiff.1 (hsame _ u' w' (by omega) (.next h hstep hw)) p b a hcon

/-- Free of clashes, the textbook takes the same steps, up to names. -/
theorem ClashFree.textbook_steps {v : Term} (hc : t.ClashFree n) (hl : Layered t)
    (halpha : t.Alpha w) (h : t.Steps k v) (hk : k ≤ n) :
    ∃ y, StepsBy Textbook.applyTo w k y ∧ v.Alpha y := by
  induction h generalizing w n with
  | none => exact ⟨w, .none w, halpha⟩
  | @more a b x m j hstep hrest ih =>
    obtain ⟨w', hw, hiff⟩ := step_beside hstep halpha hl
    have halpha' := hiff.2 (hc.contracts hstep (by omega))
    obtain ⟨y, hy, hxy⟩ := ih (hc.steps hstep.single) (layered_of_step hstep hl) halpha' (by omega)
    exact ⟨y, .more hw hy, hxy⟩

end

/-! ## The evaluator of the textbook -/

theorem meters_textbook (limit : Nat) :
    Meters limit Textbook.applyTo (Textbook.meter limit) where
  value {t} fuel h := by
    rw [Textbook.meter]
    rintro f a rfl
    cases h
  app f a fuel := Textbook.meter.eq_def limit (app f a) fuel
  applied {f} a hf hc := by
    cases f with
    | app g b => cases hf
    | abs p b => cases hc
    | _ => rfl

theorem textbook_of_steps {t v : Term} {k limit : Nat} (h : StepsBy Textbook.applyTo t k v)
    (hv : v.isValue = true) (hk : k ≤ limit) : Textbook.evaluateWithin t limit = .ok v := by
  simp only [Textbook.evaluateWithin, (meters_textbook limit).evaluates.outcome_of_steps h hv]
  rw [if_neg (by omega)]

theorem textbook_of_lt {t u : Term} {k limit : Nat} (h : StepsBy Textbook.applyTo t k u)
    (hk : limit < k) : Textbook.evaluateWithin t limit = .error ⟨limit⟩ := by
  simp only [Textbook.evaluateWithin, (meters_textbook limit).evaluates.steps h]
  rw [if_pos hk]

/-- Free of clashes, the evaluation ends as that of the textbook does. -/
theorem ClashFree.sameOutcome {t : Term} {n : Nat} (hc : t.ClashFree n) (hl : Layered t) :
    SameOutcome (t.evaluateWithin n) (Textbook.evaluateWithin t n) := by
  rcases (evaluates_meter n).ends_or_outlasts t n with ⟨k, v, hk, h, hv⟩ | ⟨u, u', h, hu⟩
  · obtain ⟨w, hw, hvw⟩ := hc.textbook_steps hl (.refl t) h hk
    have hwv : w.isValue = true := by rwa [isValue_of_alpha hvw]
    rw [evaluateWithin_of_steps h hv hk, textbook_of_steps hw hwv hk]
    exact hvw
  · obtain ⟨w, hw, huw⟩ := hc.textbook_steps hl (.refl t) h (Nat.le_refl n)
    obtain ⟨w', hw', -⟩ := step_beside hu huw (hl.steps h)
    rw [evaluateWithin_of_lt (h.trans hu.single) (Nat.lt_succ_self n),
      textbook_of_lt (hw.trans hw'.single) (Nat.lt_succ_self n)]
    rfl

/-! ## The law -/

/-- The run of a plain term and its run by the textbook are equal up to names after every number of
steps, up to `n` reductions, exactly when none of these reductions clashes. Then the evaluations
with the limit `n` end alike: in values that are equal up to names, or both for want of fuel. -/
theorem a_run_is_that_of_the_textbook_until_a_clash {t : Term} (ht : t.Plain) (n : Nat) :
    ((∀ k u w, k ≤ n → Beside t k u w → u.Alpha w) ↔ t.ClashFree n) ∧
      (t.ClashFree n → SameOutcome (t.evaluateWithin n) (Textbook.evaluateWithin t n)) := by
  have hl := layered_of_plain ht
  refine ⟨⟨clashFree_of_beside hl, fun hc k u w hk h => h.alpha hl hc hk⟩, ?_⟩
  exact fun hc => hc.sameOutcome hl

/-- `[λx.λy.[x y] y]`, where the `y` that goes in is not the one that the abstraction binds. -/
theorem an_argument_is_not_captured :
    ((lam .x (lam .y ((letter .x).app (letter .y)))).app (letter .y)).Plain ∧
      ((lam .x (lam .y ((letter .x).app (letter .y)))).app (letter .y)).ClashFree 1 ∧
      SameOutcome (((lam .x (lam .y ((letter .x).app (letter .y)))).app (letter .y)).evaluateWithin 1)
        (Textbook.evaluateWithin
          ((lam .x (lam .y ((letter .x).app (letter .y)))).app (letter .y)) 1) := by
  have hplain : ((lam .x (lam .y ((letter .x).app (letter .y)))).app (letter .y)).Plain := by decide
  have hfree : ((lam .x (lam .y ((letter .x).app (letter .y)))).app (letter .y)).ClashFree 1 := by
    refine clashFree_of_step (.application rfl rfl) (fun p b a h => ?_) (clashFree_of_isValue ?_ _)
    · obtain ⟨heq, -⟩ := (contracts_of_values rfl rfl).1 h
      cases heq
      decide
    · exact isValue_substitute _ rfl rfl
  exact ⟨hplain, hfree, (a_run_is_that_of_the_textbook_until_a_clash hplain 1).2 hfree⟩

/-- `[[[tru λf.f] x] y]`, where the abstraction over `f` is taken in by one over `f` in its turn.
The one that takes it in has a prime then, and the next reduction puts `x` into both. -/
theorem a_clash_chooses_the_wrong_variable :
    (Church.tru.applyAll [lam .f (letter .f), letter .x, letter .y]).Plain ∧
      (Church.tru.applyAll [lam .f (letter .f), letter .x, letter .y]).evaluateWithin 3 =
        .ok (letter .x) ∧
      Textbook.evaluateWithin (Church.tru.applyAll [lam .f (letter .f), letter .x, letter .y]) 3 =
        .ok (letter .y) ∧
      ¬ (letter .x).Alpha (letter .y) := by
  refine ⟨by decide, by cbv, by cbv, by decide⟩

end PrimedLambda.Term
