-- Substitution captures nothing, up to names, exactly when nothing clashes.
-- Where the binders have room for their primes, a substitution without a
-- clash is replacement in the nameless term. With a clash it is not: it puts
-- the value in the place of an occurrence that an abstraction binds. So where
-- all primes are fresh, substitution is that of the textbook.
import PrimedLambda.Clash
import PrimedLambda.Proofs.Resolution

namespace PrimedLambda.Term

/-! ## Room for the primes -/

/-- The binders of the term have room for one more prime when `target` is substituted: the primed
variable is not one that occurs free inside the binder, apart from the target, and no abstraction
over it stands between the binder and what it binds. -/
structure Spaced (target : Var) (t : Term) : Prop where
  free : ∀ q : Var, q.prime ≠ target → ¬ t.FreeUnder q.prime q
  bound : t.EveryAbs fun q b => ¬ b.FreeUnder q q.prime

section

variable {target p : Var} {t : Term}

theorem spaced_app {f a : Term} (h : Spaced target (app f a)) :
    Spaced target f ∧ Spaced target a :=
  ⟨⟨fun q hq hf => h.free q hq (.inl hf), h.bound.1⟩,
    ⟨fun q hq ha => h.free q hq (.inr ha), h.bound.2⟩⟩

/-- What is free in the body is not the primed parameter, unless that is the target. -/
theorem Spaced.not_free_prime {b : Term} (h : Spaced target (abs p b)) (hp : p.prime ≠ target) :
    ¬ b.Free p.prime := by
  intro hfree
  exact h.free p hp ⟨(Var.prime_ne_self p).symm, .inl ⟨rfl, hfree⟩⟩

/-- A property of the abstractions survives marking when it does so in the body of each, where the
parameter is not the variable itself, and is not its primed form over one of its occurrences. -/
theorem EveryAbs.mark {P : Var → Term → Prop}
    (hP : ∀ q b, q ≠ p → ¬ (q = p.prime ∧ b.Free p) → P q b → P q (b.mark p))
    (hp : ¬ t.FreeUnder p p.prime) (h : t.EveryAbs P) : (t.mark p).EveryAbs P := by
  induction t with
  | var v => trivial
  | app f a ihf iha => exact ⟨ihf (fun hf => hp (.inl hf)) h.1, iha (fun ha => hp (.inr ha)) h.2⟩
  | abs r b ih =>
    by_cases hr : r = p
    · rwa [hr, mark_abs_same, ← hr]
    · rw [mark_abs_of_ne hr]
      exact ⟨hP r b hr (fun hb => hp ⟨hr, .inl hb⟩) h.1, ih (fun hb => hp ⟨hr, .inr hb⟩) h.2⟩
  | stuck t ih => exact ih hp h

/-- The marked body of an abstraction has as much room as the abstraction. -/
theorem Spaced.body {b : Term} (h : Spaced target (abs p b)) : Spaced target (b.mark p) := by
  refine ⟨fun q hq hu => ?_, h.bound.2.mark (fun q d _ hqd hd hu => ?_) h.bound.1⟩
  · rcases freeUnder_mark hu with ⟨hb, hqp⟩ | ⟨heq, hb⟩
    · exact h.free q hq ⟨Ne.symm hqp, .inr hb⟩
    · cases heq
      exact not_freeUnder_self p b hb
  · rcases freeUnder_mark hu with ⟨hud, _⟩ | ⟨heq, hud⟩
    · exact hd hud
    · exact hqd ⟨heq, hud.free⟩

/-- Marking neither makes a clash nor mends one. -/
theorem clashes_mark (hp : ¬ t.FreeUnder p p.prime) :
    (t.mark p).Clashes target ↔ t.Clashes target := by
  induction t with
  | var v => exact Iff.rfl
  | app f a ihf iha =>
    exact or_congr (ihf fun hf => hp (.inl hf)) (iha fun ha => hp (.inr ha))
  | abs r b ih =>
    by_cases hr : r = p
    · rw [hr, mark_abs_same]
    · rw [mark_abs_of_ne hr]
      refine and_congr_right fun _ => or_congr (and_congr_right fun _ => ?_)
        (ih fun hb => hp ⟨hr, .inr hb⟩)
      refine ⟨fun hb => ?_, fun hb => free_mark_of_ne hb hr⟩
      rcases free_mark hb with ⟨hr, _⟩ | ⟨heq, hpb⟩
      · exact hr
      · exact absurd ⟨hr, .inl ⟨heq, hpb⟩⟩ hp
  | stuck t ih => exact ih hp

end

/-! ## Without a clash -/

section

variable {base value : Term} {target p : Var} {scope scope' : List Var}

/-- When a substitution can be replacement in the nameless term, the base under one scope and the
result under another. There is room and no clash, no binder captures from the value where it goes
in, and the scopes treat what is free in the base alike. -/
structure Fits (target : Var) (value : Term) (scope scope' : List Var) (base : Term) : Prop where
  spaced : Spaced target base
  noClash : ¬ base.Clashes target
  under : ∀ q : Var, value.Free q.prime → ¬ base.FreeUnder target q
  alike : ∀ w, base.Free w → w ≠ target → resolveVar scope' w = resolveVar scope w
  outer : base.Free target → target ∉ scope
  inner : base.Free target → ∀ w, value.Free w → w ∉ scope'

theorem fits_app {f a : Term} (h : Fits target value scope scope' (app f a)) :
    Fits target value scope scope' f ∧ Fits target value scope scope' a := by
  obtain ⟨hs, hc, hu, halike, ho, hi⟩ := h
  constructor
  · exact ⟨(spaced_app hs).1, fun h => hc (.inl h), fun q hq h => hu q hq (.inl h),
      fun w hw => halike w (.inl hw), fun h => ho (.inl h), fun h => hi (.inl h)⟩
  · exact ⟨(spaced_app hs).2, fun h => hc (.inr h), fun q hq h => hu q hq (.inr h),
      fun w hw => halike w (.inr hw), fun h => ho (.inr h), fun h => hi (.inr h)⟩

theorem Fits.stuck {t : Term} (h : Fits target value scope scope' (.stuck t)) :
    Fits target value scope scope' t :=
  ⟨⟨h.spaced.free, h.spaced.bound⟩, h.noClash, h.under, h.alike, h.outer, h.inner⟩

/-- An abstraction whose primed parameter is the target binds nothing, for want of a clash. -/
theorem Fits.not_free {b : Term} (h : Fits target value scope scope' (abs p b)) (hp : p ≠ target)
    (hpt : p.prime = target) : ¬ b.Free p :=
  fun hb => h.noClash ⟨hp, .inl ⟨hpt, hb⟩⟩

/-- An abstraction that binds nothing is entered as it is. -/
theorem Fits.body_of_not_free {b : Term} (h : Fits target value scope scope' (abs p b))
    (hp : p ≠ target) (hpt : p.prime = target) :
    Fits target value (p :: scope) (p.prime :: scope') b := by
  have hfree := h.not_free hp hpt
  have hspaced := h.spaced.body
  rw [mark_of_not_free hfree] at hspaced
  refine ⟨hspaced, fun hc => h.noClash ⟨hp, .inr hc⟩, fun q hq hu => ?_, fun w hw hwt => ?_,
    fun hb => ?_, fun hb w hw => ?_⟩
  · exact h.under q hq ⟨hp, .inr hu⟩
  · have hpw : p ≠ w := fun hpw => hfree (hpw ▸ hw)
    have halike := h.alike w ⟨hpw, hw⟩ hwt
    exact resolveVar_cons_congr halike (fun hwp => hwt (hwp.trans hpt)) (Ne.symm hpw)
  · exact List.not_mem_cons_of_ne_of_not_mem (Ne.symm hp) (h.outer ⟨hp, hb⟩)
  · have hwp : w ≠ p.prime := by
      rintro rfl
      exact h.under p hw ⟨hp, .inl ⟨rfl, hb⟩⟩
    exact List.not_mem_cons_of_ne_of_not_mem hwp (h.inner ⟨hp, hb⟩ w hw)

/-- Any other abstraction is entered with its parameter marked, on both sides. -/
theorem Fits.body {b : Term} (h : Fits target value scope scope' (abs p b)) (hp : p ≠ target)
    (hpt : p.prime ≠ target) :
    Fits target value (p.prime :: scope) (p.prime :: scope') (b.mark p) := by
  have hold : ∀ {w}, (b.mark p).Free w → w ≠ p.prime → (abs p b).Free w := by
    intro w hw hwp
    rcases free_mark hw with ⟨hb, hne⟩ | ⟨heq, _⟩
    · exact ⟨Ne.symm hne, hb⟩
    · exact absurd heq hwp
  refine ⟨h.spaced.body, fun hc => ?_, fun q hq hu => ?_, fun w hw hwt => ?_, fun hb => ?_,
    fun hb w hw => ?_⟩
  · exact h.noClash ⟨hp, .inr ((clashes_mark h.spaced.bound.1).1 hc)⟩
  · rcases freeUnder_mark hu with ⟨hb, _⟩ | ⟨heq, _⟩
    · exact h.under q hq ⟨hp, .inr hb⟩
    · exact hpt heq.symm
  · by_cases hwp : w = p.prime
    · rw [hwp, resolveVar_cons_self, resolveVar_cons_self]
    · exact resolveVar_cons_congr (h.alike w (hold hw hwp) hwt) hwp hwp
  · exact List.not_mem_cons_of_ne_of_not_mem (Ne.symm hpt) (h.outer (hold hb (Ne.symm hpt)))
  · have hbt := hold hb (Ne.symm hpt)
    have hwp : w ≠ p.prime := by
      rintro rfl
      exact h.under p hw ⟨hp, .inl ⟨rfl, hbt.2⟩⟩
    exact List.not_mem_cons_of_ne_of_not_mem hwp (h.inner hbt w hw)

/-- Without a clash, to substitute is to replace in the nameless term. -/
theorem resolve_substitute (h : Fits target value scope scope' base) :
    (base.substitute target value).resolve scope' =
      (base.resolve scope).replace target (value.resolve []) := by
  induction base using substitute_induction target generalizing scope scope' with
  | var v =>
    rw [substitute_var]
    split
    · rename_i hv
      subst hv
      rw [resolve_eq_of_not_mem (h.inner rfl), resolve, resolveVar_of_not_mem (h.outer rfl),
        Nameless.replace, if_pos rfl]
    · rename_i hv
      have hfree : ¬ (var v).Free target := fun h => hv h.symm
      rw [replace_resolve fun h => absurd h hfree]
      exact h.alike v rfl (Ne.symm hv)
  | app f a ihf iha =>
    rw [substitute_app]
    simp only [resolve, Nameless.replace]
    rw [ihf (fits_app h).1, iha (fits_app h).2]
  | same b =>
    have hfree : ¬ (abs target b).Free target := fun h => h.1 rfl
    rw [substitute_abs_same, replace_resolve fun h => absurd h hfree]
    exact resolve_congr fun w hw => h.alike w hw (Ne.symm hw.1)
  | other p b hp ih =>
    rw [substitute_abs_of_ne hp]
    simp only [resolve, Nameless.replace]
    refine congrArg _ ?_
    by_cases hpt : p.prime = target
    · have hbody := h.body_of_not_free (Ne.symm hp) hpt
      rw [mark_of_not_free (h.not_free (Ne.symm hp) hpt)] at ih ⊢
      exact ih hbody
    · rw [← resolve_mark_body (h.spaced.not_free_prime hpt) h.spaced.bound.1]
      exact ih (h.body (Ne.symm hp) hpt)
  | stuck t ih =>
    rw [substitute_stuck]
    simp only [resolve, Nameless.replace]
    rw [ih h.stuck]

end

/-! ## With a clash -/

/-- At one place, under no abstraction over either variable, the first term has `p` and the second,
which has the same shape on the way there, has `x`. -/
inductive Meets (p x : Var) : Term → Term → Prop where
  | var : Meets p x (.var p) (.var x)
  | inFunction {f g a b : Term} : Meets p x f g → Meets p x (.app f a) (.app g b)
  | inArgument {f g a b : Term} : Meets p x a b → Meets p x (.app f a) (.app g b)
  | inBody {r : Var} {a b : Term} :
    r ≠ p → r ≠ x → Meets p x a b → Meets p x (.abs r a) (.abs r b)
  | inStuck {a b : Term} : Meets p x a b → Meets p x (.stuck a) (.stuck b)

theorem meets_mark {t : Term} {p : Var} (hfree : t.Free p) (hp : ¬ t.FreeUnder p p.prime) :
    Meets p p.prime t (t.mark p) := by
  induction t with
  | var v =>
    cases hfree
    simp only [mark, Var.same_self, if_true]
    exact .var
  | app f a ihf iha =>
    rcases hfree with hf | ha
    · exact .inFunction (ihf hf fun h => hp (.inl h))
    · exact .inArgument (iha ha fun h => hp (.inr h))
  | abs r b ih =>
    rw [mark_abs_of_ne hfree.1]
    exact .inBody hfree.1 (fun hr => hp ⟨hfree.1, .inl ⟨hr, hfree.2⟩⟩)
      (ih hfree.2 fun h => hp ⟨hfree.1, .inr h⟩)
  | stuck t ih => exact .inStuck (ih hfree hp)

theorem Meets.mark {a b : Term} {p x r : Var} (h : Meets p x a b) (hr : r ≠ x) :
    Meets p x a (b.mark r) := by
  induction h with
  | var =>
    simp only [Term.mark, Var.same_iff, if_neg hr]
    exact .var
  | inFunction _ ih => exact .inFunction ih
  | inArgument _ ih => exact .inArgument ih
  | @inBody s a b hsp hsx h ih =>
    by_cases hs : s = r
    · rw [hs, mark_abs_same, ← hs]
      exact .inBody hsp hsx h
    · rw [mark_abs_of_ne hs]
      exact .inBody hsp hsx ih
  | inStuck _ ih => exact .inStuck ih

section

variable {value : Term} {target : Var} {scope scope' : List Var}

/-- A value without primes among its free variables is bound by nothing that has a prime. -/
theorem resolve_ne_bound (hvalue : ∀ w, value.Free w → w.depth = 0)
    (hscope : ∀ b ∈ scope, 0 < b.depth) (i : Nat) : value.resolve scope ≠ .bound i := by
  cases value with
  | var v =>
    have hv := Var.not_mem_of_depth_zero hscope (hvalue v rfl)
    rw [resolve, resolveVar_of_not_mem hv]
    intro h
    cases h
  | _ =>
    intro h
    cases h

/-- Where the one term has an occurrence that the scope binds and the other has the target, the
substitution puts the value there, and the occurrence is lost. -/
theorem Meets.resolve_ne {p : Var} {a b : Term} (h : Meets p target a b) (hp : p ∈ scope)
    (hvalue : ∀ w, value.Free w → w.depth = 0) (hscope : ∀ b ∈ scope', 0 < b.depth)
    (u : Nameless) :
    (b.substitute target value).resolve scope' ≠ (a.resolve scope).replace target u := by
  -- On the first term, since each abstraction on the way marks the second one further.
  induction a generalizing b scope scope' with
  | var v =>
    cases h
    obtain ⟨i, hi⟩ := resolveVar_of_mem hp
    rw [substitute_var, if_pos rfl, resolve, hi, Nameless.replace]
    exact resolve_ne_bound hvalue hscope i
  | app f a ihf iha =>
    cases h with
    | inFunction h =>
      rw [substitute_app]
      exact fun heq => ihf h hp hscope (Nameless.app.inj heq).1
    | inArgument h =>
      rw [substitute_app]
      exact fun heq => iha h hp hscope (Nameless.app.inj heq).2
  | abs r a ih =>
    cases h with
    | inBody hrp hrt h =>
      rw [substitute_abs_of_ne (Ne.symm hrt)]
      intro heq
      have hbody := Nameless.abs.inj heq
      exact ih (h.mark hrt) (List.mem_cons_of_mem r hp) (Var.depth_pos_of_mem_cons hscope r) hbody
  | stuck a ih =>
    cases h with
    | inStuck h =>
      rw [substitute_stuck]
      exact fun heq => ih h hp hscope (Nameless.stuck.inj heq)

/-- With a clash, to substitute is not to replace in the nameless term. -/
theorem resolve_substitute_ne {base : Term} (hs : Spaced target base) (hc : base.Clashes target)
    (hvalue : ∀ w, value.Free w → w.depth = 0) (hscope : ∀ b ∈ scope', 0 < b.depth)
    (u : Nameless) :
    (base.substitute target value).resolve scope' ≠ (base.resolve scope).replace target u := by
  induction base using substitute_induction target generalizing scope scope' with
  | var v => cases hc
  | app f a ihf iha =>
    rw [substitute_app]
    rcases hc with hc | hc
    · exact fun heq => ihf (spaced_app hs).1 hc hscope (Nameless.app.inj heq).1
    · exact fun heq => iha (spaced_app hs).2 hc hscope (Nameless.app.inj heq).2
  | same b => exact absurd rfl hc.1
  | other p b hp ih =>
    rw [substitute_abs_of_ne hp]
    intro heq
    have hbody := Nameless.abs.inj heq
    have hscope := Var.depth_pos_of_mem_cons hscope p
    by_cases hpt : p.prime = target
    · subst hpt
      by_cases hfree : b.Free p
      · exact (meets_mark hfree hs.bound.1).resolve_ne List.mem_cons_self hvalue hscope u hbody
      · have hclash := hc.2.resolve_left fun h => hfree h.2
        have hspaced := hs.body
        rw [mark_of_not_free hfree] at ih hspaced hbody
        exact ih hspaced hclash hscope hbody
    · have hclash := (clashes_mark hs.bound.1).2 (hc.2.resolve_left fun h => hpt h.1)
      rw [← resolve_mark_body (hs.not_free_prime hpt) hs.bound.1] at hbody
      exact ih hs.body hclash hscope hbody
  | stuck t ih =>
    rw [substitute_stuck]
    exact fun heq => ih ⟨hs.free, hs.bound⟩ hc hscope (Nameless.stuck.inj heq)

end

/-- Where the binders have room and the value has no primes among its free variables, a reduction
is that of the textbook, up to names, exactly when nothing clashes. -/
theorem substitute_alpha_iff {base value : Term} {target : Var} (hs : Spaced target base)
    (hvalue : ∀ w, value.Free w → w.depth = 0) :
    (base.substitute target value).Alpha (Textbook.substitute base target value) ↔
      ¬ base.Clashes target := by
  unfold Alpha
  rw [textbook_substitute_resolve]
  constructor
  · exact fun halpha hc => resolve_substitute_ne hs hc hvalue (by simp) _ halpha
  · intro hc
    have hunder : ∀ q : Var, value.Free q.prime → ¬ base.FreeUnder target q :=
      fun q hq => absurd (hvalue q.prime hq) (Nat.succ_ne_zero _)
    exact resolve_substitute ⟨hs, hc, hunder, fun w _ _ => rfl, by simp, by simp⟩

/-! ## With fresh primes -/

section

variable {base value : Term} {target : Var}

theorem not_clashes_of_everyAbs (h : base.EveryAbs fun p _ => p.prime ≠ target) :
    ¬ base.Clashes target := by
  intro hc
  induction base with
  | var v => exact hc
  | app f a ihf iha => exact hc.elim (ihf h.1) (iha h.2)
  | abs p b ih => exact hc.2.elim (fun hp => h.1 hp.1) (ih h.2)
  | stuck t ih => exact ih h hc

/-- Fresh primes are room enough, and they neither clash nor capture from the value. -/
theorem FreshPrimes.fits (h : FreshPrimes target value base) : Fits target value [] [] base := by
  refine ⟨⟨fun q _ hu => ?_, ?_⟩, ?_, fun q hq hu => ?_, fun w _ _ => rfl, by simp, by simp⟩
  · obtain ⟨b, hb, hfree⟩ := h.of_freeUnder hu
    exact hb.2.1 hfree
  · exact h.imp fun p b hp => hp.2.2.2
  · exact not_clashes_of_everyAbs (h.imp fun p b hp => hp.1)
  · obtain ⟨b, hb, -⟩ := h.of_freeUnder hu
    exact hb.2.2.1 hq

/-- In terms without primes the first prime is fresh, whatever letters they share. -/
theorem freshPrimes_of_letters (hbase : ∀ v ∈ base.vars, v.depth = 0) (ht : target.depth = 0)
    (hvalue : ∀ v ∈ value.vars, v.depth = 0) : FreshPrimes target value base := by
  refine everyAbs_of_vars (fun p b _ hb => ⟨?_, fun h => ?_, fun h => ?_, fun h => ?_⟩) hbase
  · exact Var.prime_ne_of_depth_zero ht p
  · exact Var.prime_ne_of_depth_zero (hb _ h.mem_vars) p rfl
  · exact Var.prime_ne_of_depth_zero (hvalue _ h.mem_vars) p rfl
  · exact Var.prime_ne_of_depth_zero (hb _ h.mem_vars) p rfl

end

/-! ## The law -/

/-- Where the primes are fresh, substitution is that of the textbook, up to names and with every
stuck node in its place. They are fresh in terms without primes. -/
theorem fresh_primes_capture_nothing (base : Term) (target : Var) (value : Term) :
    (FreshPrimes target value base →
      (base.substitute target value).Alpha (Textbook.substitute base target value)) ∧
    ((∀ v ∈ base.vars, v.depth = 0) → target.depth = 0 → (∀ v ∈ value.vars, v.depth = 0) →
      FreshPrimes target value base) := by
  refine ⟨fun h => ?_, freshPrimes_of_letters⟩
  unfold Alpha
  rw [textbook_substitute_resolve]
  exact resolve_substitute h.fits

/-- `λx.λx'.[t x']` with `x` for `t`, which goes under two abstractions that gain a prime each, and
`λx.[t x]` with the same, where nothing has a prime before. -/
theorem a_letter_goes_under_its_own_binders :
    FreshPrimes (.letter .t) (letter .x)
        (lam .x (abs (Var.letter .x).prime ((letter .t).app (var (Var.letter .x).prime)))) ∧
      ((lam .x (abs (Var.letter .x).prime
        ((letter .t).app (var (Var.letter .x).prime)))).substitute (.letter .t) (letter .x)).Alpha
          (Textbook.substitute (lam .x (abs (Var.letter .x).prime
            ((letter .t).app (var (Var.letter .x).prime)))) (.letter .t) (letter .x)) ∧
      (∀ v ∈ (lam .x ((letter .t).app (letter .x))).vars, v.depth = 0) ∧
      (∀ v ∈ (letter .x).vars, v.depth = 0) ∧
      FreshPrimes (.letter .t) (letter .x) (lam .x ((letter .t).app (letter .x))) := by
  have hfresh : FreshPrimes (.letter .t) (letter .x)
      (lam .x (abs (Var.letter .x).prime ((letter .t).app (var (Var.letter .x).prime)))) := by
    decide
  have hbase : ∀ v ∈ (lam .x ((letter .t).app (letter .x))).vars, v.depth = 0 := by decide
  have hvalue : ∀ v ∈ (letter .x).vars, v.depth = 0 := by decide
  have halpha := (fresh_primes_capture_nothing _ _ _).1 hfresh
  exact ⟨hfresh, halpha, hbase, hvalue,
    (fresh_primes_capture_nothing _ _ _).2 hbase rfl hvalue⟩

end PrimedLambda.Term
