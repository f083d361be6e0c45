-- A term without primes, and what it becomes as it is substituted into again
-- and again. Each substitution for a variable that is not free in it gives
-- every binder one more prime, and what the binder binds too, so the term
-- stays the same up to names. Only a clash spoils it, and nothing that is
-- substituted later mends it.
import Mathlib.Logic.Function.Basic
import PrimedLambda.Clash
import PrimedLambda.Proofs.Resolution

namespace PrimedLambda

open Function (update)
open Textbook (primed)

namespace Term

/-! ## Binders with the same number of primes -/

/-- The term with `n` primes on each binder and on what it binds. The free variables are as `names`
has them. -/
def primedTo (n : Nat) (names : Var → Var) : Term → Term
  | .var v => .var (names v)
  | .app f a => .app (f.primedTo n names) (a.primedTo n names)
  | .abs p b => .abs (primed p.base n) (b.primedTo n (update names p (primed p.base n)))
  | .stuck t => .stuck (t.primedTo n names)

/-- No variable is given another letter. -/
def KeepsLetters (names : Var → Var) : Prop := ∀ v, (names v).base = v.base

section

variable {names : Var → Var} {n : Nat} {p v : Var} {t b value : Term} {l : Letter}
  {k : Nat} {scope scope' : List Var}

theorem keepsLetters_id : KeepsLetters id := fun _ => rfl

theorem KeepsLetters.update (h : KeepsLetters names) (p : Var) (n : Nat) :
    KeepsLetters (update names p (primed p.base n)) := by
  intro v
  by_cases hv : v = p
  · rw [hv, Function.update_self, Textbook.base_primed]
  · rw [Function.update_of_ne hv, h v]

theorem KeepsLetters.ne_primed (h : KeepsLetters names) (hv : v.depth = 0) (hp : p.depth = 0)
    (hne : v ≠ p) (n : Nat) : names v ≠ primed p.base n := by
  intro heq
  have hbase := h v
  rw [heq, Textbook.base_primed] at hbase
  exact hne (Var.ext_base_depth hbase.symm (hv.trans hp.symm))

/-- A term without primes is its own form with no primes. -/
theorem primedTo_zero (ht : ∀ v ∈ t.vars, v.depth = 0) : t.primedTo 0 id = t := by
  induction t with
  | var v => rfl
  | app f a ihf iha =>
    obtain ⟨hlf, hla⟩ := List.forall_mem_append.1 ht
    rw [primedTo, ihf hlf, iha hla]
  | abs p b ih =>
    obtain ⟨hp, hb⟩ := List.forall_mem_cons.1 ht
    have hid : update id p p = (id : Var → Var) := Function.update_eq_self p id
    rw [primedTo, Textbook.primed_base_of_depth_zero hp, hid, ih hb]
  | stuck t ih => rw [primedTo, ih ht]

theorem isValue_primedTo : (t.primedTo n names).isValue = t.isValue := by
  cases t <;> rfl

/-- The primes do not show when each free variable stands for what it stood for. -/
theorem resolve_primedTo (ht : ∀ v ∈ t.vars, v.depth = 0) (hnames : KeepsLetters names)
    (h : ∀ v, t.Free v → resolveVar scope' (names v) = resolveVar scope v) :
    (t.primedTo n names).resolve scope' = t.resolve scope := by
  induction t generalizing names scope scope' with
  | var v => exact h v rfl
  | app f a ihf iha =>
    obtain ⟨hlf, hla⟩ := List.forall_mem_append.1 ht
    simp only [primedTo, resolve]
    rw [ihf hlf hnames fun v hv => h v (.inl hv), iha hla hnames fun v hv => h v (.inr hv)]
  | abs p b ih =>
    obtain ⟨hp, hb⟩ := List.forall_mem_cons.1 ht
    simp only [primedTo, resolve]
    refine congrArg _ (ih hb (hnames.update p n) fun v hv => ?_)
    by_cases hvp : v = p
    · rw [hvp, Function.update_self, resolveVar_cons_self, resolveVar_cons_self]
    · rw [Function.update_of_ne hvp]
      exact resolveVar_cons_congr (h v ⟨Ne.symm hvp, hv⟩)
        (hnames.ne_primed (hb v hv.mem_vars) hp hvp n) hvp
  | stuck t ih => simp only [primedTo, resolve, ih ht hnames h]

theorem alpha_primedTo (ht : ∀ v ∈ t.vars, v.depth = 0) (n : Nat) : (t.primedTo n id).Alpha t :=
  resolve_primedTo ht keepsLetters_id fun _ _ => rfl

/-! ## Entering an abstraction -/

theorem mark_prime_of_letters (ht : ∀ v ∈ t.vars, v.depth = 0) (p : Var) : t.mark p.prime = t :=
  mark_of_not_free fun h => Var.prime_ne_of_depth_zero (ht _ h.mem_vars) p rfl

/-- Marking a binder gives a prime to what it binds and to nothing else. -/
theorem mark_primedTo (ht : ∀ v ∈ t.vars, v.depth = 0) (hp : p.depth = 0)
    (hnames : KeepsLetters names) (hpn : names p = primed p.base n) :
    (t.primedTo n names).mark (primed p.base n) =
      t.primedTo n (update names p (primed p.base (n + 1))) := by
  induction t generalizing names with
  | var v =>
    by_cases hv : v = p
    · simp [primedTo, mark, hv, hpn, primed]
    · have hne := hnames.ne_primed (ht v List.mem_cons_self) hp hv n
      simp [primedTo, mark, hv, Ne.symm hne]
  | app f a ihf iha =>
    obtain ⟨hlf, hla⟩ := List.forall_mem_append.1 ht
    rw [primedTo, mark, primedTo, ihf hlf hnames hpn, iha hla hnames hpn]
  | abs r b ih =>
    obtain ⟨hr, hb⟩ := List.forall_mem_cons.1 ht
    by_cases hrp : r = p
    · rw [hrp, primedTo, mark_abs_same, primedTo, Function.update_idem]
    · have hne : primed r.base n ≠ primed p.base n := fun h =>
        hrp (Var.ext_base_depth (Textbook.primed_inj h).1 (hr.trans hp.symm))
      have hkept : update names r (primed r.base n) p = primed p.base n := by
        rw [Function.update_of_ne (Ne.symm hrp), hpn]
      rw [primedTo, mark_abs_of_ne hne, primedTo, ih hb (hnames.update r n) hkept,
        Function.update_comm hrp]
  | stuck t ih => rw [primedTo, mark, primedTo, ih ht hnames hpn]

/-- A substitution that enters an abstraction gives the binder and what it binds one more prime. -/
theorem substitute_primedTo_abs (ht : ∀ v ∈ (abs p b).vars, v.depth = 0)
    (hnames : KeepsLetters names) (hk : k ≠ n) :
    ((abs p b).primedTo n names).substitute (primed l k) value =
      abs (primed p.base (n + 1))
        ((b.primedTo n (update names p (primed p.base (n + 1)))).substitute (primed l k) value) := by
  obtain ⟨hp, hb⟩ := List.forall_mem_cons.1 ht
  have hne : primed l k ≠ primed p.base n := fun h => hk (Textbook.primed_inj h).2
  rw [primedTo, substitute_abs_of_ne hne, mark_primedTo hb hp (hnames.update p n)
    (Function.update_self ..), Function.update_idem]
  rfl

/-- A substitution for a variable that is not free, and that no binder is or comes to be, gives all
that is bound one more prime. -/
theorem substitute_primedTo (ht : ∀ v ∈ t.vars, v.depth = 0) (hnames : KeepsLetters names)
    (hk : k ≠ n) (hfree : ∀ v, t.Free v → names v ≠ primed l k)
    (hclash : k = n + 1 → ¬ t.Clashes (.prime (.letter l))) :
    (t.primedTo n names).substitute (primed l k) value = t.primedTo (n + 1) names := by
  -- Inside an abstraction that was entered, its variable has one prime more than the binders still
  -- to come. So it is free there under a name of its own, and `names` is not fixed.
  induction t generalizing names with
  | var v => rw [primedTo, substitute_var, if_neg (Ne.symm (hfree v rfl)), primedTo]
  | app f a ihf iha =>
    obtain ⟨hlf, hla⟩ := List.forall_mem_append.1 ht
    rw [primedTo, substitute_app, primedTo,
      ihf hlf hnames (fun v hv => hfree v (.inl hv)) fun hn hc => hclash hn (.inl hc),
      iha hla hnames (fun v hv => hfree v (.inr hv)) fun hn hc => hclash hn (.inr hc)]
  | abs p b ih =>
    obtain ⟨hp, hb⟩ := List.forall_mem_cons.1 ht
    have hpl : p ≠ .prime (.letter l) := Ne.symm (Var.prime_ne_of_depth_zero hp _)
    rw [substitute_primedTo_abs ht hnames hk, primedTo, ih hb (hnames.update p (n + 1))]
    · intro v hv
      by_cases hvp : v = p
      · subst hvp
        rw [Function.update_self]
        intro heq
        obtain ⟨hl, hn⟩ := Textbook.primed_inj heq
        have hletter : v = .letter l := Var.ext_base_depth hl hp
        exact hclash hn.symm ⟨hpl, .inl ⟨congrArg Var.prime hletter, hv⟩⟩
      · rw [Function.update_of_ne hvp]
        exact hfree v ⟨Ne.symm hvp, hv⟩
    · exact fun hn hc => hclash hn ⟨hpl, .inr hc⟩
  | stuck t ih => rw [primedTo, substitute_stuck, primedTo, ih ht hnames hfree hclash]

/-- Without primes nothing is free that has one. -/
theorem free_ne_primed (ht : ∀ v ∈ t.vars, v.depth = 0) (hpos : 0 < k) (v : Var) (hv : t.Free v) :
    id v ≠ primed l k := by
  intro heq
  have hdepth := ht v hv.mem_vars
  rw [show v = primed l k from heq, Textbook.depth_primed] at hdepth
  omega

theorem substitute_primedTo_succ (ht : ∀ v ∈ t.vars, v.depth = 0)
    (hclash : ¬ t.Clashes (.prime (.letter l))) :
    (t.primedTo n id).substitute (primed l (n + 1)) value = t.primedTo (n + 1) id :=
  substitute_primedTo ht keepsLetters_id (Nat.succ_ne_self n)
    (free_ne_primed ht (Nat.succ_pos n)) fun _ => hclash

/-- Only a target with one prime more than the binders can clash. -/
theorem substitute_primedTo_of_ne (ht : ∀ v ∈ t.vars, v.depth = 0) (hpos : 0 < k) (hk : k ≠ n)
    (hsucc : k ≠ n + 1) :
    (t.primedTo n id).substitute (primed l k) value = t.primedTo (n + 1) id :=
  substitute_primedTo ht keepsLetters_id hk (free_ne_primed ht hpos) fun h => absurd h hsucc

theorem substitute_of_letters (ht : ∀ v ∈ t.vars, v.depth = 0) (hk : 1 < k) :
    t.substitute (primed l k) value = t.primedTo 1 id := by
  have h : (t.primedTo 0 id).substitute (primed l k) value = t.primedTo 1 id :=
    substitute_primedTo_of_ne ht (by omega) (by omega) (by omega)
  rwa [primedTo_zero ht] at h

theorem substitute_of_not_clashes (ht : ∀ v ∈ t.vars, v.depth = 0)
    (hclash : ¬ t.Clashes (.prime (.letter l))) :
    t.substitute (primed l 1) value = t.primedTo 1 id := by
  have h : (t.primedTo 0 id).substitute (primed l 1) value = t.primedTo 1 id :=
    substitute_primedTo_succ ht hclash
  rwa [primedTo_zero ht] at h

end

/-! ## A lost occurrence -/

/-- At one place the nameless term has a number, and the term has something that no binder with a
prime can bind. On the way there the two have the same shape and each binder has a prime. -/
inductive Strays : Nameless → Term → Prop where
  | here {i : Nat} {t : Term} : (∀ v, t = .var v → v.depth = 0) → Strays (.bound i) t
  | inFunction {f a : Nameless} {g c : Term} : Strays f g → Strays (.app f a) (.app g c)
  | inArgument {f a : Nameless} {g c : Term} : Strays a c → Strays (.app f a) (.app g c)
  | inBody {p : Var} {b : Nameless} {d : Term} :
    0 < p.depth → Strays b d → Strays (.abs b) (.abs p d)
  | inStuck {s : Nameless} {t : Term} : Strays s t → Strays (.stuck s) (.stuck t)

section

variable {m : Nameless} {t value : Term} {target p v : Var} {scope : List Var}

theorem Strays.resolve_ne (h : Strays m t) (hscope : ∀ b ∈ scope, 0 < b.depth) :
    t.resolve scope ≠ m := by
  induction h generalizing scope with
  | @here i t ht =>
    intro heq
    cases t with
    | var v =>
      have hv := Var.not_mem_of_depth_zero hscope (ht v rfl)
      rw [resolve, resolveVar_of_not_mem hv] at heq
      cases heq
    | _ => cases heq
  | inFunction _ ih => exact fun heq => ih hscope (Nameless.app.inj heq).1
  | inArgument _ ih => exact fun heq => ih hscope (Nameless.app.inj heq).2
  | @inBody p b d hp _ ih =>
    intro heq
    exact ih (List.forall_mem_cons.2 ⟨hp, hscope⟩) (Nameless.abs.inj heq)
  | inStuck _ ih => exact fun heq => ih hscope (Nameless.stuck.inj heq)

theorem Strays.mark (h : Strays m t) (hp : 0 < p.depth) : Strays m (t.mark p) := by
  induction h with
  | @here i t ht =>
    refine .here fun v hv => ?_
    cases t with
    | var w =>
      have hpw : p ≠ w := fun heq => absurd (ht w rfl) (heq ▸ Nat.ne_of_gt hp)
      simp only [Term.mark, Var.same_iff, if_neg hpw] at hv
      exact ht v hv
    | abs r b =>
      simp only [Term.mark] at hv
      split at hv <;> cases hv
    | _ => cases hv
  | inFunction _ ih => exact .inFunction ih
  | inArgument _ ih => exact .inArgument ih
  | @inBody r b d hr hd ih =>
    by_cases hrp : r = p
    · rw [hrp, mark_abs_same, ← hrp]
      exact .inBody hr hd
    · rw [mark_abs_of_ne hrp]
      exact .inBody hr ih
  | inStuck _ ih => exact .inStuck ih

/-- No later substitution for a primed variable brings the occurrence back. -/
theorem Strays.substitute (h : Strays m t) (htarget : 0 < target.depth) :
    Strays m (t.substitute target value) := by
  induction t using substitute_induction target generalizing m with
  | var v =>
    cases h with
    | here hv =>
      have hne : target ≠ v := fun heq => absurd (hv v rfl) (heq ▸ Nat.ne_of_gt htarget)
      rw [substitute_var, if_neg hne]
      exact .here hv
  | app f a ihf iha =>
    rw [substitute_app]
    cases h with
    | here _ => exact .here fun v hv => by cases hv
    | inFunction h => exact .inFunction (ihf h)
    | inArgument h => exact .inArgument (iha h)
  | same b =>
    rw [substitute_abs_same]
    exact h
  | other p b hp ih =>
    rw [substitute_abs_of_ne hp]
    cases h with
    | here _ => exact .here fun v hv => by cases hv
    | inBody hp h => exact .inBody (Nat.succ_pos _) (ih (h.mark hp))
  | stuck t ih =>
    rw [substitute_stuck]
    cases h with
    | here _ => exact .here fun v hv => by cases hv
    | inStuck h => exact .inStuck (ih h)

variable {names : Var → Var} {l : Letter} {k n : Nat}

/-- Where the target is the name of an occurrence that is bound, the value takes its place. -/
theorem strays_of_free (ht : ∀ v ∈ t.vars, v.depth = 0) (hnames : KeepsLetters names)
    (hvalue : ∀ w, value = .var w → w.depth = 0) (hk : k ≠ n) (hfree : t.Free v)
    (hv : names v = primed l k) (hscope : v ∈ scope) :
    Strays (t.resolve scope) ((t.primedTo n names).substitute (primed l k) value) := by
  induction t generalizing names scope with
  | var w =>
    cases hfree
    obtain ⟨i, hi⟩ := resolveVar_of_mem hscope
    rw [primedTo, substitute_var, if_pos hv.symm, resolve, hi]
    exact .here hvalue
  | app f a ihf iha =>
    obtain ⟨hlf, hla⟩ := List.forall_mem_append.1 ht
    rw [primedTo, substitute_app]
    rcases hfree with hf | ha
    · exact .inFunction (ihf hlf hnames hf hv hscope)
    · exact .inArgument (iha hla hnames ha hv hscope)
  | abs r b ih =>
    obtain ⟨-, hb⟩ := List.forall_mem_cons.1 ht
    rw [substitute_primedTo_abs ht hnames hk]
    refine .inBody (Nat.succ_pos _) (ih hb (hnames.update r (n + 1)) hfree.2 ?_ ?_)
    · rw [Function.update_of_ne (Ne.symm hfree.1), hv]
    · exact List.mem_cons_of_mem r hscope
  | stuck t ih =>
    rw [primedTo, substitute_stuck]
    exact .inStuck (ih ht hnames hfree hv hscope)

/-- With a clash an occurrence is lost. -/
theorem strays_of_clashes (ht : ∀ v ∈ t.vars, v.depth = 0) (hnames : KeepsLetters names)
    (hvalue : ∀ w, value = .var w → w.depth = 0) (hc : t.Clashes (.prime (.letter l))) :
    Strays (t.resolve scope) ((t.primedTo n names).substitute (primed l (n + 1)) value) := by
  have hn : n + 1 ≠ n := Nat.succ_ne_self n
  induction t generalizing names scope with
  | var w => cases hc
  | app f a ihf iha =>
    obtain ⟨hlf, hla⟩ := List.forall_mem_append.1 ht
    rw [primedTo, substitute_app]
    rcases hc with hc | hc
    · exact .inFunction (ihf hlf hnames hc)
    · exact .inArgument (iha hla hnames hc)
  | abs p b ih =>
    obtain ⟨-, hb⟩ := List.forall_mem_cons.1 ht
    rw [substitute_primedTo_abs ht hnames hn]
    refine .inBody (Nat.succ_pos _) ?_
    rcases hc.2 with ⟨hpl, hfree⟩ | hc
    · cases hpl
      exact strays_of_free hb (hnames.update _ (n + 1)) hvalue hn hfree
        (Function.update_self ..) List.mem_cons_self
    · exact ih hb (hnames.update p (n + 1)) hc
  | stuck t ih =>
    rw [primedTo, substitute_stuck]
    exact .inStuck (ih ht hnames hc)

end

end Term

end PrimedLambda
