-- What a stuck node of an evaluated term holds: a free variable of the term
-- with its arguments, all of them values. The invariant is that every
-- abstraction around a stuck node has a prime on its parameter, while the
-- variable that heads the node has none. So no later reduction reaches it.
import PrimedLambda.Proofs.FreeVariables

namespace PrimedLambda.Term

/-! ## Spines -/

/-- A variable applied to one value or more, nested to the left. -/
inductive Spine (head : Var) : Term → Prop where
  | first {a : Term} : a.isValue = true → Spine head (.app (.var head) a)
  | next {f a : Term} : Spine head f → a.isValue = true → Spine head (.app f a)

/-- Every stuck node has the property, which may speak of the binders around the node, the
nearest first. -/
def EveryStuck (P : List Var → Term → Prop) (binders : List Var) : Term → Prop
  | .var _ => True
  | .app f a => f.EveryStuck P binders ∧ a.EveryStuck P binders
  | .abs p b => b.EveryStuck P (p :: binders)
  | .stuck t => P binders t ∧ t.EveryStuck P binders

/-- To mark another variable keeps the head of a spine. -/
theorem Spine.mark {x p : Var} {t : Term} (h : Spine x t) (hx : x ≠ p) : Spine x (t.mark p) := by
  induction h with
  | first ha =>
    simp only [Term.mark, Var.same_iff, if_neg (Ne.symm hx)]
    exact .first (by rwa [isValue_mark])
  | next _ ha ih => exact .next ih (by rwa [isValue_mark])

/-- To substitute for another variable keeps the head of a spine. -/
theorem Spine.substitute {x target : Var} {t value : Term} (h : Spine x t) (hx : x ≠ target)
    (hv : value.isValue = true) : Spine x (t.substitute target value) := by
  induction h with
  | first ha =>
    rw [substitute_app, substitute_var, if_neg (Ne.symm hx)]
    exact .first (isValue_substitute target ha hv)
  | next _ ha ih =>
    rw [substitute_app]
    exact .next ih (isValue_substitute target ha hv)

theorem Spine.not_isValue {x : Var} {t : Term} (h : Spine x t) : t.isValue = false := by
  cases h <;> rfl

/-- Nothing is left to reduce in a spine. -/
theorem Spine.not_contracts {x : Var} {t : Term} (h : Spine x t) (p : Var) (b a : Term) :
    ¬ t.Contracts p b a := by
  intro hc
  induction h with
  | first ha =>
    cases hc with
    | inFunction hf => cases hf
    | inArgument _ harg => simp [harg.not_isValue] at ha
  | next hs ha ih =>
    cases hc with
    | inFunction hf => exact ih hf
    | inArgument hf _ => simp [hs.not_isValue] at hf
    | here _ => cases hs

/-! ## The invariant -/

theorem EveryStuck.imp {P Q : List Var → Term → Prop} (hpq : ∀ binders s, P binders s → Q binders s)
    {t : Term} {binders : List Var} (h : t.EveryStuck P binders) : t.EveryStuck Q binders := by
  induction t generalizing binders with
  | var v => trivial
  | app f a ihf iha => exact ⟨ihf h.1, iha h.2⟩
  | abs p b ih => exact ih h
  | stuck s ih => exact ⟨hpq _ _ h.1, ih h.2⟩

theorem everyStuck_of_unstuck {t : Term} (h : t.Unstuck) (P : List Var → Term → Prop)
    (binders : List Var) : t.EveryStuck P binders := by
  induction t generalizing binders with
  | var v => trivial
  | app f a ihf iha => exact ⟨ihf h.1 binders, iha h.2 binders⟩
  | abs p b ih => exact ih h (p :: binders)
  | stuck s ih => cases h

/-- The content of a stuck node is a spine on one of the heads, and every binder around the node
has a prime. -/
def Settled (heads : Var → Prop) (binders : List Var) (s : Term) : Prop :=
  (∀ b ∈ binders, 0 < b.depth) ∧ ∃ x, heads x ∧ Spine x s

section

variable {heads : Var → Prop} {scope scope' : List Var} {t : Term}

/-- More binders around the term are no harm when they have a prime. -/
theorem settled_mono (hscope : ∀ b ∈ scope', b ∈ scope ∨ 0 < b.depth)
    (h : t.EveryStuck (Settled heads) scope) : t.EveryStuck (Settled heads) scope' := by
  induction t generalizing scope scope' with
  | var v => trivial
  | app f a ihf iha => exact ⟨ihf hscope h.1, iha hscope h.2⟩
  | abs p b ih =>
    have hbody : b.EveryStuck (Settled heads) (p :: scope) := h
    refine ih (fun c hc => ?_) hbody
    rcases List.mem_cons.1 hc with rfl | hc
    · exact .inl List.mem_cons_self
    · exact (hscope c hc).imp_left (List.mem_cons_of_mem p)
  | stuck s ih =>
    obtain ⟨⟨hprimed, hspine⟩, hs⟩ := h
    exact ⟨⟨fun b hb => (hscope b hb).elim (hprimed b) id, hspine⟩, ih hscope hs⟩

variable (hheads : ∀ x, heads x → x.depth = 0)

include hheads

/-- To mark the parameter of an abstraction around the term keeps the invariant, since such a
parameter heads no stuck node. -/
theorem settled_mark {p : Var} (hp : p ∈ scope) (h : t.EveryStuck (Settled heads) scope) :
    (t.mark p).EveryStuck (Settled heads) scope := by
  induction t generalizing scope with
  | var v => trivial
  | app f a ihf iha => exact ⟨ihf hp h.1, iha hp h.2⟩
  | abs r b ih =>
    by_cases hr : r = p
    · rwa [hr, mark_abs_same, ← hr]
    · rw [mark_abs_of_ne hr]
      exact ih (List.mem_cons_of_mem r hp) h
  | stuck s ih =>
    obtain ⟨⟨hprimed, x, hx, hspine⟩, hs⟩ := h
    have hmem := Var.not_mem_of_depth_zero hprimed (hheads x hx)
    have hxp : x ≠ p := fun h => hmem (h ▸ hp)
    exact ⟨⟨hprimed, x, hx, hspine.mark hxp⟩, ih hp hs⟩

/-- To substitute a value for the parameter of an abstraction around the term keeps the invariant:
each binder on the way to a place where the value goes in gains a prime. -/
theorem settled_substitute {value : Term} {target : Var} (htarget : target ∈ scope)
    (hprimed : ∀ b ∈ scope', 0 < b.depth) (hv : value.isValue = true)
    (hvalue : value.EveryStuck (Settled heads) []) (h : t.EveryStuck (Settled heads) scope) :
    (t.substitute target value).EveryStuck (Settled heads) scope' := by
  induction t using substitute_induction target generalizing scope scope' with
  | var v =>
    rw [substitute_var]
    split
    · exact settled_mono (fun b hb => .inr (hprimed b hb)) hvalue
    · trivial
  | app f a ihf iha =>
    rw [substitute_app]
    exact ⟨ihf htarget hprimed h.1, iha htarget hprimed h.2⟩
  | same b =>
    rw [substitute_abs_same]
    exact settled_mono (t := .abs target b) (fun b hb => .inr (hprimed b hb)) h
  | other p b hp ih =>
    have hbody : b.EveryStuck (Settled heads) (p :: scope) := h
    rw [substitute_abs_of_ne hp]
    have hmarked := settled_mark hheads List.mem_cons_self hbody
    exact ih (List.mem_cons_of_mem p htarget) (Var.depth_pos_of_mem_cons hprimed p) hmarked
  | stuck s ih =>
    obtain ⟨⟨hscope, x, hx, hspine⟩, hs⟩ := h
    have hmem := Var.not_mem_of_depth_zero hscope (hheads x hx)
    have hxt : x ≠ target := fun h => hmem (h ▸ htarget)
    rw [substitute_stuck]
    exact ⟨⟨hprimed, x, hx, hspine.substitute hxt hv⟩, ih htarget hprimed hs⟩

/-- A step keeps the invariant of a term whose free variables are among the heads. -/
theorem settled_of_step {u : Term} {c : Nat} (hstep : t.Step c u) (hfree : ∀ w, t.Free w → heads w)
    (h : t.EveryStuck (Settled heads) []) : u.EveryStuck (Settled heads) [] := by
  induction hstep with
  | inFunction _ ih => exact ⟨ih (fun w hw => hfree w (.inl hw)) h.1, h.2⟩
  | inArgument _ _ ih => exact ⟨h.1, ih (fun w hw => hfree w (.inr hw)) h.2⟩
  | @application f a hf ha =>
    cases f with
    | var v =>
      exact ⟨⟨by simp, v, hfree v (.inl rfl), .first ha⟩, trivial, h.2⟩
    | app g b => cases hf
    | abs p b =>
      have hbody : b.EveryStuck (Settled heads) [p] := h.1
      exact settled_substitute hheads List.mem_cons_self (by simp) ha h.2 hbody
    | stuck s =>
      obtain ⟨⟨⟨-, x, hx, hspine⟩, hs⟩, harg⟩ := h
      exact ⟨⟨by simp, x, hx, .next hspine ha⟩, hs, harg⟩

end

/-! ## The law -/

/-- What a stuck node holds, under the binders around it, in a value of the term `t`. -/
structure HoldsSpine (t : Term) (binders : List Var) (s : Term) : Prop where
  spine : ∃ x, x.depth = 0 ∧ t.Free x ∧ x ∉ binders ∧ Spine x s
  not_stuck : ∀ r, s ≠ .stuck r
  not_abs : ∀ p b, s ≠ .abs p b
  not_contracts : ∀ p b a, ¬ s.Contracts p b a

/-- In what a plain term evaluates to, every stuck node holds a free variable of the term, which is
a bare letter that no abstraction around the node binds, applied to values. So it holds neither a
stuck term nor an abstraction, and nothing in it is left to reduce. -/
theorem a_stuck_node_holds_a_spine {t v : Term} {n : Nat} (ht : t.Plain)
    (h : t.evaluateWithin n = .ok v) : v.EveryStuck (HoldsSpine t) [] := by
  have hplain : ∀ w, t.Free w → w.depth = 0 := fun w hw => ht.2 w hw.mem_vars
  obtain ⟨k, -, hs, -⟩ := steps_of_evaluateWithin h
  have hsettled : (∀ w, v.Free w → t.Free w) ∧ v.EveryStuck (Settled t.Free) [] := by
    refine hs.keeps (P := fun u => (∀ w, u.Free w → t.Free w) ∧ u.EveryStuck (Settled t.Free) [])
      (fun hstep hu => ⟨fun w hw => ?_, ?_⟩) ⟨fun w hw => hw, ?_⟩
    · exact hu.1 w (free_of_step hstep hw)
    · exact settled_of_step hplain hstep hu.1 hu.2
    · exact everyStuck_of_unstuck ht.1 _ _
  refine hsettled.2.imp ?_
  intro binders s ⟨hprimed, x, hx, hspine⟩
  have hxb := Var.not_mem_of_depth_zero hprimed (hplain x hx)
  refine ⟨⟨x, hplain x hx, hx, hxb, hspine⟩, fun r hr => ?_, fun p b hp => ?_, hspine.not_contracts⟩
  · rw [hr] at hspine
    cases hspine
  · rw [hp] at hspine
    cases hspine

/-- `[λx.λy.[x y] [f t]]`, where the stuck argument comes to stand under an abstraction. -/
theorem a_stuck_argument_goes_under_a_binder :
    ((lam .x (lam .y ((letter .x).app (letter .y)))).app ((letter .f).app (letter .t))).Plain ∧
      ((lam .x (lam .y ((letter .x).app (letter .y)))).app
        ((letter .f).app (letter .t))).evaluateWithin 1 =
          .ok (abs (Var.letter .y).prime
            (app (stuck ((letter .f).app (letter .t))) (var (Var.letter .y).prime))) ∧
      HoldsSpine ((lam .x (lam .y ((letter .x).app (letter .y)))).app ((letter .f).app (letter .t)))
        [(Var.letter .y).prime] ((letter .f).app (letter .t)) := by
  have hplain : ((lam .x (lam .y ((letter .x).app (letter .y)))).app
      ((letter .f).app (letter .t))).Plain := by decide
  have hrun : ((lam .x (lam .y ((letter .x).app (letter .y)))).app
      ((letter .f).app (letter .t))).evaluateWithin 1 =
        .ok (abs (Var.letter .y).prime
          (app (stuck ((letter .f).app (letter .t))) (var (Var.letter .y).prime))) := by cbv
  exact ⟨hplain, hrun, (a_stuck_node_holds_a_spine hplain hrun).1.1⟩

end PrimedLambda.Term
