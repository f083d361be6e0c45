-- Which variables of a term are free, and which terms are closed or plain.
-- The law here is that a variable is free only if it occurs.
import PrimedLambda.Term

namespace PrimedLambda.Term

/-! ## Free variables -/

/-- The variable `v` has an occurrence that no abstraction over it encloses. -/
def Free (v : Var) : Term → Prop
  | .var w => w = v
  | .app f a => f.Free v ∨ a.Free v
  | .abs p b => p ≠ v ∧ b.Free v
  | .stuck t => t.Free v

/-- Freeness is decided by a walk over the term. -/
instance decidableFree (v : Var) : (t : Term) → Decidable (t.Free v)
  | .var w => inferInstanceAs (Decidable (w = v))
  | .app f a =>
    let _ := decidableFree v f
    let _ := decidableFree v a
    inferInstanceAs (Decidable (f.Free v ∨ a.Free v))
  | .abs p b =>
    let _ := decidableFree v b
    inferInstanceAs (Decidable (p ≠ v ∧ b.Free v))
  | .stuck t => decidableFree v t

/-- Every variable of the term, as a binder or as an occurrence. -/
def vars : Term → List Var
  | .var v => [v]
  | .app f a => f.vars ++ a.vars
  | .abs p b => p :: b.vars
  | .stuck t => t.vars

theorem Free.mem_vars {v : Var} {t : Term} (h : t.Free v) : v ∈ t.vars := by
  induction t with
  | var w => simp only [Free] at h; simp [vars, h]
  | app f a ihf iha =>
    rcases h with hf | ha
    · exact List.mem_append_left _ (ihf hf)
    · exact List.mem_append_right _ (iha ha)
  | abs p b ih => exact List.mem_cons_of_mem _ (ih h.2)
  | stuck t ih => exact ih h

/-! ## What an abstraction encloses -/

/-- Some free occurrence of `v` lies inside an abstraction over `q`. -/
def FreeUnder (v q : Var) : Term → Prop
  | .var _ => False
  | .app f a => f.FreeUnder v q ∨ a.FreeUnder v q
  | .abs p b => p ≠ v ∧ (p = q ∧ b.Free v ∨ b.FreeUnder v q)
  | .stuck t => t.FreeUnder v q

/-- Every abstraction in the term has the property of its parameter and its body. -/
def EveryAbs (P : Var → Term → Prop) : Term → Prop
  | .var _ => True
  | .app f a => f.EveryAbs P ∧ a.EveryAbs P
  | .abs p b => P p b ∧ b.EveryAbs P
  | .stuck t => t.EveryAbs P

instance decidableFreeUnder (v q : Var) : (t : Term) → Decidable (t.FreeUnder v q)
  | .var _ => inferInstanceAs (Decidable False)
  | .app f a =>
    let _ := decidableFreeUnder v q f
    let _ := decidableFreeUnder v q a
    inferInstanceAs (Decidable (f.FreeUnder v q ∨ a.FreeUnder v q))
  | .abs p b =>
    let _ := decidableFreeUnder v q b
    inferInstanceAs (Decidable (p ≠ v ∧ (p = q ∧ b.Free v ∨ b.FreeUnder v q)))
  | .stuck t => decidableFreeUnder v q t

instance decidableEveryAbs (P : Var → Term → Prop) [∀ p b, Decidable (P p b)] :
    (t : Term) → Decidable (t.EveryAbs P)
  | .var _ => inferInstanceAs (Decidable True)
  | .app f a =>
    let _ := decidableEveryAbs P f
    let _ := decidableEveryAbs P a
    inferInstanceAs (Decidable (f.EveryAbs P ∧ a.EveryAbs P))
  | .abs p b =>
    let _ := decidableEveryAbs P b
    inferInstanceAs (Decidable (P p b ∧ b.EveryAbs P))
  | .stuck t => decidableEveryAbs P t

theorem FreeUnder.free {v q : Var} {t : Term} (h : t.FreeUnder v q) : t.Free v := by
  induction t with
  | var w => cases h
  | app f a ihf iha => exact h.imp ihf iha
  | abs p b ih => exact ⟨h.1, h.2.elim (·.2) ih⟩
  | stuck t ih => exact ih h

/-- An abstraction encloses no free occurrence of its own parameter. -/
theorem not_freeUnder_self (v : Var) (t : Term) : ¬ t.FreeUnder v v := by
  induction t with
  | var w => exact id
  | app f a ihf iha => exact fun h => h.elim ihf iha
  | abs p b ih => exact fun h => h.2.elim (fun hp => h.1 hp.1) ih
  | stuck t ih => exact ih

theorem FreeUnder.mem_vars {t : Term} {v q : Var} (h : t.FreeUnder v q) : q ∈ t.vars := by
  induction t with
  | var w => cases h
  | app f a ihf iha =>
    rcases h with hf | ha
    · exact List.mem_append_left _ (ihf hf)
    · exact List.mem_append_right _ (iha ha)
  | abs p b ih =>
    rcases h.2 with ⟨rfl, _⟩ | hb
    · exact List.mem_cons_self
    · exact List.mem_cons_of_mem p (ih hb)
  | stuck t ih => exact ih h

section

variable {P Q : Var → Term → Prop} {t : Term}

theorem EveryAbs.imp (hPQ : ∀ p b, P p b → Q p b) (h : t.EveryAbs P) : t.EveryAbs Q := by
  induction t with
  | var v => trivial
  | app f a ihf iha => exact ⟨ihf h.1, iha h.2⟩
  | abs p b ih => exact ⟨hPQ p b h.1, ih h.2⟩
  | stuck t ih => exact ih h

/-- What holds of every abstraction holds of the one that encloses an occurrence. -/
theorem EveryAbs.of_freeUnder {v q : Var} (h : t.EveryAbs P) (hu : t.FreeUnder v q) :
    ∃ b, P q b ∧ b.Free v := by
  induction t with
  | var w => cases hu
  | app f a ihf iha =>
    rcases hu with hf | ha
    · exact ihf h.1 hf
    · exact iha h.2 ha
  | abs p b ih =>
    rcases hu.2 with ⟨rfl, hb⟩ | hb
    · exact ⟨b, h.1, hb⟩
    · exact ih h.2 hb
  | stuck t ih => exact ih h hu

/-- A property of the variables of a term is one of those of each abstraction in it. -/
theorem everyAbs_of_vars {A : Var → Prop} (hP : ∀ p b, A p → (∀ v ∈ b.vars, A v) → P p b)
    (h : ∀ v ∈ t.vars, A v) : t.EveryAbs P := by
  induction t with
  | var v => trivial
  | app f a ihf iha =>
    obtain ⟨hf, ha⟩ := List.forall_mem_append.1 h
    exact ⟨ihf hf, iha ha⟩
  | abs p b ih =>
    obtain ⟨hp, hb⟩ := List.forall_mem_cons.1 h
    exact ⟨hP p b hp hb, ih hb⟩
  | stuck t ih => exact ih h

end

/-! ## Closed and plain terms -/

/-- No variable is free. -/
def Closed (t : Term) : Prop := ∀ v, ¬ t.Free v

/-- No node is stuck. -/
def Unstuck : Term → Prop
  | .var _ => True
  | .app f a => f.Unstuck ∧ a.Unstuck
  | .abs _ b => b.Unstuck
  | .stuck _ => False

/-- A term as a reader would write it: no stuck node, and no prime anywhere. -/
def Plain (t : Term) : Prop := t.Unstuck ∧ ∀ v ∈ t.vars, v.depth = 0

/-- Only a variable of the term can be free in it, so a look at each of them decides. -/
instance decidableClosed (t : Term) : Decidable t.Closed :=
  decidable_of_iff (∀ v ∈ t.vars, ¬ t.Free v) ⟨fun h v hv => h v hv.mem_vars hv, fun h v _ => h v⟩

instance decidableUnstuck : (t : Term) → Decidable t.Unstuck
  | .var _ => inferInstanceAs (Decidable True)
  | .app f a =>
    let _ := decidableUnstuck f
    let _ := decidableUnstuck a
    inferInstanceAs (Decidable (f.Unstuck ∧ a.Unstuck))
  | .abs _ b => decidableUnstuck b
  | .stuck _ => inferInstanceAs (Decidable False)

instance decidablePlain (t : Term) : Decidable t.Plain :=
  inferInstanceAs (Decidable (t.Unstuck ∧ ∀ v ∈ t.vars, v.depth = 0))

end PrimedLambda.Term
