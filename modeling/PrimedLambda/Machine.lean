-- Evaluation one step at a time. The leftmost part that is an application
-- steps first, and a step that reduces an abstraction counts one. What a
-- value makes of its argument is a parameter. The laws here are that exactly
-- the applications have a step, and that they have one.
import PrimedLambda.Application

namespace PrimedLambda.Term

/-! ## Steps -/

/-- What the step that applies the value counts: one for an abstraction and nothing else. -/
def cost : Term → Nat
  | .abs _ _ => 1
  | _ => 0

/-- One step, with its count of reductions. A value makes `apply f a` of its argument. -/
inductive StepBy (apply : Term → Term → Term) : Term → Nat → Term → Prop where
  | inFunction {f f' a : Term} {n : Nat} :
    StepBy apply f n f' → StepBy apply (app f a) n (app f' a)
  | inArgument {f a a' : Term} {n : Nat} :
    f.isValue = true → StepBy apply a n a' → StepBy apply (app f a) n (app f a')
  | application {f a : Term} :
    f.isValue = true → a.isValue = true → StepBy apply (app f a) f.cost (apply f a)

/-- Steps in a row, with the count of their reductions. -/
inductive StepsBy (apply : Term → Term → Term) : Term → Nat → Term → Prop where
  | none (t : Term) : StepsBy apply t 0 t
  | more {a b c : Term} {m n : Nat} :
    StepBy apply a m b → StepsBy apply b n c → StepsBy apply a (m + n) c

/-- One step of evaluation. -/
abbrev Step := StepBy applyTo

/-- Steps of evaluation in a row. -/
abbrev Steps := StepsBy applyTo

/-- The next step of the term reduces the abstraction over `p` with body `b`, applied to `a`. -/
inductive Contracts : Term → Var → Term → Term → Prop where
  | inFunction {f g : Term} {p : Var} {b a : Term} :
    f.Contracts p b a → (app f g).Contracts p b a
  | inArgument {f g : Term} {p : Var} {b a : Term} :
    f.isValue = true → g.Contracts p b a → (app f g).Contracts p b a
  | here {p : Var} {b a : Term} : a.isValue = true → (app (abs p b) a).Contracts p b a

/-! ## Exactly the applications have a step -/

section

variable {apply : Term → Term → Term}

theorem StepBy.not_isValue {t u : Term} {n : Nat} (h : StepBy apply t n u) :
    t.isValue = false := by
  cases h <;> rfl

theorem Contracts.not_isValue {t b a : Term} {p : Var} (h : t.Contracts p b a) :
    t.isValue = false := by
  cases h <;> rfl

/-- An application always has a step. -/
theorem stepBy_of_not_isValue (apply : Term → Term → Term) {t : Term} (h : t.isValue = false) :
    ∃ n u, StepBy apply t n u := by
  induction t with
  | var v => cases h
  | abs p b => cases h
  | stuck t => cases h
  | app f a ihf iha =>
    by_cases hf : f.isValue = true
    · by_cases ha : a.isValue = true
      · exact ⟨_, _, .application hf ha⟩
      · obtain ⟨n, a', hs⟩ := iha (by simpa using ha)
        exact ⟨n, _, .inArgument hf hs⟩
    · obtain ⟨n, f', hs⟩ := ihf (by simpa using hf)
      exact ⟨n, _, .inFunction hs⟩

/-- A term has at most one step. -/
theorem StepBy.unique {t u w : Term} {m n : Nat} (hu : StepBy apply t m u)
    (hw : StepBy apply t n w) : m = n ∧ u = w := by
  induction hu generalizing n w with
  | inFunction h ih =>
    cases hw with
    | inFunction h' =>
      obtain ⟨rfl, rfl⟩ := ih h'
      exact ⟨rfl, rfl⟩
    | inArgument hf _ => simp [h.not_isValue] at hf
    | application hf _ => simp [h.not_isValue] at hf
  | inArgument hf h ih =>
    cases hw with
    | inFunction h' => simp [h'.not_isValue] at hf
    | inArgument _ h' =>
      obtain ⟨rfl, rfl⟩ := ih h'
      exact ⟨rfl, rfl⟩
    | application _ ha => simp [h.not_isValue] at ha
  | application hf ha =>
    cases hw with
    | inFunction h' => simp [h'.not_isValue] at hf
    | inArgument _ h' => simp [h'.not_isValue] at ha
    | application _ _ => exact ⟨rfl, rfl⟩

/-! ## Steps in a row -/

theorem StepBy.single {t u : Term} {n : Nat} (h : StepBy apply t n u) : StepsBy apply t n u :=
  StepsBy.more h (.none u)

theorem StepsBy.cast {t u : Term} {m n : Nat} (h : StepsBy apply t m u) (hmn : m = n) :
    StepsBy apply t n u := by
  subst hmn
  exact h

theorem StepsBy.trans {a b c : Term} {m n : Nat} (hab : StepsBy apply a m b)
    (hbc : StepsBy apply b n c) : StepsBy apply a (m + n) c := by
  induction hab with
  | none => simpa using hbc
  | more h _ ih =>
    rw [Nat.add_assoc]
    exact .more h (ih hbc)

theorem StepsBy.inFunction {f f' : Term} {n : Nat} (h : StepsBy apply f n f') (a : Term) :
    StepsBy apply (app f a) n (app f' a) := by
  induction h with
  | none => exact .none _
  | more h _ ih => exact .more (.inFunction h) ih

theorem StepsBy.inArgument {f a a' : Term} {n : Nat} (hf : f.isValue = true)
    (h : StepsBy apply a n a') : StepsBy apply (app f a) n (app f a') := by
  induction h with
  | none => exact .none _
  | more h _ ih => exact .more (.inArgument hf h) ih

/-- What every step keeps, all steps in a row keep. -/
theorem StepsBy.keeps {P : Term → Prop} (hstep : ∀ {t n u}, StepBy apply t n u → P t → P u)
    {t u : Term} {n : Nat} (h : StepsBy apply t n u) (ht : P t) : P u := by
  induction h with
  | none => exact ht
  | more h _ ih => exact ih (hstep h ht)

end

end PrimedLambda.Term
