-- Where the prime that a binder gains is already taken. A substitution for a
-- primed variable meets an abstraction over the variable with one prime less,
-- primes it, and then takes what it binds for its own target. Where every
-- prime is fresh that cannot happen. A run is free of clashes when none of
-- its reductions substitutes like that. It is set beside the run of the same
-- term with the substitution of the textbook.
import PrimedLambda.Machine
import PrimedLambda.Nameless
import PrimedLambda.Textbook

namespace PrimedLambda.Term

/-! ## Clashes -/

/-- Outside the abstractions over the target, the term has an abstraction whose parameter is the
target with one prime more, and the parameter has a free occurrence in the body. -/
def Clashes (target : Var) : Term → Prop
  | .var _ => False
  | .app f a => f.Clashes target ∨ a.Clashes target
  | .abs p b => p ≠ target ∧ (p.prime = target ∧ b.Free p ∨ b.Clashes target)
  | .stuck t => t.Clashes target

instance decidableClashes (target : Var) : (t : Term) → Decidable (t.Clashes target)
  | .var _ => inferInstanceAs (Decidable False)
  | .app f a =>
    let _ := decidableClashes target f
    let _ := decidableClashes target a
    inferInstanceAs (Decidable (f.Clashes target ∨ a.Clashes target))
  | .abs p b =>
    let _ := decidableClashes target b
    inferInstanceAs (Decidable (p ≠ target ∧ (p.prime = target ∧ b.Free p ∨ b.Clashes target)))
  | .stuck t => decidableClashes target t

/-- Each abstraction can gain its prime: the primed parameter is not the target, it is free neither
in the body nor in the value, and no abstraction over it stands between the parameter and what it
binds. -/
def FreshPrimes (target : Var) (value base : Term) : Prop :=
  base.EveryAbs fun p b =>
    p.prime ≠ target ∧ ¬ b.Free p.prime ∧ ¬ value.Free p.prime ∧ ¬ b.FreeUnder p p.prime

instance (target : Var) (value base : Term) : Decidable (FreshPrimes target value base) :=
  inferInstanceAs (Decidable (base.EveryAbs fun p b =>
    p.prime ≠ target ∧ ¬ b.Free p.prime ∧ ¬ value.Free p.prime ∧ ¬ b.FreeUnder p p.prime))

/-- None of the first `n` reductions of the term substitutes into a body that clashes. -/
def ClashFree (t : Term) (n : Nat) : Prop :=
  ∀ k u p b a, k < n → t.Steps k u → u.Contracts p b a → ¬ b.Clashes p

/-! ## Beside the textbook -/

/-- One step of evaluation with the substitution of the textbook. -/
abbrev TextbookStep := StepBy Textbook.applyTo

/-- The run of `t` and its run by the textbook are at `u` and at `w` after the same number of steps,
of which the first counts `k` as reductions. -/
inductive Beside (t : Term) : Nat → Term → Term → Prop where
  | start : Beside t 0 t t
  | next {k c d : Nat} {u u' w w' : Term} :
    Beside t k u w → u.Step c u' → w.TextbookStep d w' → Beside t (k + c) u' w'

/-- Both evaluations give the same value up to names, or both fail in the same way. -/
def SameOutcome : Except OutOfFuel Term → Except OutOfFuel Term → Prop
  | .ok v, .ok w => v.Alpha w
  | .error e, .error e' => e = e'
  | _, _ => False

end PrimedLambda.Term
