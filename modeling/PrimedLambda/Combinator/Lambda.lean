-- The lambda term that each combinator stands for, and reduction of lambda
-- terms at any place, against which the rules of application are measured.
import PrimedLambda.Combinator
import PrimedLambda.Nameless

namespace PrimedLambda

namespace Nameless

/-! ## Numbers that point past an abstraction -/

/-- The term with one more abstraction around it, where each number that points past `k`
abstractions points past that one too. -/
def lift (k : Nat) : Nameless → Nameless
  | .free v => .free v
  | .bound i => .bound (if i < k then i else i + 1)
  | .app f a => .app (f.lift k) (a.lift k)
  | .abs b => .abs (b.lift (k + 1))
  | .stuck t => .stuck (t.lift k)

/-- Puts `u` in the place of the number that points past `k` abstractions, and takes away the
abstraction it pointed to. The numbers that point further count one less. -/
def fill (t : Nameless) (k : Nat) (u : Nameless) : Nameless :=
  match t with
  | .free v => .free v
  | .bound i => if i < k then .bound i else if i = k then u else .bound (i - 1)
  | .app f a => .app (f.fill k u) (a.fill k u)
  | .abs b => .abs (b.fill (k + 1) (u.lift 0))
  | .stuck t => .stuck (t.fill k u)

theorem lift_of_closedAt {t : Nameless} {k : Nat} (h : t.ClosedAt k) : t.lift k = t := by
  induction t generalizing k with
  | free v => rfl
  | bound i =>
    have hi : i < k := h
    rw [lift, if_pos hi]
  | app f a ihf iha => rw [lift, ihf h.1, iha h.2]
  | abs b ih => rw [lift, ih h]
  | stuck t ih => rw [lift, ih h]

theorem instantiate_of_closedAt {t : Nameless} {k : Nat} (h : t.ClosedAt k) (u : Nameless) :
    t.instantiate k u = t := by
  induction t generalizing k with
  | free v => rfl
  | bound i => rw [instantiate, if_neg (Nat.ne_of_lt h)]
  | app f a ihf iha => rw [instantiate, ihf h.1, iha h.2]
  | abs b ih => rw [instantiate, ih h]
  | stuck t ih => rw [instantiate, ih h]

/-- Without loose numbers there is none to raise and none to lower. -/
theorem fill_of_closedAt {t u : Nameless} {k : Nat} (ht : t.ClosedAt (k + 1))
    (hu : u.ClosedAt 0) : t.fill k u = t.instantiate k u := by
  induction t generalizing k with
  | free v => rfl
  | bound i =>
    have hi : i < k + 1 := ht
    rw [fill, instantiate]
    by_cases heq : i = k
    · rw [if_neg (by omega), if_pos heq, if_pos heq]
    · rw [if_pos (by omega), if_neg heq]
  | app f a ihf iha => rw [fill, instantiate, ihf ht.1, iha ht.2]
  | abs b ih => rw [fill, instantiate, lift_of_closedAt hu, ih ht]
  | stuck t ih => rw [fill, instantiate, ih ht]

/-! ## Reduction -/

/-- One reduction of an abstraction, at any place in the term. -/
inductive Beta : Nameless → Nameless → Prop where
  | contract (b u : Nameless) : Beta (.app (.abs b) u) (b.fill 0 u)
  | inFunction {f f' : Nameless} (a : Nameless) : Beta f f' → Beta (.app f a) (.app f' a)
  | inArgument (f : Nameless) {a a' : Nameless} : Beta a a' → Beta (.app f a) (.app f a')
  | inBody {b b' : Nameless} : Beta b b' → Beta (.abs b) (.abs b')
  | inStuck {t t' : Nameless} : Beta t t' → Beta (.stuck t) (.stuck t')

/-- Any number of reductions, none included. -/
inductive Betas : Nameless → Nameless → Prop where
  | none (t : Nameless) : Betas t t
  | more {a b c : Nameless} : Beta a b → Betas b c → Betas a c

theorem Betas.trans {a b c : Nameless} (hab : Betas a b) (hbc : Betas b c) : Betas a c := by
  induction hab with
  | none => exact hbc
  | more h _ ih => exact .more h (ih hbc)

theorem Betas.inFunction {f f' : Nameless} (h : Betas f f') (a : Nameless) :
    Betas (.app f a) (.app f' a) := by
  induction h with
  | none f => exact .none _
  | more h _ ih => exact .more (.inFunction a h) ih

/-- Where nothing points past the abstraction, to contract is to fill its own number. -/
theorem beta_of_closedAt {b u : Nameless} (hb : b.ClosedAt 1) (hu : u.ClosedAt 0) :
    Beta (.app (.abs b) u) (b.instantiate 0 u) := by
  rw [← fill_of_closedAt hb hu]
  exact .contract b u

end Nameless

namespace Combinator

open Nameless (bound)

/-! ## The term of a combinator -/

/-- The lambda term of a combinator, where the free variable is `v`. A part that was taken in
has no loose numbers, so it can stand under a new abstraction as it is. -/
def lambda (v : Var) : Combinator → Nameless
  | .freeVar => .free v
  | .id => .abs (bound 0)
  | .constant c => .abs (c.lambda v)
  | .tru => .abs (.abs (bound 1))
  | .fls => .abs (.abs (bound 0))
  | .test => .abs (.abs (.abs (.app (.app (bound 2) (bound 1)) (bound 0))))
  | .testWith x => .abs (.abs (.app (.app (x.lambda v) (bound 1)) (bound 0)))
  | .testWithBoth x y => .abs (.app (.app (x.lambda v) (y.lambda v)) (bound 0))
  | .stuckApp f a => .app (f.lambda v) (a.lambda v)

theorem closedAt_lambda (v : Var) (c : Combinator) (k : Nat) : (c.lambda v).ClosedAt k := by
  induction c generalizing k with
  | freeVar => trivial
  | id => simp [lambda, Nameless.ClosedAt]
  | constant c ih => exact ih (k + 1)
  | tru => simp [lambda, Nameless.ClosedAt]
  | fls => simp [lambda, Nameless.ClosedAt]
  | test => simp [lambda, Nameless.ClosedAt]
  | testWith x ih => simp [lambda, Nameless.ClosedAt, ih]
  | testWithBoth x y ihx ihy => simp [lambda, Nameless.ClosedAt, ihx, ihy]
  | stuckApp f a ihf iha => exact ⟨ihf k, iha k⟩

/-! ## Well-formed combinators -/

/-- A free variable, or a stuck application. -/
def isNeutral : Combinator → Bool
  | .freeVar => true
  | .stuckApp _ _ => true
  | _ => false

/-- What every stuck application applies is a free variable or a stuck application. -/
def WellFormed : Combinator → Prop
  | .freeVar | .id | .tru | .fls | .test => True
  | .constant c => c.WellFormed
  | .testWith x => x.WellFormed
  | .testWithBoth x y => x.WellFormed ∧ y.WellFormed
  | .stuckApp f a => f.isNeutral = true ∧ f.WellFormed ∧ a.WellFormed

/-- Neither a free variable nor a stuck application stands anywhere. -/
def Pure : Combinator → Prop
  | .id | .tru | .fls | .test => True
  | .freeVar => False
  | .constant c => c.Pure
  | .testWith x => x.Pure
  | .testWithBoth x y => x.Pure ∧ y.Pure
  | .stuckApp _ _ => False

instance decidableWellFormed : (c : Combinator) → Decidable c.WellFormed
  | .freeVar | .id | .tru | .fls | .test => inferInstanceAs (Decidable True)
  | .constant c => decidableWellFormed c
  | .testWith x => decidableWellFormed x
  | .testWithBoth x y =>
    let _ := decidableWellFormed x
    let _ := decidableWellFormed y
    inferInstanceAs (Decidable (x.WellFormed ∧ y.WellFormed))
  | .stuckApp f a =>
    let _ := decidableWellFormed f
    let _ := decidableWellFormed a
    inferInstanceAs (Decidable (f.isNeutral = true ∧ f.WellFormed ∧ a.WellFormed))

instance decidablePure : (c : Combinator) → Decidable c.Pure
  | .id | .tru | .fls | .test => inferInstanceAs (Decidable True)
  | .freeVar => inferInstanceAs (Decidable False)
  | .constant c => decidablePure c
  | .testWith x => decidablePure x
  | .testWithBoth x y =>
    let _ := decidablePure x
    let _ := decidablePure y
    inferInstanceAs (Decidable (x.Pure ∧ y.Pure))
  | .stuckApp _ _ => inferInstanceAs (Decidable False)

end Combinator

end PrimedLambda
