-- Terms read up to the names of their bound variables. Each occurrence is
-- resolved to the nearest abstraction over the same variable and is then a
-- number, the count of abstractions in between. Two terms are equal up to
-- renaming when they resolve to one nameless term.
import PrimedLambda.Term

namespace PrimedLambda

/-- A term whose bound variables have no names. -/
inductive Nameless where
  | free (v : Var)
  | bound (i : Nat)
  | app (fn arg : Nameless)
  | abs (body : Nameless)
  | stuck (inner : Nameless)
  deriving DecidableEq

namespace Nameless

/-- Puts `u` in the place of each free `v`. The value needs to have no loose numbers, and then
nothing of it can be captured. -/
def replace (t : Nameless) (v : Var) (u : Nameless) : Nameless :=
  match t with
  | .free w => if w = v then u else .free w
  | .bound i => .bound i
  | .app f a => .app (f.replace v u) (a.replace v u)
  | .abs b => .abs (b.replace v u)
  | .stuck t => .stuck (t.replace v u)

/-- Puts `u` in the place of the number that points past `k` abstractions. -/
def instantiate (t : Nameless) (k : Nat) (u : Nameless) : Nameless :=
  match t with
  | .free v => .free v
  | .bound i => if i = k then u else .bound i
  | .app f a => .app (f.instantiate k u) (a.instantiate k u)
  | .abs b => .abs (b.instantiate (k + 1) u)
  | .stuck t => .stuck (t.instantiate k u)

/-- Every number points to an abstraction, where `k` more are counted outside. -/
def ClosedAt (k : Nat) : Nameless → Prop
  | .free _ => True
  | .bound i => i < k
  | .app f a => f.ClosedAt k ∧ a.ClosedAt k
  | .abs b => b.ClosedAt (k + 1)
  | .stuck t => t.ClosedAt k

end Nameless

namespace Term

/-- The occurrence of a variable under the binders in scope, the nearest first. -/
def resolveVar (scope : List Var) (v : Var) : Nameless :=
  match scope.idxOf? v with
  | some i => .bound i
  | none => .free v

/-- The term without the names of its bound variables. -/
def resolve (scope : List Var) : Term → Nameless
  | .var v => resolveVar scope v
  | .app f a => .app (f.resolve scope) (a.resolve scope)
  | .abs p b => .abs (b.resolve (p :: scope))
  | .stuck t => .stuck (t.resolve scope)

/-- The terms are equal up to the names of bound variables. Stuck nodes count. -/
def Alpha (a b : Term) : Prop := a.resolve [] = b.resolve []

instance (a b : Term) : Decidable (a.Alpha b) :=
  inferInstanceAs (Decidable (a.resolve [] = b.resolve []))

theorem Alpha.refl (a : Term) : a.Alpha a := rfl

theorem Alpha.symm {a b : Term} (h : a.Alpha b) : b.Alpha a := Eq.symm h

theorem Alpha.trans {a b c : Term} (hab : a.Alpha b) (hbc : b.Alpha c) : a.Alpha c :=
  Eq.trans hab hbc

end Term

end PrimedLambda
