-- Terms of the calculus and their two written forms. The short form is the
-- one a reader sees and says nothing of stuckness. The long form names every
-- constructor.
import PrimedLambda.Var

namespace PrimedLambda

/-- A lambda term. `stuck` holds an application that a variable heads, and so can never reduce. -/
inductive Term where
  | var (v : Var)
  | app (fn arg : Term)
  | abs (param : Var) (body : Term)
  | stuck (inner : Term)
  deriving DecidableEq

namespace Term

/-! ## Building terms -/

/-- The occurrence of a bare letter. -/
def letter (l : Letter) : Term := .var (.letter l)

/-- An abstraction over a bare letter. -/
def lam (l : Letter) (body : Term) : Term := .abs (.letter l) body

/-- The head applied to each argument in turn, so the application nests to the left. -/
def applyAll (head : Term) (args : List Term) : Term := args.foldl .app head

/-- One abstraction for each parameter, the first outermost. -/
def absAll (params : List Var) (body : Term) : Term := params.foldr .abs body

@[simp] theorem applyAll_nil (head : Term) : head.applyAll [] = head := rfl

@[simp] theorem applyAll_cons (head arg : Term) (args : List Term) :
    head.applyAll (arg :: args) = (head.app arg).applyAll args := rfl

/-! ## Kinds of term -/

/-- A value is anything but an application. -/
def isValue : Term → Bool
  | .app _ _ => false
  | _ => true

/-- Whether the term is a stuck node. -/
def isStuck : Term → Bool
  | .stuck _ => true
  | _ => false

/-- The number of nodes. -/
def size : Term → Nat
  | .var _ => 1
  | .app f a => f.size + a.size + 1
  | .abs _ b => b.size + 1
  | .stuck t => t.size + 1

/-! ## Written forms -/

/-- The short form: `[f a]` for an application, `(λp.b)` for an abstraction, and nothing for a
stuck node but its content. -/
def render : Term → String
  | .var v => v.text
  | .app f a => "[" ++ f.render ++ " " ++ a.render ++ "]"
  | .abs p b => "(λ" ++ p.text ++ "." ++ b.render ++ ")"
  | .stuck t => t.render

/-- The long form, in which a stuck node shows. -/
def longText : Term → String
  | .var v => "Var(" ++ v.longText ++ ")"
  | .app f a => "Apply(" ++ f.longText ++ ", " ++ a.longText ++ ")"
  | .abs p b => "Abs(" ++ p.longText ++ ", " ++ b.longText ++ ")"
  | .stuck t => "Stuck(" ++ t.longText ++ ")"

end Term

end PrimedLambda
