-- What a value does with an argument, and the log of what happened. An
-- abstraction reduces. A variable gets stuck, and a stuck term takes the
-- argument in. Each case logs at most one event.
import PrimedLambda.Substitution

namespace PrimedLambda

/-! ## The log -/

/-- One record of the log of an evaluation: an abstraction is about to take its argument, a
variable met an argument, or a reduction was due and none of the limit was left. -/
inductive Event where
  | beta (param : Var) (argument : Term)
  | stuckOn (v : Var)
  | exhausted (limit : Nat)
  deriving DecidableEq

namespace Event

/-- The record as a line of the log, its level first. -/
def text : Event → String
  | .beta p a => "TRACE beta " ++ p.text ++ " := " ++ a.render
  | .stuckOn v => "TRACE stuck on " ++ v.text
  | .exhausted limit => "DEBUG fuel exhausted after " ++ toString limit ++ " beta reductions"

/-- Whether the record stands for a reduction. -/
def isBeta : Event → Bool
  | .beta _ _ => true
  | _ => false

end Event

/-! ## Applying a value -/

namespace Term

/-- The value applied to the argument: one reduction for an abstraction, a stuck application for
a variable, one more argument for a stuck term. An application as the value is only built upon. -/
def applyTo (value argument : Term) : Term :=
  match value with
  | .abs p b => b.substitute p argument
  | .var v => .stuck (.app (.var v) argument)
  | .stuck t => .stuck (.app t argument)
  | .app f a => .app (.app f a) argument

/-- What `applyTo` logs. -/
def applyLog (value argument : Term) : List Event :=
  match value with
  | .abs p _ => [.beta p argument]
  | .var v => [.stuckOn v]
  | _ => []

end Term

end PrimedLambda
