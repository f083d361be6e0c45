-- A few closed combinators that know by themselves what an argument turns
-- them into. The law behind their application is that it loses weight or
-- keeps it, where the weight counts every node but a stuck application. It is
-- why the nested rule of the full test ends.

namespace PrimedLambda

/-- A combinator, with the arguments it has taken so far. The test takes three. A constant gives
`c` for any argument, and a free variable keeps its arguments in stuck applications. -/
inductive Combinator where
  | freeVar
  | id
  | constant (c : Combinator)
  | tru
  | fls
  | test
  | testWith (x : Combinator)
  | testWithBoth (x y : Combinator)
  | stuckApp (fn arg : Combinator)
  deriving DecidableEq

namespace Combinator

/-! ## Measures -/

/-- The number of nodes. -/
def nodes : Combinator → Nat
  | .freeVar | .id | .tru | .fls | .test => 1
  | .constant c => c.nodes + 1
  | .testWith x => x.nodes + 1
  | .testWithBoth x y => x.nodes + y.nodes + 1
  | .stuckApp f a => f.nodes + a.nodes + 1

/-- The number of nodes that are not stuck applications. -/
def weight : Combinator → Nat
  | .freeVar | .id | .tru | .fls | .test => 1
  | .constant c => c.weight + 1
  | .testWith x => x.weight + 1
  | .testWithBoth x y => x.weight + y.weight + 1
  | .stuckApp f a => f.weight + a.weight

/-- The number of free variables. -/
def freeVars : Combinator → Nat
  | .freeVar => 1
  | .id | .tru | .fls | .test => 0
  | .constant c => c.freeVars
  | .testWith x => x.freeVars
  | .testWithBoth x y => x.freeVars + y.freeVars
  | .stuckApp f a => f.freeVars + a.freeVars

theorem weight_pos (c : Combinator) : 0 < c.weight := by
  induction c with
  | stuckApp f a ihf iha =>
    unfold weight
    omega
  | _ => simp [weight]

theorem weight_le_nodes (c : Combinator) : c.weight ≤ c.nodes := by
  induction c with
  | constant c ih => simpa [weight, nodes] using ih
  | testWith x ih => simpa [weight, nodes] using ih
  | testWithBoth x y ihx ihy =>
    simp only [weight, nodes]
    omega
  | stuckApp f a ihf iha =>
    simp only [weight, nodes]
    omega
  | _ => simp [weight, nodes]

/-! ## Application -/

/-- The combinator applied to an argument, with the proof that no weight is added. -/
def applyWeighed (c arg : Combinator) : { r : Combinator // r.weight ≤ c.weight + arg.weight } :=
  match c with
  | .freeVar => ⟨.stuckApp .freeVar arg, by simp [weight]⟩
  | .stuckApp f a => ⟨.stuckApp (.stuckApp f a) arg, by simp [weight]⟩
  | .id => ⟨arg, by omega⟩
  | .constant c => ⟨c, by simp only [weight]; omega⟩
  | .tru => ⟨.constant arg, by simp only [weight]; omega⟩
  | .fls => ⟨.id, by simp only [weight]; omega⟩
  | .test => ⟨.testWith arg, by simp only [weight]; omega⟩
  | .testWith x => ⟨.testWithBoth x arg, by simp only [weight]; omega⟩
  | .testWithBoth x y =>
    let ⟨inner, hinner⟩ := x.applyWeighed y
    let ⟨outer, houter⟩ := inner.applyWeighed arg
    ⟨outer, by simp only [weight]; omega⟩
termination_by c.weight
decreasing_by all_goals simp only [weight]; omega

/-- The combinator applied to an argument. -/
def apply (c arg : Combinator) : Combinator := (c.applyWeighed arg).val

/-- The combinator applied to each argument in turn. -/
def applyAll (c : Combinator) (args : List Combinator) : Combinator := args.foldl apply c

theorem weight_apply_le (c arg : Combinator) : (c.apply arg).weight ≤ c.weight + arg.weight :=
  (c.applyWeighed arg).property

/-! ## The rules -/

variable (arg : Combinator)

@[simp] theorem apply_freeVar : freeVar.apply arg = .stuckApp .freeVar arg := by
  simp [apply, applyWeighed]

@[simp] theorem apply_stuckApp (f a : Combinator) :
    (stuckApp f a).apply arg = .stuckApp (.stuckApp f a) arg := by
  simp [apply, applyWeighed]

@[simp] theorem apply_id : id.apply arg = arg := by simp [apply, applyWeighed]

@[simp] theorem apply_constant (c : Combinator) : (constant c).apply arg = c := by
  simp [apply, applyWeighed]

@[simp] theorem apply_tru : tru.apply arg = .constant arg := by simp [apply, applyWeighed]

@[simp] theorem apply_fls : fls.apply arg = .id := by simp [apply, applyWeighed]

@[simp] theorem apply_test : test.apply arg = .testWith arg := by simp [apply, applyWeighed]

@[simp] theorem apply_testWith (x : Combinator) : (testWith x).apply arg = .testWithBoth x arg := by
  simp [apply, applyWeighed]

@[simp] theorem apply_testWithBoth (x y : Combinator) :
    (testWithBoth x y).apply arg = (x.apply y).apply arg := by
  simp only [apply]
  rw [applyWeighed]

/-- Induction along an application. The full test applies its first argument to the second one,
and what comes of that to the third. -/
theorem apply_induction {P : Combinator → Combinator → Prop} (freeVar : ∀ arg, P .freeVar arg)
    (id : ∀ arg, P .id arg) (constant : ∀ c arg, P (.constant c) arg)
    (tru : ∀ arg, P .tru arg) (fls : ∀ arg, P .fls arg) (test : ∀ arg, P .test arg)
    (testWith : ∀ x arg, P (.testWith x) arg)
    (testWithBoth : ∀ x y arg, P x y → P (x.apply y) arg → P (.testWithBoth x y) arg)
    (stuckApp : ∀ f a arg, P (.stuckApp f a) arg) (c arg : Combinator) : P c arg := by
  induction hw : c.weight using Nat.strongRecOn generalizing c arg with
  | ind w ih =>
    subst hw
    cases c with
    | freeVar => exact freeVar arg
    | id => exact id arg
    | constant c => exact constant c arg
    | tru => exact tru arg
    | fls => exact fls arg
    | test => exact test arg
    | testWith x => exact testWith x arg
    | testWithBoth x y =>
      have hxy := weight_apply_le x y
      have hx : x.weight < (Combinator.testWithBoth x y).weight := by
        simp only [weight]
        omega
      have happly : (x.apply y).weight < (Combinator.testWithBoth x y).weight := by
        simp only [weight]
        omega
      exact testWithBoth x y arg (ih _ hx x y rfl) (ih _ happly (x.apply y) arg rfl)
    | stuckApp f a => exact stuckApp f a arg

/-! ## Written forms -/

/-- The lambda term that the combinator stands for, as it is read. -/
def text : Combinator → String
  | .freeVar => "v"
  | .id => "λx.x"
  | .constant c => "λx." ++ c.text
  | .tru => "λt.λf.t"
  | .fls => "λt.λf.f"
  | .test => "λx.λy.λz.(x y z)"
  | .testWith x => "λy.λz.(" ++ x.text ++ " y z)"
  | .testWithBoth x y => "λz.(" ++ x.text ++ " " ++ y.text ++ " z)"
  | .stuckApp f a => "(" ++ f.text ++ " " ++ a.text ++ ")"

/-- The long form, which names every node. -/
def longText : Combinator → String
  | .freeVar => "FreeVar"
  | .id => "Id"
  | .constant c => "Constant(" ++ c.longText ++ ")"
  | .tru => "Tru"
  | .fls => "Fls"
  | .test => "Test"
  | .testWith x => "TestWith(" ++ x.longText ++ ")"
  | .testWithBoth x y => "TestWithBoth(" ++ x.longText ++ ", " ++ y.longText ++ ")"
  | .stuckApp f a => "StuckApp(" ++ f.longText ++ ", " ++ a.longText ++ ")"

/-! ## The sample runs -/

/-- Three tests run to their end. -/
def sampleRuns : List Combinator :=
  [ test.applyAll [.fls, .id, (constant .fls).apply .tru],
    test.applyAll [.tru, .tru, .fls],
    test.applyAll [.fls, .freeVar, fls.apply .freeVar] ]

/-- What the sample runs come to, one on a line. -/
def sampleText : String := String.join (sampleRuns.map fun c => c.text ++ "\n")

end Combinator

end PrimedLambda
