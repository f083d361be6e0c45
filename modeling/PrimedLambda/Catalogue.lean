-- Booleans, pairs and numerals as terms over the four letters, and the term
-- that never ends. A term is read back as a boolean by what it selects. Some
-- of the terms are examples that a session can evaluate by name, in the order
-- in which they are listed.
import PrimedLambda.Evaluation

namespace PrimedLambda

namespace Church

open Term (letter lam)

/-! ## Booleans -/

/-- `λt.λf.t` -/
def tru : Term := lam .t (lam .f (letter .t))

/-- `λt.λf.f` -/
def fls : Term := lam .t (lam .f (letter .f))

/-- `λx.λy.λt.[[x y] t]` -/
def test : Term := lam .x (lam .y (lam .t ((letter .x).applyAll [letter .y, letter .t])))

/-- `λx.λy.[[x y] fls]` -/
def and : Term := lam .x (lam .y ((letter .x).applyAll [letter .y, fls]))

/-! ## Pairs -/

/-- `λf.λx.λy.[[y f] x]` -/
def pair : Term := lam .f (lam .x (lam .y ((letter .y).applyAll [letter .f, letter .x])))

/-- `λt.[t tru]` -/
def fst : Term := lam .t ((letter .t).app tru)

/-- `λt.[t fls]` -/
def snd : Term := lam .t ((letter .t).app fls)

/-! ## Numerals -/

/-- `[x [x … y]]`, with `n` applications of `x`. -/
def iterate : Nat → Term
  | 0 => letter .y
  | n + 1 => (letter .x).app (iterate n)

/-- `λx.λy.[x [x … y]]`, with `n` applications of `x`. -/
def numeral (n : Nat) : Term := lam .x (lam .y (iterate n))

/-- `λt.[[t λx.fls] tru]` -/
def iszero : Term := lam .t ((letter .t).applyAll [lam .x fls, tru])

/-! ## Divergence -/

/-- `λx.[x x]` -/
def omegaAux : Term := lam .x ((letter .x).app (letter .x))

/-- `[λx.[x x] λx.[x x]]`, whose evaluation never ends. -/
def omega : Term := omegaAux.app omegaAux

/-! ## Reading a boolean back -/

/-- The boolean that the outcome of a selection between `x` and `y` stands for. -/
def selected : Term → Option Bool
  | .var (.letter .x) => some true
  | .var (.letter .y) => some false
  | _ => none

/-- The term as a boolean: it is applied to `x` and `y`, and the one that comes out tells. The
outer `none` stands for an evaluation that never ends, the inner one for any other value. -/
def asBool (t : Term) : Option (Option Bool) :=
  (t.applyAll [letter .x, letter .y]).evaluate.map selected

end Church

/-! ## The examples -/

/-- A term with a name, and whether its evaluation ends. -/
structure Example where
  name : String
  term : Term
  terminates : Bool := true

namespace Catalogue

open Church
open Term (letter)

/-- `[[pair tru] f]` -/
def truWithF : Term := pair.applyAll [tru, letter .f]

/-- `[[and tru] tru]` -/
def andTruTru : Term := Church.and.applyAll [tru, tru]

/-- Every example. -/
def examples : List Example :=
  [ { name := "test", term := test.applyAll [fls, fls, tru] },
    { name := "and", term := andTruTru },
    { name := "test-and", term := test.applyAll [andTruTru, letter .f, tru] },
    { name := "pair", term := truWithF },
    { name := "fst", term := fst.app truWithF },
    { name := "snd", term := snd.app truWithF },
    { name := "iszero-c0", term := iszero.app (numeral 0) },
    { name := "iszero-c1", term := iszero.app (numeral 1) },
    { name := "iszero-c2", term := iszero.app (numeral 2) },
    { name := "stuck", term := (letter .f).applyAll [letter .f, letter .f] },
    { name := "omega", term := omega, terminates := false } ]

/-- The example of that name. -/
def find? (name : String) : Option Example := examples.find? fun e => e.name == name

end Catalogue

end PrimedLambda
