-- Reading the short form of a term back. Each character changes the top of a
-- stack of terms and of parts that are still open, so nothing is looked up
-- ahead. What the stack writes is told part by part. `strip` forgets the stuck
-- nodes, and its law is that the short form does not see the difference.
import PrimedLambda.Free

namespace PrimedLambda

/-- The letter that a character writes. -/
def Letter.ofChar? : Char → Option Letter
  | 'x' => some .x
  | 'y' => some .y
  | 't' => some .t
  | 'f' => some .f
  | _ => none

/-! ## Parts of a text -/

/-- What a reader keeps of the text: a term, or the front of one that is still open. -/
inductive Part where
  | term (t : Term)
  | bracket
  | function (f : Term)
  | paren
  | lambda
  | binder (p : Var)
  deriving DecidableEq

namespace Part

/-- The text that the part stands for. -/
def text : Part → String
  | .term t => t.render
  | .bracket => "["
  | .function f => "[" ++ f.render ++ " "
  | .paren => "("
  | .lambda => "(λ"
  | .binder p => "(λ" ++ p.text ++ "."

/-- The text that a stack of parts stands for, the top last. -/
def textOf : List Part → String
  | [] => ""
  | part :: rest => textOf rest ++ part.text

/-- No term in the part has a stuck node. -/
def Unstuck : Part → Prop
  | .term t => t.Unstuck
  | .function f => f.Unstuck
  | _ => True

end Part

/-! ## Reading -/

namespace Term

/-- What a character makes of the stack. A prime goes to the variable on the top. -/
def readChar (stack : List Part) (c : Char) : Option (List Part) :=
  match c, stack with
  | '[', rest => some (.bracket :: rest)
  | ' ', .term f :: .bracket :: rest => some (.function f :: rest)
  | ']', .term a :: .function f :: rest => some (.term (.app f a) :: rest)
  | '(', rest => some (.paren :: rest)
  | 'λ', .paren :: rest => some (.lambda :: rest)
  | '.', .term (.var p) :: .lambda :: rest => some (.binder p :: rest)
  | ')', .term b :: .binder p :: rest => some (.term (.abs p b) :: rest)
  | '\x27', .term (.var v) :: rest => some (.term (.var v.prime) :: rest)
  | c, rest => (Letter.ofChar? c).map fun l => .term (letter l) :: rest

/-- What a text makes of the stack. -/
def readOn (stack : List Part) (s : String) : Option (List Part) := s.toList.foldlM readChar stack

/-- The term that the text writes, where it writes one. -/
def read (s : String) : Option Term :=
  match readOn [] s with
  | some [.term t] => some t
  | _ => none

/-! ## Stuck nodes forgotten -/

/-- The term with the content of each stuck node in its place. -/
def strip : Term → Term
  | .var v => .var v
  | .app f a => .app f.strip a.strip
  | .abs p b => .abs p b.strip
  | .stuck t => t.strip

theorem render_strip (t : Term) : t.strip.render = t.render := by
  induction t with
  | var v => rfl
  | app f a ihf iha => simp [strip, render, ihf, iha]
  | abs p b ih => simp [strip, render, ih]
  | stuck t ih => simpa [strip, render] using ih

end Term

end PrimedLambda
