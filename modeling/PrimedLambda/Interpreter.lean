-- The interpreter behind a session. It keeps one setting, the limit on the
-- reductions, and answers each line with a text or an error. An evaluation
-- without a limit may never end, and then the line has no answer: `none`.
import PrimedLambda.Catalogue
import PrimedLambda.Command

namespace PrimedLambda

/-- Why a line got no answer. -/
inductive CommandError where
  | unknownExample (name : String)
  | invalidFuel (argument : String)
  | outOfFuel (cause : OutOfFuel)
  deriving DecidableEq

/-- The message of the error. -/
def CommandError.message : CommandError → String
  | .unknownExample name => "Unknown example `" ++ name ++ "`, :list shows the available ones"
  | .invalidFuel argument => "Expected a number or `off`, found `" ++ argument ++ "`"
  | .outOfFuel cause => cause.message

/-- What holds for the lines to come: the limit on the reductions of an evaluation, if there is
one. At first there is none. -/
structure Interpreter where
  fuel : Option Nat := none
  deriving DecidableEq

/-- The answer to one line, with what holds after it. The notice is for the error stream, and it
is empty when there is nothing to remark on. -/
structure Reply where
  next : Interpreter
  result : Except CommandError String
  notice : String := ""

namespace Interpreter

/-! ## The texts -/

/-- The name, filled up with spaces to twelve columns. -/
def nameColumn (name : String) : String :=
  name ++ String.ofList (List.replicate (12 - name.length) ' ')

/-- The line of the list for one example. -/
def listRow (e : Example) : String :=
  nameColumn e.name ++ e.term.render ++ (if e.terminates then "" else "  (diverges)")

/-- The list of the examples, one on a line. -/
def listText : String := "\n".intercalate (Catalogue.examples.map listRow)

/-- What can be typed. -/
def helpText : String :=
  "\n".intercalate
    [ "name                -- same as :evaluate name",
      ":list               -- show the example terms",
      ":evaluate   name    -- show the evaluation result of an example",
      ":fuel       n|off   -- limit the number of beta reductions, or lift the limit",
      ":help               -- show this message" ]

/-- The limit as it is shown after it was set. -/
def fuelText : Option Nat → String
  | some n => "fuel: " ++ toString n ++ " beta reductions"
  | none => "fuel: unbounded"

/-- A term beside its value. -/
def resultText (term value : Term) : String := term.render ++ " = " ++ value.render

/-! ## The commands -/

/-- The value of the term under the limit that is set. -/
def valueOf (i : Interpreter) (t : Term) : Option (Except OutOfFuel Term) :=
  match i.fuel with
  | some limit => some (t.evaluateWithin limit)
  | none => t.evaluate.map .ok

/-- Evaluates the example of that name. The warning that is due before an evaluation without a limit
of an example that never ends is left out, since such a line has no answer to stand beside. -/
def evaluate (i : Interpreter) (name : String) : Option (Except CommandError String) :=
  match Catalogue.find? name with
  | none => some (.error (.unknownExample name))
  | some e => (i.valueOf e.term).map fun
    | .ok value => .ok (resultText e.term value)
    | .error cause => .error (.outOfFuel cause)

/-- The limit that the argument asks for: none for `off`, or a count. -/
def fuelOf? (argument : String) : Option (Option Nat) :=
  if argument = "off" then some none
  else (Text.readCount? argument.toList).map some

/-- Sets the limit. An argument that asks for none leaves the old limit in place. -/
def setFuel (i : Interpreter) (argument : String) : Reply :=
  match fuelOf? argument with
  | some fuel => ⟨{ fuel }, .ok (fuelText fuel), ""⟩
  | none => ⟨i, .error (.invalidFuel argument), ""⟩

/-- Carries out a command. An unknown one is remarked on and answered with the help. -/
def execute (i : Interpreter) : Command → Option Reply
  | .list => some ⟨i, .ok listText, ""⟩
  | .evaluate name => (i.evaluate name).map fun result => ⟨i, result, ""⟩
  | .setFuel argument => some (i.setFuel argument)
  | .help => some ⟨i, .ok helpText, ""⟩
  | .unknown word => some ⟨i, .ok helpText, "Unknown command " ++ word ++ "\n"⟩

/-- Answers a line. -/
def answer (i : Interpreter) (line : String) : Option Reply := i.execute (.ofLine line)

/-- Answers the lines in order, each with the settings that the one before it left. -/
def answerAll (i : Interpreter) : List String → Option (List Reply)
  | [] => some []
  | line :: lines => do
    let reply ← i.answer line
    let replies ← reply.next.answerAll lines
    return reply :: replies

end Interpreter

end PrimedLambda
