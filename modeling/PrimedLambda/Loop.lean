-- The loop that reads inputs and hands each one to a program, until the input
-- ends or something fails. The bytes of the input are cut into lines, and the
-- lines make up the inputs. The loop is written as one step for each line it
-- reads, so that a terminal and a list of lines are served alike.

namespace PrimedLambda

/-! ## Lines of input -/

/-- What reading one line brings: its text, or nothing when its bytes are not UTF-8. -/
inductive Reading where
  | line (text : String)
  | malformed
  deriving DecidableEq

namespace Lines

/-- Puts a byte in front of the first line, which is a new one if there is none. -/
def pushFront (b : UInt8) : List (List UInt8) → List (List UInt8)
  | [] => [[b]]
  | line :: lines => (b :: line) :: lines

/-- The bytes of each line, without what ends it: a newline, and one carriage return before it.
What follows the last newline is a line if it is not empty. -/
def split : List UInt8 → List (List UInt8)
  | [] => []
  | 10 :: rest => [] :: split rest
  | 13 :: 10 :: rest => [] :: split rest
  | b :: rest => pushFront b (split rest)

/-- The text that the bytes of a line stand for. -/
def decode (bytes : List UInt8) : Reading :=
  match String.fromUTF8? bytes.toByteArray with
  | some text => .line text
  | none => .malformed

/-- Every line of the input. -/
def readings (input : List UInt8) : List Reading := (split input).map decode

/-- What the reads of the input bring, with nothing at its end. -/
def reads (input : List UInt8) : List (Option Reading) := (readings input).map some ++ [none]

/-- The bytes of a text. -/
def encode (text : String) : List UInt8 := text.toUTF8.data.toList

end Lines

/-- The line without its last backslash, if it ends in one. Such a line goes on in the next one. -/
def Continuation.continued? (line : String) : Option String :=
  match line.toList.reverse with
  | '\\' :: front => some (String.ofList front.reverse)
  | _ => none

/-! ## The history -/

/-- A file that keeps the inputs, and what stands in the way of reading or writing it. The fault of
a save may depend on the inputs that were entered before it. -/
structure History where
  path : String
  loadFault : Option String := none
  saveFault : List String → Option String := fun _ => none

namespace History

/-- The fault of a path that leads nowhere. -/
def noSuchFile : String := "No such file or directory (os error 2)"

/-- A history whose path leads nowhere. An empty input is not kept, and as long as there is nothing
to keep nothing is written. -/
def missing (path : String) : History :=
  { path, loadFault := some noSuchFile,
    saveFault := fun entered => if entered.all (·.isEmpty) then none else some noSuchFile }

/-- What is logged when the history is loaded. -/
def loadLog (h : History) : List String :=
  match h.loadFault with
  | some fault => ["DEBUG No history loaded from " ++ h.path ++ ": " ++ fault]
  | none => []

end History

/-! ## The program behind the loop -/

/-- What the program made of an input. A failure ends the loop. -/
structure Served (σ ε : Type) where
  state : σ
  stdout : String := ""
  stderr : String := ""
  failure : Option ε := none

/-- Why a loop ended early: on the way in or out of the program, or by a failure of it. -/
inductive LoopError (ε : Type) where
  | reading (fault : String)
  | command (cause : ε)
  deriving DecidableEq

/-- The message of the error, given the text of a cause. -/
def LoopError.message {ε : Type} (textOf : ε → String) : LoopError ε → String
  | .reading fault => fault
  | .command cause => "Command failed: " ++ textOf cause

/-- A program to serve with the history it keeps and the prompt it shows. The program may never
come back from an input: `none`. -/
structure Loop (σ ε : Type) where
  serve : σ → String → Option (Served σ ε)
  history : Option History := none
  prompt : String := ""

/-- What a loop keeps from one line to the next: the state of the program, the inputs that were
entered in the history, and the lines that wait for their end. -/
structure Stage (σ : Type) where
  state : σ
  entered : List String := []
  pending : String := ""

/-- What one step of the loop came to. It goes on from the stage unless there is an ending. -/
structure Turn (σ ε : Type) where
  stage : Stage σ
  stdout : String := ""
  stderr : String := ""
  ending : Option (Except (LoopError ε) Unit) := none

/-- All that a loop did. -/
structure Transcript (σ ε : Type) where
  state : σ
  stdout : String
  stderr : String
  ending : Except (LoopError ε) Unit

/-- The transcript with some output in front. -/
def Transcript.after {σ ε : Type} (t : Transcript σ ε) (stdout stderr : String) :
    Transcript σ ε :=
  { t with stdout := stdout ++ t.stdout, stderr := stderr ++ t.stderr }

namespace Loop

variable {σ ε : Type}

/-! ## Running the loop -/

/-- What is shown when the input ends. -/
def farewell : String := "Bye!\n"

/-- The fault of a line that is not UTF-8. -/
def malformedFault : String := "stream did not contain valid UTF-8"

/-- The fault met when the inputs entered so far are saved, if the program keeps a history. -/
def saveFault? (l : Loop σ ε) (entered : List String) : Option String :=
  l.history.bind (·.saveFault entered)

/-- Hands a whole input to the program. It is entered in the history before, and the history is
saved after, unless the program failed. -/
def handle (l : Loop σ ε) (state : σ) (entered : List String) (input : String) :
    Option (Turn σ ε) := do
  let entered := entered ++ [input]
  let served ← l.serve state input
  let error : Option (LoopError ε) :=
    match served.failure with
    | some cause => some (.command cause)
    | none => (l.saveFault? entered).map .reading
  return { stage := { state := served.state, entered }, stdout := served.stdout,
           stderr := served.stderr, ending := error.map .error }

/-- Takes what one read brought: the end of the input, a line that can not be read, or one that
waits or ends an input. -/
def step (l : Loop σ ε) (stage : Stage σ) : Option Reading → Option (Turn σ ε)
  | none => some { stage, stdout := farewell, ending := some (.ok ()) }
  | some .malformed => some { stage, ending := some (.error (.reading malformedFault)) }
  | some (.line text) =>
    match Continuation.continued? text with
    | some part => some { stage := { stage with pending := stage.pending ++ part ++ "\n" } }
    | none => l.handle stage.state stage.entered (stage.pending ++ text)

/-- Takes what the reads bring in turn, with the prompt before each. A loop that would read on
comes to no end. -/
def run (l : Loop σ ε) (stage : Stage σ) : List (Option Reading) → Option (Transcript σ ε)
  | [] => none
  | read :: reads => do
    let turn ← l.step stage read
    let stdout := l.prompt ++ turn.stdout
    match turn.ending with
    | some ending => return ⟨turn.stage.state, stdout, turn.stderr, ending⟩
    | none => return (← l.run turn.stage reads).after stdout turn.stderr

/-- Runs the loop on the bytes of its input. -/
def runBytes (l : Loop σ ε) (state : σ) (input : List UInt8) : Option (Transcript σ ε) :=
  l.run { state } (Lines.reads input)

/-- What the loop logs. -/
def log (l : Loop σ ε) : List String := (l.history.map (·.loadLog)).getD []

/-! ## A program that keeps its inputs -/

/-- Keeps each input, the newest last, and fails on one that is `failOn`. -/
def recordInput (failOn : Option String) (seen : List String) (input : String) :
    Option (Served (List String) String) :=
  some { state := seen ++ [input], failure := if failOn = some input then some input else none }

/-- The loop over the program that keeps its inputs. -/
def recorder (failOn : Option String) (history : Option History) (prompt : String) :
    Loop (List String) String :=
  { serve := recordInput failOn, history, prompt }

end Loop

end PrimedLambda
