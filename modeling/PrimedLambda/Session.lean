-- A whole session: the greeting, the loop over the interpreter, and the exit
-- code. An input of blanks is passed over. An error of a line is shown and
-- the session goes on.
import PrimedLambda.Interpreter
import PrimedLambda.Loop

namespace PrimedLambda

/-- What a session leaves behind. -/
structure SessionResult where
  stdout : String
  stderr : String
  code : Nat
  deriving DecidableEq

namespace Session

/-- What a session opens with. -/
def greeting : String := "Hi, this is an untyped lambda calculus REPL. :h to show help\n\n"

/-- The prompt of a terminal that can not be edited on. -/
def dumbPrompt : String := ">> "

/-- An error as it is shown. -/
def errorLine (message : String) : String := "Error: " ++ message ++ "\n"

/-- Answers an input, on one stream or the other. An error of the line is no failure. -/
def serve (i : Interpreter) (input : String) : Option (Served Interpreter CommandError) :=
  if Text.allBlank input.toList then some { state := i }
  else do
    let reply ← i.answer input
    match reply.result with
    | .ok text => return { state := reply.next, stdout := text ++ "\n", stderr := reply.notice }
    | .error e =>
      return { state := reply.next, stderr := reply.notice ++ errorLine e.message }

/-- The history of a session, with nothing in the way of reading or writing it. -/
def ownHistory : History := { path := "/tmp/untyped.history" }

/-- The loop of a session that keeps a history, with the prompt on a dumb terminal only. -/
def loop (history : History) (dumb : Bool) : Loop Interpreter CommandError :=
  { serve, history := some history, prompt := if dumb then dumbPrompt else "" }

/-- What the end of the loop leaves on the error stream, and the exit code. -/
def leave : Except (LoopError CommandError) Unit → String × Nat
  | .ok () => ("", 0)
  | .error e => (errorLine (e.message CommandError.message), 1)

/-- Runs a session that keeps a history on the bytes of its input. -/
def runKeeping (history : History) (dumb : Bool) (input : List UInt8) : Option SessionResult := do
  let t ← (loop history dumb).runBytes {} input
  let (stderr, code) := leave t.ending
  return ⟨greeting ++ t.stdout, t.stderr ++ stderr, code⟩

/-- Runs a session on the bytes of its input. -/
def run (dumb : Bool) (input : List UInt8) : Option SessionResult :=
  runKeeping ownHistory dumb input

end Session

end PrimedLambda
