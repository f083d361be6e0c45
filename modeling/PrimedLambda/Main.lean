-- The command line. Without arguments a session runs on the standard
-- streams. With `combinators` the sample runs of the combinators are printed.
import PrimedLambda.Combinator
import PrimedLambda.Session

namespace PrimedLambda

/-- The bytes of the next line with its newline, or none when the input has ended. -/
partial def readLineBytes (stdin : IO.FS.Stream) (front : List UInt8) : IO (List UInt8) := do
  let chunk ← stdin.read 1
  match chunk.data.toList with
  | [] => return front.reverse
  | b :: _ => if b = 10 then return (b :: front).reverse else readLineBytes stdin (b :: front)

/-- Serves one line after the other, and gives the exit code. -/
partial def serveLines (loop : Loop Interpreter CommandError) (stage : Stage Interpreter) :
    IO UInt32 := do
  let stdout ← IO.getStdout
  let stderr ← IO.getStderr
  stdout.putStr loop.prompt
  stdout.flush
  let line ← readLineBytes (← IO.getStdin) []
  match loop.step stage (Lines.readings line).head? with
  | none => return 1
  | some turn =>
    stdout.putStr turn.stdout
    stderr.putStr turn.stderr
    match turn.ending with
    | none => serveLines loop turn.stage
    | some ending =>
      let (last, code) := Session.leave ending
      stderr.putStr last
      return UInt32.ofNat code

end PrimedLambda

open PrimedLambda

/-- Runs what the arguments ask for. -/
def main (args : List String) : IO UInt32 := do
  if args = ["combinators"] then
    (← IO.getStdout).putStr Combinator.sampleText
    return 0
  else
    (← IO.getStdout).putStr Session.greeting
    serveLines (Session.loop Session.ownHistory ((← IO.getEnv "TERM") = some "dumb")) { state := {} }
