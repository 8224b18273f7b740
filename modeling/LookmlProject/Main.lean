import LookmlProject.CommandLine.Run
import LookmlProject.Json.Writer

/-!
# The command line program

The program reads today's date and the names of a project's files from its input, one on a line, and
runs the command that its arguments give on these files.  What it would order outside, it prints: the
words of the program to start, and the nodes and the file of the drawing to make.
-/

namespace LookmlProject

/-- The lines of the input that are not blank. -/
partial def inputLines (stdin : IO.FS.Stream) : IO (List String) := do
  let line ← stdin.getLine
  if line.isEmpty then return []
  let text := String.ofList (Text.stripEnd line.toList)
  let more ← inputLines stdin
  return if text.isEmpty then more else text :: more

/-- The named files as a store. -/
def loadFiles (names : List String) : IO Store :=
  names.foldlM (fun (store : Store) (name : String) => do
    let text ← IO.FS.readFile name
    return (store.put name text).toOption.getD store) Store.empty

/-- An order to draw as a value. -/
def drawingNote (drawing : Drawing) : Value :=
  .record [("file", drawing.fileName), ("title", drawing.title),
    ("nodes", .list (drawing.nodes.map (·.1)))]

/-- Prints what a command has left to do outside, and gives the exit code. -/
def report (outcome : CommandLine.Outcome) : IO UInt32 := do
  match outcome.started with
  | some words => IO.println (" ".intercalate words)
  | none => pure ()
  match outcome.drawing with
  | some drawing => IO.println (Json.ofValue (drawingNote drawing)).render
  | none => pure ()
  match outcome.fault with
  | none => return 0
  | some (.exit code) => return code.toUInt32
  | some fault =>
    IO.eprintln fault.message
    return 1

end LookmlProject

/-- Runs the command line. -/
def main (words : List String) : IO UInt32 := do
  let lines ← LookmlProject.inputLines (← IO.getStdin)
  let store ← LookmlProject.loadFiles (lines.drop 1)
  LookmlProject.report
    (LookmlProject.CommandLine.run .initial store (lines.headD "") .done words)
