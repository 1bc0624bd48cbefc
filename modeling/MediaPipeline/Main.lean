import MediaPipeline.CommandLine.Execution
import MediaPipeline.Document.Json
import MediaPipeline.Machine.Computer

/-!
# The program

Runs the command line on a computer of its own. The files in the current directory
of that computer are read from the standard input, as a JSON object that gives the
text of each path.
-/

open MediaPipeline Machine

/-- The text of a stream, read line by line. -/
partial def readAllText (stream : IO.FS.Stream) (text : String) : IO String := do
  let line ← stream.getLine
  if line.isEmpty then pure text else readAllText stream (text ++ line)

/-- Put the files of an object on a computer. -/
def putFiles (c : Computer) : Document → Computer
  | .object fields => fields.foldl (fun c f => (c.putFile ⟨f.1⟩ (f.2.asText.getD "")).2) c
  | _ => c

/-- Run the command line, print what it prints, and end with its code. -/
def main (args : List String) : IO UInt32 := do
  let text ← readAllText (← IO.getStdin) ""
  let computer := putFiles (.start ["work"]) ((Json.parse? text).getD .null)
  let (outcome, _) := CommandLine.run Computer.host args computer
  IO.print outcome.output
  match outcome.failure with
  | some f => IO.eprintln ("Error: " ++ f)
  | none => pure ()
  pure (UInt32.ofNat outcome.code)
