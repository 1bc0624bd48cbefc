import MediaPipeline.Path
import MediaPipeline.Text.Integer

/-!
# The workspace of a run

The directory in which every process runs, and the directory that takes one log
for each process.
-/

namespace MediaPipeline

/-- The directories of a run. -/
structure Workspace where
  directory : Path
  logs : Path
  /-- Whether the working directory goes when the run is over. -/
  temporary : Bool
deriving DecidableEq

namespace Workspace

/-- Where logs go in a working directory: a relative choice is taken from there. -/
def logsIn (directory : Path) : Option Path → Path
  | some chosen => directory.join chosen
  | none => directory.join ⟨"logs"⟩

/-- The workspace in a directory. -/
def inDirectory (directory : Path) (logs : Option Path) : Workspace :=
  ⟨directory, logsIn directory logs, false⟩

/-- A path as it is seen from outside the working directory. -/
def resolve (w : Workspace) (p : Path) : Path := w.directory.join p

/-- Whether a character may stand in the name of a log. -/
def isLogChar (c : Char) : Bool := c.isAlphanum || c == '.' || c == '_' || c == '-'

/-- The name of the log of a process: its number, with at least four digits, and
its program, in which every unusual character is an underscore. -/
def logName (seq : Nat) (program : String) : String :=
  Text.showPadded 4 seq ++ "-" ++
    String.ofList (program.toList.map fun c => if isLogChar c then c else '_') ++ ".log"

/-- The log of a process. -/
def diagnosticLog (w : Workspace) (seq : Nat) (program : String) : Path :=
  w.logs.join ⟨logName seq program⟩

end Workspace

end MediaPipeline
