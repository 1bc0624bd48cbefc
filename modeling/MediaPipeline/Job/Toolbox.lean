import MediaPipeline.Document.Decode
import MediaPipeline.Run.Host
import MediaPipeline.Store.Lookup

/-!
# Tools

The external programs that pipelines use, where they are, and whether they work.
-/

namespace MediaPipeline

/-- The tools that every job looks for, with the argument that makes each print
its version. -/
def knownTools : List (String × String) :=
  [("ffmpeg", "-version"), ("ffprobe", "-version"), ("mkvmerge", "--version"),
    ("sox", "--version")]

/-- What a check of a tool has shown. -/
structure ToolReport where
  name : String
  /-- The path of a tool that works. -/
  path : Option Path
  /-- The first line that it printed. -/
  version : Option String
deriving DecidableEq

/-- Whether a tool works. -/
def ToolReport.isAvailable (r : ToolReport) : Bool := r.path.isSome

/-- The first line of a text, if it has any. -/
def firstLine? (text : String) : Option String :=
  match text.toList.span (· ≠ '\n') with
  | ([], []) => none
  | (line, []) => some (String.ofList line)
  | (line, _ :: _) =>
    some (String.ofList (if line.getLast? = some '\r' then line.dropLast else line))

/-- The tools that were found, in order of their names. -/
structure Toolbox where
  tools : List (String × Path)
deriving DecidableEq

namespace Toolbox

/-- A toolbox of named tools; of two with one name the last one counts. -/
def ofList (tools : List (String × Path)) : Toolbox :=
  ⟨tools.foldl (fun acc t => Document.insertSorted t.1 t.2 acc) []⟩

/-- The path of a tool. -/
def get? (t : Toolbox) (name : String) : Option Path :=
  (t.tools.find? fun e => e.1 == name).map (·.2)

/-- The path of a tool that must be there. -/
def require (t : Toolbox) (name : String) : Except Cause Path :=
  match t.get? name with
  | some path => .ok path
  | none => .error (.toolNotFound name)

variable {σ : Type}

/-- Where a tool is: in its configured place if there is anything, else on the
search path. -/
def locate (host : Host σ) (machine : σ) (configured : List (String × Path)) (name : String) :
    Option Path :=
  let place := (configured.find? fun e => e.1 == name).map (·.2)
  (place.filter fun p => host.isPresent p machine).or (host.which name machine)

/-- Find the known tools and those that are configured. -/
def discover (host : Host σ) (machine : σ) (configured : List (String × Path)) : Toolbox :=
  ofList <| (knownTools.map (·.1) ++ configured.map (·.1)).filterMap fun name =>
    (locate host machine configured name).map fun path => (name, path)

/-- The dynamic parameter that holds the path of a tool. -/
def param (name : String) : String := "tool." ++ name

/-- Give pipelines the paths of the tools. -/
def exportTo (t : Toolbox) (s : Store) : Store :=
  t.tools.foldl (fun s e => s.setDynamic (param e.1) e.2.text) s

/-- Check one tool by asking for its version. -/
def checkTool (host : Host σ) (t : Toolbox) (name argument : String) (machine : σ) :
    ToolReport × σ :=
  match t.get? name with
  | none => (⟨name, none, none⟩, machine)
  | some path =>
    match host.capture path.text [argument] machine with
    | (.ok r, machine) =>
      if r.status.isSuccess then (⟨name, some path, firstLine? r.output⟩, machine)
      else (⟨name, none, none⟩, machine)
    | (.error _, machine) => (⟨name, none, none⟩, machine)

/-- Check tools one after the other. -/
def checkTools (host : Host σ) (t : Toolbox) : List (String × String) → σ → List ToolReport × σ
  | [], machine => ([], machine)
  | (name, argument) :: rest, machine =>
    let (report, machine) := checkTool host t name argument machine
    let (more, machine) := checkTools host t rest machine
    (report :: more, machine)

/-- Check the known tools. -/
def check (host : Host σ) (t : Toolbox) (machine : σ) : List ToolReport × σ :=
  checkTools host t knownTools machine

end Toolbox

end MediaPipeline
