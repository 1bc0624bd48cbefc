import MediaPipeline.Machine.World
import MediaPipeline.Shell.Parse
import MediaPipeline.Shell.Pattern
import MediaPipeline.Text.Integer

/-!
# The state of a shell

Variables, parameters, descriptors and the world around them, and what can be
said about words without running anything.
-/

namespace MediaPipeline.Shell

open Machine (World Place)

/-- How a script goes on. -/
inductive Flow where
  | next
  | exit
  | leave (levels : Nat)
  | again (levels : Nat)
  | return
  | killed (signal : Nat)
deriving DecidableEq

/-- The state of a shell. -/
structure ShellState where
  world : World
  cwd : Place
  vars : List (String × String)
  /-- The names of the variables that programs see. -/
  exported : List String
  functions : List (String × Script)
  positional : List String
  /-- The name of the shell or script. -/
  zero : String
  status : Nat
  pid : Nat
  /-- The streams of the descriptors. -/
  descriptors : List (Nat × Nat)
  line : Nat
  stopOnError : Bool
  /-- Whether a variable that is not set ends the script. -/
  stopOnUnset : Bool
  /-- How many loops of the script are around the command at hand. -/
  loops : Nat
  /-- The former values of the variables that the function at hand has made its own;
  nothing outside of functions. -/
  locals : Option (List (String × Option String))
  /-- What is run at the end. -/
  onExit : Option String

namespace ShellState

/-- A shell at its start. -/
def start (world : World) (cwd : Place) (vars : List (String × String)) (zero : String)
    (pid : Nat) (descriptors : List (Nat × Nat)) : ShellState where
  world := world
  cwd := cwd
  vars := vars
  exported := vars.map (·.1)
  functions := []
  positional := []
  zero := zero
  status := 0
  pid := pid
  descriptors := descriptors
  line := 1
  stopOnError := false
  stopOnUnset := false
  loops := 0
  locals := none
  onExit := none

/-- The value of a variable. -/
def get? (s : ShellState) (name : String) : Option String :=
  (s.vars.find? fun v => v.1 == name).map (·.2)

/-- Assign a variable. -/
def assign (s : ShellState) (name value : String) : ShellState :=
  { s with vars := s.vars.filter (fun v => v.1 != name) ++ [(name, value)] }

/-- Give a variable a value, or none. -/
def restore (s : ShellState) (name : String) : Option String → ShellState
  | some value => s.assign name value
  | none => { s with vars := s.vars.filter fun v => v.1 != name }

/-- The stream of a descriptor. -/
def stream? (s : ShellState) (descriptor : Nat) : Option Nat :=
  (s.descriptors.find? fun d => d.1 == descriptor).map (·.2)

/-- Give a descriptor a stream, or close it. -/
def setStream (s : ShellState) (descriptor : Nat) (stream : Option Nat) : ShellState :=
  let others := s.descriptors.filter fun d => d.1 != descriptor
  { s with descriptors := others ++ (stream.map fun n => (descriptor, n)).toList }

/-- Print to a descriptor. -/
def print (s : ShellState) (descriptor : Nat) (text : String) : ShellState :=
  match s.stream? descriptor with
  | some n => { s with world := s.world.print n text }
  | none => s

/-- Print bytes to a descriptor. -/
def printBytes (s : ShellState) (descriptor : Nat) (bytes : ByteArray) : ShellState :=
  match s.stream? descriptor with
  | some n => { s with world := (s.world.write n bytes).2 }
  | none => s

/-- Report a problem with the name of the shell and the line. -/
def complain (s : ShellState) (text : String) : ShellState :=
  s.print 2 (s.zero ++ ": " ++ toString s.line ++ ": " ++ text ++ "\n")

/-- Set the status. -/
def withStatus (s : ShellState) (status : Nat) : ShellState := { s with status := status }

/-- The value of a parameter. -/
def parameter (s : ShellState) (name : String) : Option String :=
  match name with
  | "?" => some (toString s.status)
  | "$" => some (toString s.pid)
  | "#" => some (toString s.positional.length)
  | "0" => some s.zero
  | "@" | "*" =>
    if s.positional.isEmpty then none else some (" ".intercalate s.positional)
  | "-" => some ""
  | "!" => none
  | _ =>
    match Text.digits? name.toList with
    | some n => if n = 0 then some s.zero else s.positional[n - 1]?
    | none => s.get? name

/-- The characters that separate fields. -/
def separators (s : ShellState) : List Char :=
  match s.get? "IFS" with
  | some text => text.toList
  | none => [' ', '\t', '\n']

end ShellState

/-! ## Fields -/

/-- A piece of an expanded word. -/
inductive Piece where
  | char (c : Char) (quoted : Bool)
  /-- A character of a substitution outside of quotes, at which words may split. -/
  | loose (c : Char)
  /-- The border between two parameters. -/
  | border
  /-- Quotes stood here, so that there is a field even if it is empty. -/
  | mark
deriving DecidableEq

/-- Split pieces into fields. The field at hand is given last character first. -/
def splitFields (separators : List Char) (field : Option (List Marked)) :
    List Piece → List (List Marked)
  | [] => (field.map List.reverse).toList
  | .char c q :: ps => splitFields separators (some ((c, q) :: field.getD [])) ps
  | .mark :: ps => splitFields separators (some (field.getD [])) ps
  | .border :: ps => (field.map List.reverse).toList ++ splitFields separators none ps
  | .loose c :: ps =>
    if separators.contains c then
      if c = ' ' ∨ c = '\t' ∨ c = '\n' then
        (field.map List.reverse).toList ++ splitFields separators none ps
      else (field.getD []).reverse :: splitFields separators none ps
    else splitFields separators (some ((c, false) :: field.getD [])) ps

/-- The text of pieces that are not split. -/
def piecesText (ps : List Piece) : List Char :=
  ps.filterMap fun
    | .char c _ => some c
    | .loose c => some c
    | .border => some ' '
    | .mark => none

/-- Pieces as a pattern. -/
def piecesPattern (ps : List Piece) : List Marked :=
  ps.filterMap fun
    | .char c q => some (c, q)
    | .loose c => some (c, false)
    | .border => some (' ', true)
    | .mark => none

/-- The parts of a pattern between slashes. -/
def patternParts : List Marked → List (List Marked)
  | [] => [[]]
  | m :: ms =>
    if m.1 = '/' then [] :: patternParts ms
    else
      match patternParts ms with
      | p :: ps => (m :: p) :: ps
      | [] => [[m]]

/-- The paths that a pattern matches, in front of which `done` stands. -/
def matchPaths (w : World) (cwd : Place) (done : String) : List (List Marked) → List String
  | [] => [done]
  | part :: rest =>
    let enter (name : String) : List String :=
      matchPaths w cwd (done ++ name ++ (if rest.isEmpty then "" else "/")) rest
    if part.any isSpecial then
      match w.disk.lookup cwd true (if done.isEmpty then "." else done) with
      | .ok (place, .directory) =>
        let visible := (w.disk.names place).filter fun n =>
          n.toList.head? != some '.' || part.head?.map (·.1) == some '.'
        (visible.filter fun n => Pattern.holds part n.toList).flatMap enter
      | _ => []
    else enter (String.ofList (part.map (·.1)))

/-- The words of a field: the paths that it matches, or the field as it is. -/
def expandPaths (w : World) (cwd : Place) (field : List Marked) : List String :=
  let plain := String.ofList (field.map (·.1))
  if field.any isSpecial then
    let found := (matchPaths w cwd "" (patternParts field)).filter (w.disk.isPresent cwd)
    if found.isEmpty then [plain] else found
  else [plain]

/-- The word that a text is, with its blanks and without a border. -/
def readAll : Nat → List Char → Option ShellWord
  | 0, _ => none
  | fuel + 1, cs => do
    let (w, rest) ← readWord (cs.length + 1) cs
    match rest with
    | [] => some w
    | c :: rest => do
      let more ← readAll fuel rest
      some (w ++ .text [c] false :: more)

end MediaPipeline.Shell
