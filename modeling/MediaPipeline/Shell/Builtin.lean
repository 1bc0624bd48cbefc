import MediaPipeline.Shell.Format
import MediaPipeline.Shell.Test

/-!
# Commands of the shell

The commands that the shell carries out itself and that run no other command.
-/

namespace MediaPipeline.Shell

/-- What a command of the shell leads to. -/
abbrev BuiltinResult := Flow × ShellState

namespace Builtin

/-- Go on with a status. -/
def done (s : ShellState) (status : Nat) : BuiltinResult := (.next, s.withStatus status)

/-- Complain and go on. -/
def fail (s : ShellState) (text : String) (status : Nat) : BuiltinResult :=
  done (s.complain text) status

/-- Complain and end the script. -/
def abort (s : ShellState) (text : String) : BuiltinResult :=
  (.exit, (s.complain text).withStatus 2)

/-! ## Printing -/

/-- Print bytes to the output, if it is open. -/
def output (name : String) (bytes : ByteArray) (status : Nat) (s : ShellState) : BuiltinResult :=
  if (s.stream? 1).isSome then done (s.printBytes 1 bytes) status
  else fail s (name ++ ": " ++ name ++ ": I/O error") 1

/-- The output of `echo`. -/
def echoBytes (args : List String) : ByteArray :=
  let (quiet, args) := if args.head? = some "-n" then (true, args.tail) else (false, args)
  let text := " ".intercalate args
  let f := expandEscapes .builtin (text.length + 1) text.toList
  if quiet || f.stopped then f.bytes else f.bytes.push 10

/-- A fault of a format in the words of the shell. -/
def formatFaultText : FormatFault → String
  | .notNumeric arg => arg ++ ": expected numeric value"
  | .partlyNumeric arg => arg ++ ": not completely converted"
  | .outOfRange arg => arg ++ ": Numerical result out of range"
  | .unknownConversion text => text ++ ": invalid directive"
  | .missingConversion => "missing format character"
  | .afterCharacter _ | .unused _ | .missingDigits => ""

/-- The words of a call without the mark that ends options, or the letter of the
first option, where none is known. -/
def refuseOptions : List String → Except Char (List String)
  | "--" :: args => .ok args
  | a :: args =>
    match a.toList with
    | '-' :: c :: _ => .error c
    | _ => .ok (a :: args)
  | [] => .ok []

/-- Print by a format. Complaints come before all output. -/
def printf (args : List String) (s : ShellState) : BuiltinResult :=
  match refuseOptions args with
  | .error c => fail s ("printf: Illegal option -" ++ String.ofList [c]) 2
  | .ok [] => fail s "printf: usage: printf format [arg ...]" 2
  | .ok (format :: args) =>
    let f := printFormatted .builtin format args
    let s := f.faults.foldl (fun s e => s.complain ("printf: " ++ formatFaultText e)) s
    let status := if f.faults.any (·.isFatal) then 2 else if f.faults.isEmpty then 0 else 1
    output "printf" f.bytes status s

/-! ## Going on -/

/-- Carry out a command with an optional number; what is no number ends the script. -/
def withNumber (name : String) (least fallback : Nat) (args : List String) (s : ShellState)
    (f : Nat → BuiltinResult) : BuiltinResult :=
  match args with
  | [] => f fallback
  | a :: _ =>
    match (Text.digits? a.toList).filter (least ≤ ·) with
    | some n => f n
    | none => abort s (name ++ ": Illegal number: " ++ a)

/-- Leave loops, or start their next round. Outside of loops there is nothing to do. -/
def leaveLoops (flow : Nat → Flow) (s : ShellState) (n : Nat) : BuiltinResult :=
  if s.loops = 0 then done s 0 else (flow (min n s.loops), s.withStatus 0)

/-! ## Variables and options -/

/-- Change the options of a shell. -/
def setOptions (s : ShellState) : List String → ShellState
  | [] => s
  | "--" :: rest => { s with positional := rest }
  | a :: rest =>
    let change (cs : List Char) (on : Bool) : ShellState :=
      { s with
        stopOnError := if cs.contains 'e' then on else s.stopOnError
        stopOnUnset := if cs.contains 'u' then on else s.stopOnUnset }
    match a.toList with
    | '-' :: cs => setOptions (change cs true) rest
    | '+' :: cs => setOptions (change cs false) rest
    | _ => { s with positional := a :: rest }

/-- The name and the value of a word that may assign a variable. -/
def splitAssignment (word : String) : String × Option String :=
  match word.toList.span (· ≠ '=') with
  | (name, _ :: value) => (String.ofList name, some (String.ofList value))
  | _ => (word, none)

/-- Export variables, assigning those that are given a value. -/
def exportAll (s : ShellState) : List String → ShellState
  | [] => s
  | a :: rest =>
    let (name, value) := splitAssignment a
    let s := (value.map (s.assign name)).getD s
    exportAll { s with exported := name :: s.exported } rest

/-- Make variables a function's own. -/
def makeLocal (s : ShellState) (saved : List (String × Option String)) : List String → ShellState
  | [] => { s with locals := some saved }
  | a :: rest =>
    let (name, value) := splitAssignment a
    let saved := (name, s.get? name) :: saved
    makeLocal ((value.map (s.assign name)).getD s) saved rest

/-- Assign the fields of a line that was read to variables; the last one takes the
rest. -/
def assignFields (s : ShellState) : List String → List Char → ShellState
  | [], _ => s
  | [name], cs => s.assign name (String.ofList (Text.trim cs))
  | name :: names, cs =>
    let cs := cs.dropWhile Text.isBlank
    let p := cs.span fun c => !Text.isBlank c
    assignFields (s.assign name (String.ofList p.1)) names p.2

/-- Drop the backslashes of a line that was read. -/
def dropBackslashes : List Char → List Char
  | '\\' :: c :: cs => c :: dropBackslashes cs
  | ['\\'] => []
  | c :: cs => c :: dropBackslashes cs
  | [] => []

/-- Read a line of the input into variables. -/
def read (args : List String) (s : ShellState) : BuiltinResult :=
  let raw := args.contains "-r"
  match args.filter fun a => a.toList.head? != some '-', s.stream? 0 with
  | [], _ => fail s "read: arg count" 2
  | _, none => done s 1
  | names, some n =>
    let (line, world) := s.world.readLine n
    let (bytes, complete) := line.getD (.empty, false)
    let cs := (Text.ofBytes bytes).toList
    let s := assignFields { s with world := world } names (if raw then cs else dropBackslashes cs)
    done s (if complete then 0 else 1)

/-! ## Signals -/

/-- The number of a signal with a name or number. -/
def signalNumber (s : String) : Option Nat :=
  match Text.digits? s.toList with
  | some n => some n
  | none =>
    let name := if "SIG".toList.isPrefixOf s.toList then s else "SIG" ++ s
    (ExitStatus.signalNames.findIdx? (· == name)).map (· + 1)

/-- The signal and the processes that words name. -/
def killArguments : List String → String × List String
  | "-s" :: name :: rest => (name, rest)
  | a :: rest =>
    match a.toList with
    | '-' :: name => (String.ofList name, rest)
    | _ => ("TERM", a :: rest)
  | [] => ("TERM", [])

/-- Send a signal to processes. A shell knows no process but itself. -/
def kill (args : List String) (s : ShellState) : BuiltinResult :=
  let (name, targets) := killArguments args
  match signalNumber name with
  | none => fail s ("kill: invalid signal number or name: " ++ name) 2
  | some signal =>
    if targets.contains (toString s.pid) then
      if signal = 0 then done s 0 else (.killed signal, s)
    else if targets.isEmpty then
      fail s ("kill: Usage: kill [-s sigspec | -signum | -sigspec] [pid | job]... or\n" ++
        "kill -l [exitstatus]") 2
    else fail s "kill: No such process\n" 1

/-! ## The table -/

/-- Change the directory. -/
def changeDirectory (args : List String) (s : ShellState) : BuiltinResult :=
  let target := args.headD ((s.get? "HOME").getD "/")
  match s.world.disk.lookup s.cwd true target with
  | .ok (place, .directory) => done { s with cwd := place } 0
  | _ => fail s ("cd: can't cd to " ++ target) 2

/-- Answer a test. -/
def answer (name : String) (args : List String) (s : ShellState) : BuiltinResult :=
  match test s args with
  | .ok r => done s (if r then 0 else 1)
  | .error e => fail s (name ++ ": " ++ e.message) 2

/-- Set what is run at the end, or forget it. Other conditions never come up. -/
def setTrap (args : List String) (s : ShellState) : ShellState :=
  match args with
  | action :: conditions =>
    if conditions.contains "EXIT" || conditions.contains "0" then
      { s with onExit := if action = "-" then none else some action }
    else s
  | [] => s

/-- Remove variables and functions. -/
def unset (args : List String) (s : ShellState) : ShellState :=
  let names := args.filter fun a => a.toList.head? != some '-'
  { s with
    vars := s.vars.filter fun v => !names.contains v.1
    functions := s.functions.filter fun f => !(names.contains f.1 && args.contains "-f") }

/-- Carry out a command of the shell, if a name is one. -/
def run? (name : String) (args : List String) (s : ShellState) : Option BuiltinResult :=
  match name with
  | ":" | "true" | "umask" | "wait" | "times" | "hash" => some (done s 0)
  | "false" => some (done s 1)
  | "echo" => some (output "echo" (echoBytes args) 0 s)
  | "printf" => some (printf args s)
  | "test" => some (answer name args s)
  | "[" =>
    some (if args.getLast? = some "]" then answer name args.dropLast s
      else fail s "[: missing ]" 2)
  | "exit" => some (withNumber name 0 s.status args s fun n => (.exit, s.withStatus (n % 256)))
  | "return" => some (withNumber name 0 s.status args s fun n => (.return, s.withStatus (n % 256)))
  | "break" => some (withNumber name 1 1 args s (leaveLoops .leave s))
  | "continue" => some (withNumber name 1 1 args s (leaveLoops .again s))
  | "shift" =>
    some (withNumber name 0 1 args s fun n =>
      if s.positional.length < n then abort s "shift: can't shift that many"
      else done { s with positional := s.positional.drop n } 0)
  | "set" => some (done (setOptions s args) 0)
  | "unset" => some (done (unset args s) 0)
  | "export" => some (done (exportAll s args) 0)
  | "readonly" => some (done { exportAll s args with exported := s.exported } 0)
  | "local" =>
    some (match s.locals with
      | some saved => done (makeLocal s saved args) 0
      | none => abort s "local: not in a function")
  | "cd" => some (changeDirectory args s)
  | "pwd" => some (output "pwd" ("/" ++ "/".intercalate s.cwd ++ "\n").toUTF8 0 s)
  | "read" => some (read args s)
  | "kill" => some (kill args s)
  | "trap" => some (done (setTrap args s) 0)
  | _ => none

/-- The commands that are part of the shell's language: their failures end a
script, and the assignments in front of them stay. -/
def special : List String :=
  [":", ".", "break", "continue", "eval", "exec", "exit", "export", "readonly", "return", "set",
    "shift", "times", "trap", "unset"]

end Builtin

end MediaPipeline.Shell
