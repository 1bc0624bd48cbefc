import MediaPipeline.Template.Basic
import MediaPipeline.Workspace

/-!
# Commands

A command is declared by templates and resolved in a scope to the words that
start a process and the file, if any, that takes what it prints.
-/

namespace MediaPipeline

/-- A command that is ready to start. -/
structure Command where
  name : OperationName
  /-- The program and its arguments. -/
  argv : List String
  /-- The file that takes what the command prints. -/
  output : Option Path
deriving DecidableEq

/-- Text without the quote characters at its two ends. -/
def trimQuotes (cs : List Char) : List Char :=
  let isQuote (c : Char) : Bool := c == '"' || c == '\''
  ((cs.dropWhile isQuote).reverse.dropWhile isQuote).reverse

namespace Command

/-- The program, without quotes around it. -/
def program (c : Command) : String :=
  String.ofList (trimQuotes (c.argv.headD "").toList)

/-- The arguments. -/
def arguments (c : Command) : List String := c.argv.tail

/-- The program as messages show it: the name of its file. -/
def displayProgram (c : Command) : String :=
  (Path.fileName? ⟨c.program⟩).getD c.program

end Command

/-- Where the output of a process goes. -/
inductive Redirect where
  /-- To the process after it. -/
  | pipe
  | file (p : Path)
  /-- To the log of the process. -/
  | log
deriving DecidableEq

namespace Redirect

/-- A declared file comes first; without one, the last process of a chain
writes to its log and any other to the next process. -/
def forStage (c : Command) (last : Bool) : Redirect :=
  match c.output with
  | some p => file p
  | none => if last then log else pipe

/-- The text of a redirect. -/
def render : Redirect → String
  | pipe => "pipe"
  | file p => "file:" ++ p.text
  | log => "log"

end Redirect

/-- A command whose templates are parsed. -/
structure CommandTemplate where
  name : OperationName
  template : Template
  output : Option Template
  guard : Option Guard
deriving DecidableEq

/-- Whether an optional guard lets an operation run. -/
def guardAllows (store : Store) (scope : Scope) : Option Guard → Except Cause Bool
  | none => .ok true
  | some g => g.eval store scope

namespace CommandTemplate

/-- Parse the templates of a command. -/
def parse (name : OperationName) (template : String) (output guard : Option String) :
    Except Cause CommandTemplate := do
  let template ← Template.parse template
  let output ← output.mapM Template.parse
  let guard ← guard.mapM Guard.parse
  pure ⟨name, template, output, guard⟩

/-- The file that an output template names. -/
def resolveOutput (w : Workspace) (scope : Scope) :
    Option Template → Template.StoreM (Option Path)
  | none => pure none
  | some t => do
    let text ← t.render scope
    if text.isEmpty then throw (.template t.source .emptyOutput)
    else pure (some (w.resolve ⟨text⟩))

/-- The command in a scope, or nothing when its guard skips it. -/
def resolve (c : CommandTemplate) (w : Workspace) (scope : Scope) :
    Template.StoreM (Option Command) := do
  if ← guardAllows (← get) scope c.guard then
    let argv ← c.template.resolveArgv scope
    let output ← resolveOutput w scope c.output
    pure (some ⟨c.name, argv, output⟩)
  else pure none

end CommandTemplate

end MediaPipeline
