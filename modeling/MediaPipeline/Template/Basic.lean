import MediaPipeline.Template.Eval

/-!
# Templates and guards

A command template with scoped references, loops and conditionals, and a guard,
which decides whether an operation runs. Parsing checks everything that does
not depend on values.
-/

namespace MediaPipeline

open Template

/-- A parsed template with the text it was read from. -/
structure Template where
  source : String
  tree : Block
deriving DecidableEq

/-- A parsed guard with the text it was read from. -/
structure Guard where
  source : String
  condition : Condition
deriving DecidableEq

namespace Template

/-- Parse a template. -/
def parse (source : String) : Except Cause Template :=
  match tokenize source.toList >>= Block.parse with
  | .ok tree => .ok ⟨source, tree⟩
  | .error fault => .error (.template source fault)

/-- Whether evaluation reads a dynamic parameter, as a value or as an index. -/
def referencesVar (t : Template) (var : String) : Bool := t.tree.dependsOn var

/-- The output of a template. -/
def eval (t : Template) (scope : Scope) : StoreM (List Chunk) := t.tree.eval scope t.source

/-- The argument vector of a template; the first argument names the program. -/
def resolveArgv (t : Template) (scope : Scope) : StoreM (List String) := do
  let chunks ← t.eval scope
  match splitArguments chunks with
  | .error fault => throw (.template t.source fault)
  | .ok [] => throw (.template t.source .emptyCommand)
  | .ok argv => pure argv

/-- The text of a template, without word splitting. -/
def render (t : Template) (scope : Scope) : StoreM String := do
  let chunks ← t.eval scope
  pure (joinChunks chunks)

end Template

namespace Guard

/-- Parse a guard: `VALUE`, `!VALUE`, `VALUE == VALUE` or `VALUE != VALUE`. -/
def parse (source : String) : Except Cause Guard :=
  match splitWords source.toList >>= Condition.ofWords with
  | .ok condition => .ok ⟨source, condition⟩
  | .error fault => .error (.template source fault)

/-- The truth of a guard in a scope. -/
def eval (g : Guard) (store : Store) (scope : Scope) : Except Cause Bool :=
  g.condition.eval store scope g.source

end Guard

end MediaPipeline
