import MediaPipeline.Audio
import MediaPipeline.Command
import MediaPipeline.Pipeline.Declaration

/-!
# Compiling pipelines

Before a run starts, every operation is checked and every template and guard is
parsed, so that a malformed pipeline leaves no half-finished work behind. The
first fault in reading order is reported; a fault in a template is placed in its
operation, any other fault says where in the pipeline it is.
-/

namespace MediaPipeline

/-- A cycle with parsed templates. -/
structure CycleTemplate where
  repetition : Repetition
  types : List SequenceType
  stages : List CommandTemplate
deriving DecidableEq

/-- A pipe with parsed templates. -/
structure PipeTemplate where
  name : OperationName
  guard : Option Guard
  cycles : List CycleTemplate
  tail : List CommandTemplate
deriving DecidableEq

/-- An assignment with parsed templates. -/
structure AssignTemplate where
  name : OperationName
  parameter : String
  value : Template
  target : AssignTarget
  cleanup : CleanupPolicy
  guard : Option Guard
deriving DecidableEq

/-- The upper bound of a loop. -/
inductive LoopBound where
  /-- The last index, included. -/
  | last (t : Template)
  /-- The number of iterations. -/
  | count (t : Template)
deriving DecidableEq

/-- The template of a bound. -/
def LoopBound.template : LoopBound → Template
  | last t => t
  | count t => t

/-- The head of a loop with parsed templates. -/
structure LoopTemplate where
  name : OperationName
  var : String
  first : Option Template
  bound : LoopBound
deriving DecidableEq

/-- A channel mapping with a parsed template. -/
structure AudioMapTemplate where
  name : OperationName
  layout : Template
  mapping : Option (List OutputChannel)
  parameter : String
deriving DecidableEq

/-- A list of compiled operations; each constructor but the first carries the
operations after it. -/
inductive Steps where
  | done
  | command (c : CommandTemplate) (rest : Steps)
  | eachSegment (name : OperationName) (body rest : Steps)
  | eachSequence (name : OperationName) (types : List SequenceType) (body rest : Steps)
  | pipe (p : PipeTemplate) (rest : Steps)
  | assign (a : AssignTemplate) (rest : Steps)
  | branch (name : OperationName) (condition : Guard) (yes no rest : Steps)
  | loop (head : LoopTemplate) (body rest : Steps)
  | audioMap (m : AudioMapTemplate) (rest : Steps)
deriving DecidableEq

namespace Compile

/-- Place a cause in an operation, outside of any scope. -/
def placed {α : Type} (name : OperationName) : Except Cause α → Except Failure α
  | .ok a => .ok a
  | .error cause => .error (.within name .global cause)

/-- A fault of the pipeline itself. -/
def refuse {α : Type} (fault : ConfigFault) : Except Failure α :=
  .error (.plain (.config fault))

/-- A command. -/
def command (source : String) (decl : CommandDecl) : Except Failure CommandTemplate :=
  let name : OperationName := ⟨decl.name, source⟩
  placed name (CommandTemplate.parse name decl.template decl.output decl.guard)

/-- A cycle of a pipe. -/
def cycle (source : String) (decl : CycleDecl) : Except Failure CycleTemplate := do
  let stages ← decl.stages.mapM (command source)
  pure ⟨decl.repetition, decl.types, stages⟩

/-- A pipe, which must declare a tail. -/
def pipe (source position : String) (decl : PipeDecl) : Except Failure PipeTemplate :=
  let name : OperationName := ⟨decl.name, source⟩
  if decl.tail.isEmpty then refuse (.noTail decl.name position)
  else do
    let cycles ← decl.cycles.mapM (cycle source)
    let guard ← placed name (decl.guard.mapM Guard.parse)
    let tail ← decl.tail.mapM (command source)
    pure ⟨name, guard, cycles, tail⟩

/-- An assignment. -/
def assign (source : String) (decl : AssignDecl) : Except Failure AssignTemplate := do
  let name : OperationName := ⟨decl.name, source⟩
  let value ← placed name (Template.parse decl.value)
  let guard ← placed name (decl.guard.mapM Guard.parse)
  pure ⟨name, decl.name, value, decl.target, decl.cleanup, guard⟩

/-- The bound of a loop: exactly one of its two forms. -/
def loopBound (name : OperationName) (position : String) (decl : LoopDecl) :
    Except Failure LoopBound :=
  match decl.last, decl.count with
  | some t, none => placed name ((Template.parse t).map .last)
  | none, some t => placed name ((Template.parse t).map .count)
  | _, _ => refuse (.loopBounds decl.var position)

/-- The head of a loop. Its bounds may not read its own variable. -/
def loop (source position : String) (decl : LoopDecl) : Except Failure LoopTemplate :=
  let name : OperationName := ⟨"for " ++ decl.var, source⟩
  if !Template.isIdentifier decl.var.toList then refuse (.badLoopVariable decl.var position)
  else do
    let bound ← loopBound name position decl
    let first ← placed name (decl.first.mapM Template.parse)
    if (first.toList ++ [bound.template]).any (·.referencesVar decl.var) then
      refuse (.loopReadsVariable decl.var position)
    else pure ⟨name, decl.var, first, bound⟩

/-- A channel mapping. -/
def audioMap (source : String) (decl : AudioMapDecl) : Except Failure AudioMapTemplate := do
  let name : OperationName := ⟨decl.name, source⟩
  let mapping ← placed name (decl.mapping.mapM OutputChannel.parse)
  let layout ← placed name (Template.parse decl.layout)
  pure ⟨name, layout, if decl.mapping.isEmpty then none else some mapping, decl.parameter⟩

/-- The name of the condition of a branch. -/
def branchName (source condition : String) : OperationName := ⟨"if " ++ condition, source⟩

/-- The operations from number `i` on of the list at `path`. -/
def operations (source path : String) (i : Nat) : Operations → Except Failure Steps
  | .done => .ok .done
  | .command decl rest => do
    let c ← command source decl
    let rest ← operations source path (i + 1) rest
    pure (.command c rest)
  | .eachSegment name body rest => do
    let body ← operations source (inner "operations") 0 body
    let rest ← operations source path (i + 1) rest
    pure (.eachSegment ⟨name.getD OperationKind.eachSegment.name, source⟩ body rest)
  | .eachSequence name types body rest => do
    let body ← operations source (inner "operations") 0 body
    let rest ← operations source path (i + 1) rest
    pure (.eachSequence ⟨name.getD OperationKind.eachSequence.name, source⟩ types body rest)
  | .pipe decl rest => do
    let p ← pipe source position decl
    let rest ← operations source path (i + 1) rest
    pure (.pipe p rest)
  | .assign decl rest => do
    let a ← assign source decl
    let rest ← operations source path (i + 1) rest
    pure (.assign a rest)
  | .branch condition yes no rest => do
    let name := branchName source condition
    let guard ← placed name (Guard.parse condition)
    let yes ← operations source (inner "then") 0 yes
    let no ← operations source (inner "else") 0 no
    let rest ← operations source path (i + 1) rest
    pure (.branch name guard yes no rest)
  | .loop decl body rest => do
    let head ← loop source position decl
    let body ← operations source (inner "operations") 0 body
    let rest ← operations source path (i + 1) rest
    pure (.loop head body rest)
  | .audioMap decl rest => do
    let m ← audioMap source decl
    let rest ← operations source path (i + 1) rest
    pure (.audioMap m rest)
  | .unrecognized _ => refuse (.unrecognizedOperation position)
where
  /-- Where the operation at hand is. -/
  position : String := path ++ "[" ++ Text.showNat i ++ "]"
  /-- Where a list inside the operation at hand is. -/
  inner (field : String) : String := path ++ "[" ++ Text.showNat i ++ "]." ++ field

end Compile

namespace Pipeline

/-- The steps of a pipeline, or the first fault in it. -/
def compile (p : Pipeline) : Except Failure Steps :=
  Compile.operations p.name "operations" 0 p.operations

/-- Check a pipeline without running it. -/
def validate (p : Pipeline) : Except Failure Unit := p.compile.map fun _ => ()

end Pipeline

end MediaPipeline
