import MediaPipeline.Scope

/-!
# Pipelines as declared

A pipeline is a named list of operations. At this level every template is still
text, so a declaration may be malformed; compiling it finds that out.
-/

namespace MediaPipeline

/-- A declared command, on its own or as a stage of a pipe. -/
structure CommandDecl where
  name : String
  template : String
  /-- The file that takes what the command prints. -/
  output : Option String
  /-- The guard; without one the command always runs. -/
  guard : Option String
deriving DecidableEq

/-- How often the stages of a cycle run. -/
inductive Repetition where
  | once
  | eachSegment
  | eachSequence
deriving DecidableEq, Repr

namespace Repetition

/-- Every choice. -/
def all : List Repetition := [once, eachSegment, eachSequence]

/-- The spelling in a pipeline description. -/
def name : Repetition → String
  | once => "once"
  | eachSegment => "segment"
  | eachSequence => "sequence"

/-- The choice with exactly this spelling. -/
def ofName? (s : String) : Option Repetition := all.find? (·.name == s)

end Repetition

/-- A declared cycle of a pipe. -/
structure CycleDecl where
  repetition : Repetition
  /-- The types of sequences that are visited; all if none is listed. -/
  types : List SequenceType
  stages : List CommandDecl
deriving DecidableEq

/-- A declared pipe. -/
structure PipeDecl where
  name : String
  guard : Option String
  cycles : List CycleDecl
  tail : List CommandDecl
deriving DecidableEq

/-- Which flat map an assignment writes. -/
inductive AssignTarget where
  | dynamic
  | tmp
deriving DecidableEq, Repr

namespace AssignTarget

/-- Every choice. -/
def all : List AssignTarget := [dynamic, tmp]

/-- The kind of parameter that an assignment writes. -/
def kind : AssignTarget → ContextKind
  | dynamic => .dynamic
  | tmp => .tmp

/-- The spelling in a pipeline description. -/
def name (t : AssignTarget) : String := t.kind.name

/-- The choice with exactly this spelling. -/
def ofName? (s : String) : Option AssignTarget := all.find? (·.name == s)

end AssignTarget

/-- A declared assignment of a parameter. -/
structure AssignDecl where
  name : String
  value : String
  target : AssignTarget
  cleanup : CleanupPolicy
  guard : Option String
deriving DecidableEq

/-- The head of a declared loop. -/
structure LoopDecl where
  var : String
  first : Option String
  last : Option String
  count : Option String
deriving DecidableEq

/-- A declared mapping of audio channels. -/
structure AudioMapDecl where
  name : String
  layout : String
  /-- The entries of the mapping; without entries the default one is used. -/
  mapping : List String
  parameter : String
deriving DecidableEq

/-- A list of declared operations; each constructor but the first carries the
operations after it. -/
inductive Operations where
  | done
  | command (decl : CommandDecl) (rest : Operations)
  | eachSegment (name : Option String) (body rest : Operations)
  | eachSequence (name : Option String) (types : List SequenceType) (body rest : Operations)
  | pipe (decl : PipeDecl) (rest : Operations)
  | assign (decl : AssignDecl) (rest : Operations)
  | branch (condition : String) (yes no rest : Operations)
  | loop (decl : LoopDecl) (body rest : Operations)
  | audioMap (decl : AudioMapDecl) (rest : Operations)
  /-- An operation of a kind that is not known. -/
  | unrecognized (rest : Operations)
deriving DecidableEq

/-- A pipeline. -/
structure Pipeline where
  name : String
  operations : Operations
deriving DecidableEq

/-- The spellings of the kinds of operations. -/
inductive OperationKind where
  | command
  | eachSegment
  | eachSequence
  | pipe
  | assign
  | branch
  | loop
  | audioMap
deriving DecidableEq, Repr

namespace OperationKind

/-- Every kind. -/
def all : List OperationKind :=
  [command, eachSegment, eachSequence, pipe, assign, branch, loop, audioMap]

/-- The spelling in a pipeline description. -/
def name : OperationKind → String
  | command => "exec-once"
  | eachSegment => "exec-each-segment"
  | eachSequence => "exec-each-sequence"
  | pipe => "pipe"
  | assign => "dynamic-parameter"
  | branch => "if"
  | loop => "for"
  | audioMap => "audio-map"

/-- The kind with exactly this spelling. -/
def ofName? (s : String) : Option OperationKind := all.find? (·.name == s)

end OperationKind

/-- How an operation of no known kind is listed. -/
def unrecognizedKind : String := "unrecognized"

namespace Operations

/-- The kinds of the operations of a list, as they are spelled. -/
def kinds : Operations → List String
  | done => []
  | command _ rest => OperationKind.command.name :: rest.kinds
  | eachSegment _ _ rest => OperationKind.eachSegment.name :: rest.kinds
  | eachSequence _ _ _ rest => OperationKind.eachSequence.name :: rest.kinds
  | pipe _ rest => OperationKind.pipe.name :: rest.kinds
  | assign _ rest => OperationKind.assign.name :: rest.kinds
  | branch _ _ _ rest => OperationKind.branch.name :: rest.kinds
  | loop _ _ rest => OperationKind.loop.name :: rest.kinds
  | audioMap _ rest => OperationKind.audioMap.name :: rest.kinds
  | unrecognized rest => unrecognizedKind :: rest.kinds

/-- The number of operations of a list. -/
def length (ops : Operations) : Nat := ops.kinds.length

end Operations

end MediaPipeline
