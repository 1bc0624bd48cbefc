import MediaPipeline.Document.Decode
import MediaPipeline.Pipeline.Declaration

/-!
# Pipelines from documents

The fields of a pipeline description and their defaults. The field `kind` of an
operation, or the first item of one written as a list, says what it is.
-/

namespace MediaPipeline

open Document

/-- A declared command. -/
def CommandDecl.decode : Decoder CommandDecl := fun d => do
  let r ← d.asRecord ["name", "template", "output", "when"] false
  pure {
    name := ← r.require "name" asText
    template := ← r.require "template" asText
    output := ← r.optional "output" asText
    guard := ← r.optional "when" asText }

/-- A declared cycle. -/
def CycleDecl.decode : Decoder CycleDecl := fun d => do
  let r ← d.asRecord ["each", "types", "stages"] false
  pure {
    repetition := ← r.withDefault "each" .once (asChoice Repetition.ofName?)
    types := ← r.withDefault "types" [] (asList asSequenceType)
    stages := ← r.require "stages" (asList CommandDecl.decode) }

/-- A declared pipe. -/
def PipeDecl.decode : Decoder PipeDecl := fun d => do
  let r ← d.asRecord ["name", "when", "cycles", "tail"] false
  pure {
    name := ← r.require "name" asText
    guard := ← r.optional "when" asText
    cycles := ← r.withDefault "cycles" [] (asList CycleDecl.decode)
    tail := ← r.withDefault "tail" [] (asList CommandDecl.decode) }

/-- A declared assignment. -/
def AssignDecl.decode : Decoder AssignDecl := fun d => do
  let r ← d.asRecord ["name", "value", "context", "cleanup", "when"] false
  pure {
    name := ← r.require "name" asText
    value := ← r.require "value" asText
    target := ← r.withDefault "context" .dynamic (asChoice AssignTarget.ofName?)
    cleanup := ← r.withDefault "cleanup" .keep asCleanupPolicy
    guard := ← r.optional "when" asText }

/-- A declared channel mapping. -/
def AudioMapDecl.decode : Decoder AudioMapDecl := fun d => do
  let r ← d.asRecord ["name", "layout", "mapping", "parameter"] false
  pure {
    name := ← r.require "name" asText
    layout := ← r.require "layout" asText
    mapping := ← r.withDefault "mapping" [] (asList asText)
    parameter := ← r.require "parameter" asText }

/-- The kind of an operation, and the operation without it. -/
def splitKind : Document → Option (String × Document)
  | .object fields =>
    match fields.filter fun f => f.1 == "kind" with
    | [(_, .text kind)] => some (kind, .object (fields.filter fun f => f.1 != "kind"))
    | _ => none
  | .list (.text kind :: items) => some (kind, .list items)
  | _ => none

/-- An operation in front of others. `body` reads the lists of operations inside
it. -/
def decodeOperation (body : Decoder Operations) (d : Document) (rest : Operations) :
    Option Operations := do
  let (kind, d) ← splitKind d
  match OperationKind.ofName? kind with
  | some .command => (CommandDecl.decode d).map fun c => .command c rest
  | some .eachSegment => do
    let r ← d.asRecord ["name", "operations"] false
    pure (.eachSegment (← r.optional "name" asText)
      (← r.withDefault "operations" .done body) rest)
  | some .eachSequence => do
    let r ← d.asRecord ["name", "types", "operations"] false
    pure (.eachSequence (← r.optional "name" asText)
      (← r.withDefault "types" [] (asList asSequenceType))
      (← r.withDefault "operations" .done body) rest)
  | some .pipe => (PipeDecl.decode d).map fun p => .pipe p rest
  | some .assign => (AssignDecl.decode d).map fun a => .assign a rest
  | some .branch => do
    let r ← d.asRecord ["condition", "then", "else"] false
    pure (.branch (← r.require "condition" asText)
      (← r.withDefault "then" .done body) (← r.withDefault "else" .done body) rest)
  | some .loop => do
    let r ← d.asRecord ["var", "from", "to", "count", "operations"] false
    let head : LoopDecl := {
      var := ← r.require "var" asText
      first := ← r.optional "from" asText
      last := ← r.optional "to" asText
      count := ← r.optional "count" asText }
    pure (.loop head (← r.withDefault "operations" .done body) rest)
  | some .audioMap => (AudioMapDecl.decode d).map fun m => .audioMap m rest
  | none =>
    match d with
    | .list (_ :: _) => none
    | _ => some (.unrecognized rest)

/-- A list of operations. `fuel` bounds how deep operations nest. -/
def decodeOperations : Nat → Decoder Operations
  | 0, _ => none
  | fuel + 1, .list items => items.foldrM (decodeOperation (decodeOperations fuel)) .done
  | _ + 1, _ => none

/-- A pipeline. -/
def Pipeline.decode : Decoder Pipeline := fun d => do
  let r ← d.asRecord ["name", "operations"] false
  pure {
    name := ← r.withDefault "name" "" asText
    operations := ← r.withDefault "operations" .done (decodeOperations (d.depth + 1)) }

end MediaPipeline
