import MediaPipeline.Document.Decode
import MediaPipeline.Job.Failure
import MediaPipeline.Store.Lookup

/-!
# Packages

A package lists the segments, sequences and resources that are converted, with
their initial parameters. Parameters of one entry are ordered by name.
-/

namespace MediaPipeline

open Document

/-- Initial parameters, in order of their names. -/
abbrev InitialParams := List (String × String)

/-- A sequence of a package. -/
structure PackageSequence where
  type : SequenceType
  id : SequenceId
  parameters : InitialParams
deriving DecidableEq

/-- A resource of a package. -/
structure PackageResource where
  key : ResourceKey
  id : ResourceId
  parameters : InitialParams
deriving DecidableEq

/-- A package. -/
structure Package where
  segments : List SegmentId
  sequences : List PackageSequence
  resources : List PackageResource
  /-- Initial dynamic parameters. -/
  dynamic : InitialParams
deriving DecidableEq

/-- A parameter is written as a text, a number or a truth value, and kept as text. -/
def asParamText : Decoder String
  | .text s => some s
  | .number n => some n.render
  | .flag b => some (if b then "true" else "false")
  | _ => none

/-- Initial parameters. -/
def asInitialParams : Decoder InitialParams := asTable asParamText

/-- A sequence of a package. -/
def PackageSequence.decode : Decoder PackageSequence := fun d => do
  let r ← d.asRecord ["type", "id", "parameters"] false
  pure {
    type := ← r.require "type" asSequenceType
    id := ← r.require "id" asSequenceId
    parameters := ← r.withDefault "parameters" [] asInitialParams }

/-- A resource of a package. -/
def PackageResource.decode : Decoder PackageResource := fun d => do
  let r ← d.asRecord ["segment", "sequence", "type", "id", "parameters"] false
  let segment ← r.require "segment" asSegmentId
  let sequence ← r.require "sequence" asSequenceId
  let type ← r.require "type" asSequenceType
  pure {
    key := ⟨segment, type, sequence⟩
    id := ← r.require "id" asResourceId
    parameters := ← r.withDefault "parameters" [] asInitialParams }

namespace Package

/-- A package. -/
def decode : Decoder Package := fun d => do
  let r ← d.asRecord ["segments", "sequences", "resources", "dynamic"] false
  pure {
    segments := ← r.withDefault "segments" [] (asList asSegmentId)
    sequences := ← r.withDefault "sequences" [] (asList PackageSequence.decode)
    resources := ← r.withDefault "resources" [] (asList PackageResource.decode)
    dynamic := ← r.withDefault "dynamic" [] asInitialParams }

/-- Add initial parameters to the entry that a scope names. -/
def addParams (kind : ContextKind) (scope : Scope) (params : InitialParams) (s : Store) :
    Except JobFailure Store :=
  params.foldlM (fun s p =>
    (s.addParameter kind scope p.1 (.keep p.2)).mapError fun missing =>
      .ofCause (.failed (.plain missing.toCause))) s

/-- Register a sequence with its parameters. -/
def addSequence (s : Store) (q : PackageSequence) : Except JobFailure Store :=
  addParams .sequence (Scope.global.withSequence q.type q.id) q.parameters
    (s.addSequence q.type q.id)

/-- Register a resource with its parameters. -/
def addResource (s : Store) (r : PackageResource) : Except JobFailure Store := do
  let s ← (s.addResource r.key r.id).mapError fun cause =>
    (JobFailure.ofCause (.failed (.plain cause))).within (.registering r.id)
  let scope := ((Scope.global.withSegment r.key.segment).withSequence r.key.type
    r.key.sequence).withResource r.id
  addParams .resource scope r.parameters s

/-- The store that a run of the package starts with. -/
def toStore (p : Package) : Except JobFailure Store := do
  let s := p.segments.foldl Store.addSegment .empty
  let s ← p.sequences.foldlM addSequence s
  let s ← p.resources.foldlM addResource s
  pure (p.dynamic.foldl (fun s e => s.setDynamic e.1 e.2) s)

end Package

end MediaPipeline
