import MediaPipeline.Document.Decode
import MediaPipeline.Document.Json
import MediaPipeline.Job.Toolbox
import MediaPipeline.Run.State

/-!
# Probing essences

A tool describes the file behind a resource, and what it says becomes parameters
of the resource. Parameters that are set already stay. Afterwards each sequence
takes over what the first of its resources has.
-/

namespace MediaPipeline

open Document

namespace Probe

/-- The tool that describes files. -/
def tool : String := "ffprobe"

/-- The parameter that names the file behind a resource. -/
def essenceParam : String := "essence"

/-- The parameters that probing sets, in the order in which sequences take them over. -/
def params : List String :=
  ["codec", "duration", "width", "height", "frame_rate", "channels", "sample_rate",
    "channel_layout"]

/-! ## Reports -/

/-- What is said of one stream of a file. -/
structure StreamReport where
  kind : Option String
  codec : Option String
  duration : Option String
  width : Option Nat
  height : Option Nat
  frameRate : Option String
  channels : Option Nat
  sampleRate : Option String
  layout : Option String
deriving DecidableEq

/-- What is said of a file. -/
structure Report where
  /-- The duration of the file as a whole. -/
  duration : Option String
  streams : List StreamReport
deriving DecidableEq

/-- A field that may be missing from an object, but not from a list. -/
def mayLack {α : Type} (r : Record) (name : String) (value : Decoder α) : Option (Option α) :=
  if r.positional then r.require name (asOption value) else r.optional name value

/-- A count. -/
def asCount : Decoder Nat := asNat 0x100000000

/-- The report on a stream. -/
def StreamReport.decode : Decoder StreamReport := fun d => do
  let r ← d.asRecord
    ["codec_type", "codec_name", "duration", "width", "height", "r_frame_rate", "channels",
      "sample_rate", "channel_layout"] false
  pure {
    kind := ← mayLack r "codec_type" asText
    codec := ← mayLack r "codec_name" asText
    duration := ← mayLack r "duration" asText
    width := ← mayLack r "width" asCount
    height := ← mayLack r "height" asCount
    frameRate := ← mayLack r "r_frame_rate" asText
    channels := ← mayLack r "channels" asCount
    sampleRate := ← mayLack r "sample_rate" asText
    layout := ← mayLack r "channel_layout" asText }

/-- The duration in the report on a file as a whole. -/
def asFormat : Decoder (Option String) := fun d => do
  mayLack (← d.asRecord ["duration"] false) "duration" asText

/-- The report on a file. -/
def Report.decode : Decoder Report := fun d => do
  let r ← d.asRecord ["format", "streams"] false
  pure {
    duration := (← r.optional "format" asFormat).join
    streams := ← r.withDefault "streams" [] (asList StreamReport.decode) }

/-- The parameters of a stream in a file with this duration. -/
def StreamReport.params (s : StreamReport) (fileDuration : Option String) :
    List (String × String) :=
  let value (name : String) (v : Option String) : List (String × String) :=
    (v.map fun text => (name, text)).toList
  let count (name : String) (v : Option Nat) : List (String × String) :=
    value name (v.map Text.showNat)
  value "codec" s.codec ++ value "duration" (s.duration.or fileDuration) ++
    match s.kind with
    | some "video" =>
      count "width" s.width ++ count "height" s.height ++ value "frame_rate" s.frameRate
    | some "audio" =>
      count "channels" s.channels ++ value "sample_rate" s.sampleRate ++
        value "channel_layout" s.layout
    | _ => []

/-- The parameters that the text of a report gives: those of the first stream. -/
def readReport (text : String) : Except ProbeOutputFault (List (String × String)) :=
  match (Json.parse? text).bind Report.decode with
  | none => .error .notJson
  | some report =>
    match report.streams with
    | [] => .error .noStreams
    | s :: _ => .ok (s.params report.duration)

/-- What went wrong with a report on its own. -/
def faultCause : ProbeOutputFault → Cause
  | .notJson => .json
  | .noStreams => .probe (.output .noStreams)

/-! ## Probing -/

variable {σ : Type}

/-- The arguments that make the tool describe a file. -/
def arguments (file : Path) : List String :=
  ["-v", "quiet", "-print_format", "json", "-show_format", "-show_streams", file.text]

/-- The parameters of a file. -/
def file (host : Host σ) (tool file : Path) : Run σ (List (String × String)) := do
  match ← Run.machine (host.capture tool.text (arguments file)) with
  | .error .notFound => Run.fail (.toolNotFound tool.text)
  | .error e => Run.fail (.system e)
  | .ok r =>
    if r.status.isSuccess then
      match readReport r.output with
      | .ok params => pure params
      | .error fault => Run.fail (.probe (.outputFor file.text fault))
    else Run.fail (.probe (.toolFailed file.text r.status (Text.trimmed r.errors)))

/-- Add a parameter that is not there yet. -/
def addMissing (kind : ContextKind) (scope : Scope) (name value : String) : Run σ Unit := do
  let s ← Run.store
  if s.hasParameter kind scope name then pure ()
  else
    match s.addParameter kind scope name (.keep value) with
    | .ok s => Run.modifyStore fun _ => s
    | .error missing => Run.fail missing.toCause

/-- Add parameters that are not there yet. -/
def addAllMissing (kind : ContextKind) (scope : Scope) : List (String × String) → Run σ Unit
  | [] => pure ()
  | (name, value) :: rest => do
    addMissing kind scope name value
    addAllMissing kind scope rest

/-- The scopes of the resources of a store, in order. -/
def resourceScopes (s : Store) : List Scope :=
  s.segments.flatMap fun segment =>
    s.sequencePairs.flatMap fun q =>
      (s.resourceIds ⟨segment, q.1, q.2⟩).map fun id =>
        ((Scope.global.withSegment segment).withSequence q.1 q.2).withResource id

/-- Probe the resources in some scopes; the number of those that name a file. -/
def resources (host : Host σ) (tools : Toolbox) (workspace : Workspace) :
    List Scope → Run σ Nat
  | [] => pure 0
  | scope :: rest => do
    match (← Run.store).getParameter .resource scope essenceParam with
    | .error _ => resources host tools workspace rest
    | .ok essence => do
      let program ← Run.ofExcept (tools.require tool)
      let found ← file host program (workspace.resolve ⟨essence⟩)
      addAllMissing .resource scope found
      let more ← resources host tools workspace rest
      pure (more + 1)

/-- The scope of the first resource of a sequence, in segment order. -/
def firstResource? (s : Store) (t : SequenceType) (id : SequenceId) : Option Scope :=
  s.segments.findSome? fun segment =>
    (s.resourceIds ⟨segment, t, id⟩).head?.map fun resource =>
      ((Scope.global.withSegment segment).withSequence t id).withResource resource

/-- Let a sequence take over the parameters of a resource that it lacks. -/
def inheritFrom (sequence resource : Scope) : List String → Run σ Unit
  | [] => pure ()
  | name :: rest => do
    match (← Run.store).getParameter .resource resource name with
    | .ok value => addMissing .sequence sequence name value
    | .error _ => pure ()
    inheritFrom sequence resource rest

/-- Let each of some sequences take over what the first of its resources has. -/
def inheritEach : List (SequenceType × SequenceId) → Run σ Unit
  | [] => pure ()
  | (t, id) :: rest => do
    match firstResource? (← Run.store) t id with
    | some resource => inheritFrom (Scope.global.withSequence t id) resource params
    | none => pure ()
    inheritEach rest

/-- Let every sequence take over what the first of its resources has. -/
def inherit : Run σ Unit := do
  inheritEach (← Run.store).sequencePairs

/-- Probe every resource that names a file; how many there were. -/
def populate (host : Host σ) (tools : Toolbox) (workspace : Workspace) : Run σ Nat := do
  let n ← resources host tools workspace (resourceScopes (← Run.store))
  inherit
  pure n

end Probe

end MediaPipeline
