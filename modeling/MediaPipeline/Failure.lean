import MediaPipeline.System
import MediaPipeline.Template.Fault

/-!
# Failures

Why a run, a look-up or a check stopped. A `Cause` says what went wrong; a
`Failure` is a cause, possibly placed in the operation and scope where it arose.
An operation never wraps a failure that already has a place, so a place stands
around a cause only.
-/

namespace MediaPipeline

/-- The declared name of an operation and the pipeline it comes from. -/
structure OperationName where
  id : String
  source : String
deriving DecidableEq

/-- The name, with the pipeline in brackets unless that has no name. -/
def OperationName.render (n : OperationName) : String :=
  if n.source.isEmpty then n.id else n.id ++ " [" ++ n.source ++ "]"

/-- Why a scoped look-up found nothing. -/
inductive NotFoundReason where
  /-- The scope lacks the level that the look-up needs. -/
  | missingScope (level : ContextKind)
  | unknownSegment (id : SegmentId)
  | unknownSequence (type : SequenceType) (id : SequenceId)
  | unknownResource (id : ResourceId)
  | indexOutOfRange (index count : Nat)
  | missingParameter
  /-- This level carries no parameters. -/
  | noParameters (kind : ContextKind)
deriving DecidableEq

namespace NotFoundReason

/-- The level's word in a message. -/
def levelWord : ContextKind → String
  | .segment => "segment"
  | .sequence => "sequence"
  | .resource => "resource"
  | .dynamic => "dynamic"
  | .tmp => "tmp"

/-- The text of a reason. -/
def message : NotFoundReason → String
  | missingScope level => "no " ++ levelWord level ++ " in scope"
  | unknownSegment id => "unknown segment " ++ toString id
  | unknownSequence type id => "unknown " ++ type.name ++ " sequence " ++ toString id
  | unknownResource id => "unknown resource " ++ toString id
  | indexOutOfRange index count =>
    "index " ++ Text.showNat index ++ " out of range (" ++ Text.showNat count ++ " entries)"
  | missingParameter => "not set"
  | noParameters kind => kind.name ++ " context has no stored parameters"

end NotFoundReason

/-- The spelling of a reference in a template. -/
def referenceText (kind : ContextKind) (name : String) : String :=
  "%\x7b" ++ kind.name ++ "." ++ name ++ "\x7d"

/-- An expected absence: the reference and why it led nowhere. -/
structure NotFound where
  reference : String
  reason : NotFoundReason
deriving DecidableEq

/-- The text of an absence. -/
def NotFound.message (n : NotFound) : String :=
  n.reference ++ ": " ++ n.reason.message

/-- Why a reference that must be bound is not. -/
inductive Absence where
  | unbound (reason : NotFoundReason)
  /-- The parameter that names the sibling's position is unset. -/
  | unsetIndex (index : NotFound)
  /-- The parameter that names the sibling's position holds something else. -/
  | badIndex (var value : String)
deriving DecidableEq

/-- The text of an absence. -/
def Absence.message : Absence → String
  | unbound reason => reason.message
  | unsetIndex index => "index " ++ index.message
  | badIndex var value =>
    "index " ++ referenceText .dynamic var ++ " = '" ++ value ++ "' is not a valid position"

/-- What is wrong with a pipeline, a package or a channel mapping. -/
inductive ConfigFault where
  | resourceTaken (resource : ResourceId) (segment : SegmentId) (type : SequenceType)
      (sequence : SequenceId)
  | badMappingEntry (entry : String)
  | mappingLength (layout : String) (channels entries : Nat)
  | noSuchChannel (track available channel : Nat)
  | noSuchTrack (track tracks : Nat)
  | badChannelCount (sequence : SequenceId) (value : String)
  | unknownLayout (name : String)
  | noTail (pipe position : String)
  | badLoopVariable (var position : String)
  | loopBounds (var position : String)
  | loopReadsVariable (var position : String)
  | unrecognizedOperation (position : String)
deriving DecidableEq

/-- The message of a configuration fault. -/
def ConfigFault.message : ConfigFault → String
  | resourceTaken resource segment type sequence =>
    "resource " ++ toString resource ++ " already belongs to segment " ++ toString segment ++ " " ++
      type.name ++ " sequence " ++ toString sequence
  | badMappingEntry entry =>
    "invalid channel mapping entry '" ++ entry ++ "', expected TRACK:CHANNEL or silence"
  | mappingLength layout channels entries =>
    "layout " ++ layout ++ " needs " ++ Text.showNat channels ++ " channels, mapping has " ++
      Text.showNat entries
  | noSuchChannel track available channel =>
    "track " ++ Text.showNat track ++ " has " ++ Text.showNat available ++
      " channels, mapping asks for channel " ++ Text.showNat channel
  | noSuchTrack track tracks =>
    "mapping refers to track " ++ Text.showNat track ++ ", only " ++ Text.showNat tracks ++
      " tracks exist"
  | badChannelCount sequence value =>
    "audio sequence " ++ toString sequence ++ " reports a non-numeric channel count '" ++ value ++
      "'"
  | unknownLayout name => "unknown channel layout '" ++ name ++ "'"
  | noTail pipe position => "pipe '" ++ pipe ++ "' at " ++ position ++ " declares no tail stages"
  | badLoopVariable var position => "invalid loop variable '" ++ var ++ "' at " ++ position
  | loopBounds var position =>
    "loop '" ++ var ++ "' at " ++ position ++ " needs exactly one of 'to' or 'count'"
  | loopReadsVariable var position =>
    "bounds of loop '" ++ var ++ "' at " ++ position ++ " may not reference the loop variable"
  | unrecognizedOperation position => "unrecognized operation kind at " ++ position

/-- Why what a probing tool printed is of no use. -/
inductive ProbeOutputFault where
  | notJson
  | noStreams
deriving DecidableEq

/-- Why probing an essence failed. -/
inductive ProbeFault where
  | output (fault : ProbeOutputFault)
  /-- As `output`, for a named file. -/
  | outputFor (file : String) (fault : ProbeOutputFault)
  | toolFailed (file : String) (status : ExitStatus) (report : String)
deriving DecidableEq

/-- A value of one parameter that two resources of a sequence do not share. -/
structure Mismatch where
  parameter : String
  first : ResourceId
  firstValue : Option String
  other : ResourceId
  otherValue : Option String
deriving DecidableEq

/-- The text of a mismatch. -/
def Mismatch.message (m : Mismatch) : String :=
  m.parameter ++ " differs: resource " ++ toString m.first ++ " has " ++
    m.firstValue.getD "<unset>" ++ ", resource " ++ toString m.other ++ " has " ++
    m.otherValue.getD "<unset>"

/-- What went wrong. -/
inductive Cause where
  /-- A reference has no binding in its scope. -/
  | paramNotFound (reference : String) (absence : Absence)
  /-- A template cannot be parsed or evaluated. -/
  | template (source : String) (fault : Template.Fault)
  | config (fault : ConfigFault)
  /-- The system could not start a process. -/
  | spawn (program operation : String) (error : OsError)
  /-- A process that decides success ended without it. -/
  | processFailed (program operation : String) (status : ExitStatus)
  /-- Resources of one sequence disagree on a parameter. -/
  | homogeneity (sequence : SequenceId) (mismatch : Mismatch)
  | toolNotFound (name : String)
  | probe (fault : ProbeFault)
  | system (error : OsError)
  /-- A text is not the JSON it should be. -/
  | json
  /-- A pipe plan holds a cycle group without stages. -/
  | emptyCycleGroup (pipe : String)
  /-- A size would leave the 64-bit range. This stops the program where it is; in a run it is
  taken for a failure like the others, with its place and with the clean-up after it. -/
  | overflow (calculation : String)
deriving DecidableEq

namespace Cause

/-- What a message about malformed JSON starts with. -/
def jsonMessage : String := "JSON error"

/-- What a message about a failed probe starts with. -/
def probeMessage (detail : String) : String := "probe error: " ++ detail

/-- The message of a fault in a tool's output. -/
def probeOutputMessage : ProbeOutputFault → String
  | .notJson => jsonMessage
  | .noStreams => probeMessage "no streams found"

/-- The message of a cause. -/
def message : Cause → String
  | paramNotFound reference absence =>
    "parameter not found: " ++ reference ++ " (" ++ absence.message ++ ")"
  | template source fault => "template error in '" ++ source ++ "': " ++ fault.message
  | config fault => "configuration error: " ++ fault.message
  | spawn program operation error =>
    "failed to start " ++ program ++ " for " ++ operation ++ ": " ++ error.message
  | processFailed program operation status =>
    program ++ " exited with " ++ status.render ++ " in " ++ operation
  | homogeneity sequence mismatch =>
    "inhomogeneous sequence " ++ toString sequence ++ ": " ++ mismatch.message
  | toolNotFound name => "tool not found: " ++ name
  | probe (.output fault) => probeOutputMessage fault
  | probe (.outputFor file fault) => probeMessage (file ++ ": " ++ probeOutputMessage fault)
  | probe (.toolFailed file status report) =>
    probeMessage ("ffprobe failed on " ++ file ++ " with " ++ status.render ++ ": " ++ report)
  | system error => "IO error: " ++ error.message
  | json => jsonMessage
  | emptyCycleGroup pipe => "internal error: pipe " ++ pipe ++ " contains an empty cycle group"
  | overflow calculation => "attempt to " ++ calculation ++ " with overflow"

end Cause

/-- A cause, with the operation and the scope in which it arose when one is known. -/
inductive Failure where
  | plain (cause : Cause)
  | within (operation : OperationName) (scope : Scope) (cause : Cause)
deriving DecidableEq

namespace Failure

/-- What went wrong, whatever its place. -/
def rootCause : Failure → Cause
  | plain cause => cause
  | within _ _ cause => cause

/-- Place a failure; one that already has a place keeps it. -/
def inOperation (operation : OperationName) (scope : Scope) : Failure → Failure
  | plain cause => within operation scope cause
  | placed => placed

/-- The message of a failure. -/
def message : Failure → String
  | plain cause => cause.message
  | within operation scope cause =>
    "operation " ++ operation.render ++ " failed at " ++ scope.render ++ ": " ++ cause.message

@[simp] theorem rootCause_inOperation (operation : OperationName) (scope : Scope) (f : Failure) :
    (f.inOperation operation scope).rootCause = f.rootCause := by
  cases f <;> rfl

end Failure

/-- An absence that the caller cannot do without. -/
def NotFound.toCause (n : NotFound) : Cause :=
  .paramNotFound n.reference (.unbound n.reason)

/-! ## Computations that may fail -/

section Except

variable {ε α β : Type} {x : Except ε α} {b : β}

/-- A bind that ends well has gone well in both parts. -/
theorem bind_eq_ok {f : α → Except ε β} :
    (x >>= f) = .ok b ↔ ∃ a, x = .ok a ∧ f a = .ok b := by
  cases x with
  | error e => simp [bind, Except.bind]
  | ok a => simp [bind, Except.bind]

/-- A computation whose result is only read in another way fails as before. -/
theorem bind_pure_eq_error {f : α → β} {e : ε} :
    (x >>= fun a => pure (f a)) = .error e ↔ x = .error e := by
  cases x with
  | error c => simp [bind, Except.bind]
  | ok a => simp [bind, Except.bind, pure, Except.pure]

theorem map_eq_ok {f : α → β} : x.map f = .ok b ↔ ∃ a, x = .ok a ∧ f a = b := by
  cases x with
  | error e => simp [Except.map]
  | ok a => simp [Except.map]

theorem mapError_eq_ok {ε' : Type} {f : ε → ε'} {a : α} {x : Except ε α} :
    x.mapError f = .ok a ↔ x = .ok a := by
  constructor
  · intro h
    cases x with
    | error e => cases h
    | ok b => exact congrArg Except.ok (Except.ok.inj h)
  · rintro rfl
    rfl

theorem mapError_eq_error {ε' : Type} {f : ε → ε'} {e' : ε'} {x : Except ε α} :
    x.mapError f = .error e' ↔ ∃ e, x = .error e ∧ f e = e' := by
  constructor
  · intro h
    cases x with
    | error e => exact ⟨e, rfl, Except.error.inj h⟩
    | ok a => cases h
  · rintro ⟨e, rfl, rfl⟩
    rfl

theorem except_map_map {γ : Type} (x : Except ε α) (f : α → β) (g : β → γ) :
    (x.map f).map g = x.map (g ∘ f) := by
  cases x <;> rfl

end Except

end MediaPipeline
