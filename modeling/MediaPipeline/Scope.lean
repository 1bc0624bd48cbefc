import MediaPipeline.Identifier
import MediaPipeline.Text.Lowercase

/-!
# Scopes and the kinds of parameters

The closed choices that the rest of the library speaks of: the type of a
sequence, the kind of a parameter, what happens to a file when a run ends, and
the scope in which a template is read.
-/

namespace MediaPipeline

/-- The type of a sequence. The order of the constructors is the order in which
sequences are visited. -/
inductive SequenceType where
  | video
  | audio
  | subtitle
deriving DecidableEq, Repr

namespace SequenceType

/-- Every type, in visiting order. -/
def all : List SequenceType := [video, audio, subtitle]

/-- The printed name. -/
def name : SequenceType → String
  | video => "video"
  | audio => "audio"
  | subtitle => "subtitle"

instance : ToString SequenceType := ⟨name⟩

/-- The type with exactly this name. -/
def ofName? (s : String) : Option SequenceType :=
  all.find? (·.name == s)

/-- The type a text names in any case, also in the plural `subtitles`; otherwise
a message with the text in lower case. -/
def parse (s : String) : Except String SequenceType :=
  let lowered := Text.lowercase s
  match ofName? lowered with
  | some t => .ok t
  | none =>
    if lowered == "subtitles" then .ok subtitle else .error ("unknown sequence type: " ++ lowered)

end SequenceType

/-- Which store of parameters a reference reads or an assignment writes. -/
inductive ContextKind where
  /-- Values computed during the run. -/
  | dynamic
  /-- Values internal to a pipeline. -/
  | tmp
  /-- Segments, which carry no stored parameters. -/
  | segment
  /-- Parameters of a sequence. -/
  | sequence
  /-- Parameters of a resource. -/
  | resource
deriving DecidableEq, Repr

namespace ContextKind

/-- Every kind. -/
def all : List ContextKind := [dynamic, tmp, segment, sequence, resource]

/-- The spelling inside a reference. -/
def name : ContextKind → String
  | dynamic => "dynamic"
  | tmp => "tmp"
  | segment => "segm"
  | sequence => "seq"
  | resource => "resource"

instance : ToString ContextKind := ⟨name⟩

/-- The kind with exactly this spelling. -/
def ofName? (s : String) : Option ContextKind :=
  all.find? (·.name == s)

/-- What is said of a spelling that names no kind. -/
def unknownMessage (s : String) : String := "unknown context kind: " ++ s

/-- The kind with exactly this spelling, or a message. -/
def parse (s : String) : Except String ContextKind :=
  match ofName? s with
  | some k => .ok k
  | none => .error (unknownMessage s)

/-- Whether a kind has siblings that an index can pick. -/
def isIndexed : ContextKind → Bool
  | dynamic | tmp => false
  | segment | sequence | resource => true

end ContextKind

/-- What happens to the file that a parameter names when the run ends. -/
inductive CleanupPolicy where
  | keep
  | deleteOnExit
  | deleteOnFail
deriving DecidableEq, Repr

namespace CleanupPolicy

/-- Every policy. -/
def all : List CleanupPolicy := [keep, deleteOnExit, deleteOnFail]

/-- The spelling in a pipeline description. -/
def name : CleanupPolicy → String
  | keep => "keep"
  | deleteOnExit => "delete-on-exit"
  | deleteOnFail => "delete-on-fail"

/-- The policy with exactly this spelling. -/
def ofName? (s : String) : Option CleanupPolicy :=
  all.find? (·.name == s)

/-- Whether a file under this policy goes when a run has, or has not, failed. -/
def applies : CleanupPolicy → Bool → Bool
  | keep, _ => false
  | deleteOnExit, _ => true
  | deleteOnFail, failed => failed

end CleanupPolicy

/-- Where a look-up or an operation applies. With no field set it is global. -/
structure Scope where
  segment : Option SegmentId
  sequence : Option (SequenceType × SequenceId)
  resource : Option ResourceId
deriving DecidableEq

namespace Scope

/-- The scope with no field set. -/
def global : Scope := ⟨none, none, none⟩

/-- Enter a segment. -/
def withSegment (s : Scope) (id : SegmentId) : Scope := { s with segment := some id }

/-- Enter a sequence. -/
def withSequence (s : Scope) (t : SequenceType) (id : SequenceId) : Scope :=
  { s with sequence := some (t, id) }

/-- Enter a resource. -/
def withResource (s : Scope) (id : ResourceId) : Scope := { s with resource := some id }

/-- Enter a sequence and leave the resource. -/
def enterSequence (s : Scope) (t : SequenceType) (id : SequenceId) : Scope :=
  { s.withSequence t id with resource := none }

/-- Whether no field is set. -/
def isGlobal (s : Scope) : Bool :=
  s.segment.isNone && s.sequence.isNone && s.resource.isNone

/-- The type of the sequence in scope. -/
def sequenceType? (s : Scope) : Option SequenceType := s.sequence.map (·.1)

/-- The sequence in scope. -/
def sequenceId? (s : Scope) : Option SequenceId := s.sequence.map (·.2)

/-- The parts that are set, in fixed order, or `global`. -/
def render (s : Scope) : String :=
  if s.isGlobal then "global"
  else
    " ".intercalate (
      (s.segment.map fun id => "segment=" ++ toString id).toList ++
      (s.sequence.map fun p => p.1.name ++ "=" ++ toString p.2).toList ++
      (s.resource.map fun id => "resource=" ++ toString id).toList)

end Scope

end MediaPipeline
