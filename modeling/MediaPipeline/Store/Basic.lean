import MediaPipeline.Failure
import MediaPipeline.Store.IndexedMap

/-!
# The parameter store

What one run knows about its package and its own values: two flat maps
(`dynamic` and `tmp`), the segments in playback order, the sequences of each
type with their parameters, and the resources of each pair of a segment and a
sequence with theirs. This file holds the data and every operation that changes
it; `Store/Lookup` reads it.
-/

namespace MediaPipeline

/-- A stored value and what happens at the end of the run to the file it names. -/
structure Param where
  value : String
  cleanup : CleanupPolicy
deriving DecidableEq

/-- A value whose file stays. -/
def Param.keep (value : String) : Param := ⟨value, .keep⟩

/-- Parameters by name, in order of first insertion. -/
abbrev ParamMap := IndexedMap String Param

/-- The value of a parameter. -/
def ParamMap.value? (m : ParamMap) (name : String) : Option String :=
  (m.get? name).map (·.value)

/-- A sequence or resource with its parameters. -/
structure Entry (ι : Type) where
  id : ι
  params : ParamMap
deriving DecidableEq

/-- One value for each type of sequence. -/
structure PerType (α : Type) where
  video : α
  audio : α
  subtitle : α
deriving DecidableEq

namespace PerType

variable {α : Type}

/-- The value for a type. -/
def get (p : PerType α) : SequenceType → α
  | .video => p.video
  | .audio => p.audio
  | .subtitle => p.subtitle

/-- Change the value for a type. -/
def modify (p : PerType α) (f : α → α) : SequenceType → PerType α
  | .video => { p with video := f p.video }
  | .audio => { p with audio := f p.audio }
  | .subtitle => { p with subtitle := f p.subtitle }

@[simp] theorem get_modify_self (p : PerType α) (f : α → α) (t : SequenceType) :
    (p.modify f t).get t = f (p.get t) := by
  cases t <;> rfl

theorem get_modify_ne (p : PerType α) (f : α → α) {t t' : SequenceType} (h : t' ≠ t) :
    (p.modify f t).get t' = p.get t' := by
  cases t <;> cases t' <;> first | rfl | exact absurd rfl h

end PerType

/-- The pair of a segment and a sequence to which a resource belongs. -/
structure ResourceKey where
  segment : SegmentId
  type : SequenceType
  sequence : SequenceId
deriving DecidableEq

/-- The parameter store of one run. -/
structure Store where
  dynamic : ParamMap
  tmp : ParamMap
  segments : List SegmentId
  sequences : PerType (List (Entry SequenceId))
  resources : OrderedMap ResourceKey (List (Entry ResourceId))
  /-- The pair to which each registered resource belongs. -/
  owners : OrderedMap ResourceId ResourceKey
deriving DecidableEq

namespace Store

/-- The store that holds nothing. -/
def empty : Store := ⟨.empty, .empty, [], ⟨[], [], []⟩, .empty, .empty⟩

/-! ## Reading the hierarchy -/

/-- The sequences of one type, in order of registration. -/
def sequenceEntries (s : Store) (t : SequenceType) : List (Entry SequenceId) :=
  s.sequences.get t

/-- The identifiers of the sequences of one type. -/
def sequenceIds (s : Store) (t : SequenceType) : List SequenceId :=
  (s.sequenceEntries t).map (·.id)

/-- Every sequence with its type: video first, then audio, then subtitles. -/
def sequencePairs (s : Store) : List (SequenceType × SequenceId) :=
  SequenceType.all.flatMap fun t => (s.sequenceIds t).map fun id => (t, id)

/-- The sequences of the listed types; all sequences when no type is listed. -/
def sequencesOf (s : Store) (types : List SequenceType) : List (SequenceType × SequenceId) :=
  s.sequencePairs.filter fun p => types.isEmpty || types.contains p.1

/-- The resources of one pair, in order of registration. -/
def resourceEntries (s : Store) (key : ResourceKey) : List (Entry ResourceId) :=
  (s.resources.get? key).getD []

/-- The identifiers of the resources of one pair. -/
def resourceIds (s : Store) (key : ResourceKey) : List ResourceId :=
  (s.resourceEntries key).map (·.id)

/-- Every pair of a segment and a sequence, by segment and then by sequence. -/
def resourceKeys (s : Store) : List ResourceKey :=
  s.segments.flatMap fun segment =>
    s.sequencePairs.map fun p => ⟨segment, p.1, p.2⟩

/-! ## Registration -/

/-- Append an entry unless its identifier is present. -/
def register {ι : Type} [DecidableEq ι] (id : ι) (entries : List (Entry ι)) : List (Entry ι) :=
  if entries.any (·.id = id) then entries else entries ++ [⟨id, .empty⟩]

/-- Register a segment; one that is known stays where it is. -/
def addSegment (s : Store) (id : SegmentId) : Store :=
  if id ∈ s.segments then s else { s with segments := s.segments ++ [id] }

/-- Register a sequence; one that is known stays where it is. -/
def addSequence (s : Store) (t : SequenceType) (id : SequenceId) : Store :=
  { s with sequences := s.sequences.modify (register id) t }

/-- The reference that a failed registration names. -/
def registrationFailure (reason : NotFoundReason) : Cause :=
  (NotFound.mk (referenceText .resource "uuid") reason).toCause

/-- Register a resource. Its segment and its sequence must be known, and it must
not belong to another pair. -/
def addResource (s : Store) (key : ResourceKey) (id : ResourceId) : Except Cause Store :=
  if key.segment ∉ s.segments then
    .error (registrationFailure (.unknownSegment key.segment))
  else if key.sequence ∉ s.sequenceIds key.type then
    .error (registrationFailure (.unknownSequence key.type key.sequence))
  else
    let added : Store :=
      { s with
        owners := s.owners.insert id key
        resources := s.resources.insert key (register id (s.resourceEntries key)) }
    match s.owners.get? id with
    | some owner =>
      if owner = key then .ok added
      else .error (.config (.resourceTaken id owner.segment owner.type owner.sequence))
    | none => .ok added

/-! ## Parameters -/

/-- Set a dynamic parameter whose file stays. -/
def setDynamic (s : Store) (name value : String) : Store :=
  { s with dynamic := s.dynamic.insert name (.keep value) }

/-- Set an internal parameter. -/
def setTmp (s : Store) (name value : String) (cleanup : CleanupPolicy) : Store :=
  { s with tmp := s.tmp.insert name ⟨value, cleanup⟩ }

/-- Set a parameter of the entry with an identifier. -/
def setIn {ι : Type} [DecidableEq ι] (id : ι) (name : String) (param : Param)
    (entries : List (Entry ι)) : List (Entry ι) :=
  entries.map fun e => if e.id = id then { e with params := e.params.insert name param } else e

/-- Set a parameter of the sequence in scope. -/
def setSequenceParam (s : Store) (scope : Scope) (name : String) (param : Param) :
    Except NotFoundReason Store :=
  match scope.sequence with
  | none => .error (.missingScope .sequence)
  | some (t, id) =>
    if id ∈ s.sequenceIds t then
      .ok { s with sequences := s.sequences.modify (setIn id name param) t }
    else .error (.unknownSequence t id)

/-- Set a parameter of the resource in scope. -/
def setResourceParam (s : Store) (scope : Scope) (name : String) (param : Param) :
    Except NotFoundReason Store :=
  match scope.segment, scope.sequence, scope.resource with
  | none, _, _ => .error (.missingScope .segment)
  | _, none, _ => .error (.missingScope .sequence)
  | _, _, none => .error (.missingScope .resource)
  | some segment, some (t, sequence), some id =>
    let key : ResourceKey := ⟨segment, t, sequence⟩
    if id ∈ s.resourceIds key then
      .ok { s with
        resources := s.resources.insert key (setIn id name param (s.resourceEntries key)) }
    else .error (.unknownResource id)

/-- Add or replace a parameter. The flat kinds ignore the scope; a parameter of a
sequence or resource goes to the entry that the scope names. -/
def addParameter (s : Store) (kind : ContextKind) (scope : Scope) (name : String)
    (param : Param) : Except NotFound Store :=
  Except.mapError (NotFound.mk (referenceText kind name)) <|
    match kind with
    | .dynamic => .ok { s with dynamic := s.dynamic.insert name param }
    | .tmp => .ok { s with tmp := s.tmp.insert name param }
    | .segment => .error (.noParameters .segment)
    | .sequence => s.setSequenceParam scope name param
    | .resource => s.setResourceParam scope name param

end Store

end MediaPipeline
