import MediaPipeline.Store.Basic

/-!
# Reading the store

Scoped look-ups, listings and scans, and the check that the resources of a
sequence agree. At each level a few names are answered by the store itself:
`uuid`, `index` and `num`, and `type` for a sequence; they come before stored
parameters of the same name.
-/

namespace MediaPipeline.Store

/-- Which entry of a level a look-up addresses. -/
inductive Selector where
  /-- The entry that the scope names. -/
  | current
  /-- The entry at a position, counted from zero. -/
  | index (i : Nat)
deriving DecidableEq

/-- The entry that a selector picks among its siblings, with its position. -/
def pick {α ι : Type} [DecidableEq ι] (siblings : List α) (key : α → ι)
    (current : Except NotFoundReason ι) (unknown : ι → NotFoundReason) :
    Selector → Except NotFoundReason (Nat × α)
  | .index i =>
    match siblings[i]? with
    | some a => .ok (i, a)
    | none => .error (.indexOutOfRange i siblings.length)
  | .current =>
    match current with
    | .error reason => .error reason
    | .ok id =>
      match siblings.zipIdx.find? fun p => key p.1 = id with
      | some p => .ok (p.2, p.1)
      | none => .error (unknown id)

/-- The segment that a selector picks. -/
def segmentAt (s : Store) (scope : Scope) : Selector → Except NotFoundReason (Nat × SegmentId) :=
  pick s.segments id
    (match scope.segment with
      | some id => .ok id
      | none => .error (.missingScope .segment))
    .unknownSegment

/-- The sequence that a selector picks, among those of the type in scope. -/
def sequenceAt (s : Store) (scope : Scope) (selector : Selector) :
    Except NotFoundReason (Nat × Entry SequenceId) :=
  match scope.sequence with
  | none => .error (.missingScope .sequence)
  | some (t, id) => pick (s.sequenceEntries t) (·.id) (.ok id) (.unknownSequence t) selector

/-- The resources of the pair in scope. -/
def resourcesIn (s : Store) (scope : Scope) : Except NotFoundReason (List (Entry ResourceId)) :=
  match scope.segment, scope.sequence with
  | none, _ => .error (.missingScope .segment)
  | _, none => .error (.missingScope .sequence)
  | some segment, some (t, sequence) => .ok (s.resourceEntries ⟨segment, t, sequence⟩)

/-- The resource that a selector picks among its siblings. -/
def resourceAt (siblings : List (Entry ResourceId)) (scope : Scope) :
    Selector → Except NotFoundReason (Nat × Entry ResourceId) :=
  pick siblings (·.id)
    (match scope.resource with
      | some id => .ok id
      | none => .error (.missingScope .resource))
    .unknownResource

/-- A stored value, or the reason that it is not set. -/
def stored (params : ParamMap) (name : String) : Except NotFoundReason String :=
  match params.value? name with
  | some value => .ok value
  | none => .error .missingParameter

/-- What a name means at an entry: its identifier, its position or a stored value. -/
def entryValue {ι : Type} [ToString ι] (name : String) (found : Nat × Entry ι) :
    Except NotFoundReason String :=
  if name = "uuid" then .ok (toString found.2.id)
  else if name = "index" then .ok (Text.showNat found.1)
  else stored found.2.params name

/-- The value of a name in a scope, or the reason that there is none. -/
def find (s : Store) (kind : ContextKind) (scope : Scope) (selector : Selector)
    (name : String) : Except NotFoundReason String :=
  match kind with
  | .dynamic => stored s.dynamic name
  | .tmp => stored s.tmp name
  | .segment =>
    if name = "num" then .ok (Text.showNat s.segments.length)
    else do
      let found ← s.segmentAt scope selector
      if name = "uuid" then .ok (toString found.2)
      else if name = "index" then .ok (Text.showNat found.1)
      else .error (.noParameters .segment)
  | .sequence =>
    match scope.sequenceType? with
    | none => .error (.missingScope .sequence)
    | some t =>
      if name = "num" then .ok (Text.showNat (s.sequenceEntries t).length)
      else if name = "type" then .ok t.name
      else do entryValue name (← s.sequenceAt scope selector)
  | .resource => do
    let siblings ← s.resourcesIn scope
    if name = "num" then .ok (Text.showNat siblings.length)
    else entryValue name (← resourceAt siblings scope selector)

/-- The value of a name in a scope, or the absence of its reference. -/
def lookup (s : Store) (kind : ContextKind) (scope : Scope) (selector : Selector)
    (name : String) : Except NotFound String :=
  Except.mapError (NotFound.mk (referenceText kind name)) (s.find kind scope selector name)

/-- The value of a name for the entry that the scope names. -/
def getParameter (s : Store) (kind : ContextKind) (scope : Scope) (name : String) :
    Except NotFound String :=
  s.lookup kind scope .current name

/-- Whether a name has a value for the entry that the scope names. -/
def hasParameter (s : Store) (kind : ContextKind) (scope : Scope) (name : String) : Bool :=
  (s.getParameter kind scope name).isOk

/-- The identifiers of one level, narrowed by the scope, in order. -/
def uuids (s : Store) (kind : ContextKind) (scope : Scope) : Except NotFound (List String) :=
  Except.mapError (NotFound.mk (referenceText kind "uuid")) <|
    match kind with
    | .segment => .ok (s.segments.map toString)
    | .sequence =>
      match scope.sequenceType? with
      | some t => .ok ((s.sequenceIds t).map toString)
      | none => .ok (s.sequencePairs.map fun p => toString p.2)
    | .resource => (s.resourcesIn scope).map fun l => l.map fun e => toString e.id
    | .dynamic => .error (.noParameters .dynamic)
    | .tmp => .error (.noParameters .tmp)

/-- Every stored parameter of one kind: flat kinds in order of first insertion,
the others entry by entry in the order of the hierarchy. -/
def allParameters (s : Store) : ContextKind → List (String × Param)
  | .dynamic => s.dynamic.entries
  | .tmp => s.tmp.entries
  | .segment => []
  | .sequence =>
    SequenceType.all.flatMap fun t => (s.sequenceEntries t).flatMap fun e => e.params.entries
  | .resource =>
    s.resourceKeys.flatMap fun key => (s.resourceEntries key).flatMap fun e => e.params.entries

/-! ## Agreement within a sequence -/

/-- The resources of a sequence across all segments, in segment order. -/
def resourcesAcross (s : Store) (t : SequenceType) (id : SequenceId) : List (Entry ResourceId) :=
  s.segments.flatMap fun segment => s.resourceEntries ⟨segment, t, id⟩

/-- The first entry whose value of a parameter differs from that of `first`. -/
def firstMismatch? (first : Entry ResourceId) (rest : List (Entry ResourceId)) (name : String) :
    Option Mismatch :=
  (rest.find? fun e => e.params.value? name ≠ first.params.value? name).map fun e =>
    ⟨name, first.id, first.params.value? name, e.id, e.params.value? name⟩

/-- Require the resources of a sequence to agree on each of the names. A value
that only one of two resources has is a mismatch. -/
def checkHomogeneous (s : Store) (t : SequenceType) (id : SequenceId) (names : List String) :
    Except Cause Unit :=
  match s.resourcesAcross t id with
  | [] => .ok ()
  | first :: rest =>
    match names.findSome? (firstMismatch? first rest) with
    | some mismatch => .error (.homogeneity id mismatch)
    | none => .ok ()

end MediaPipeline.Store
