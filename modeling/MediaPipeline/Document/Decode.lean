import MediaPipeline.Document.Basic
import MediaPipeline.Scope

/-!
# Reading documents

How values of a document become values of the library. A record is written as an
object, whose unknown fields are skipped, or as a list of its fields in order. A
field may not occur twice, and a field that has no default must be there.
-/

namespace MediaPipeline

/-- Reads a value, unless the document does not fit. -/
abbrev Decoder (α : Type) := Document → Option α

namespace Document

/-! ## Depth -/

mutual

/-- How deep lists and objects nest. -/
def depth : Document → Nat
  | .list items => listDepth items + 1
  | .object fields => fieldDepth fields + 1
  | _ => 0

/-- The depth of the deepest item. -/
def listDepth : List Document → Nat
  | [] => 0
  | d :: ds => max (depth d) (listDepth ds)

/-- The depth of the deepest field. -/
def fieldDepth : List (String × Document) → Nat
  | [] => 0
  | (_, d) :: fs => max (depth d) (fieldDepth fs)

end

/-! ## Plain values -/

/-- A text. -/
def asText : Decoder String
  | .text s => some s
  | _ => none

/-- A truth value. -/
def asFlag : Decoder Bool
  | .flag b => some b
  | _ => none

/-- A whole number below a limit. -/
def asNat (limit : Nat) : Decoder Nat
  | .number (.integer n) => if 0 ≤ n ∧ n < limit then some n.toNat else none
  | _ => none

/-- A list. -/
def asList {α : Type} (item : Decoder α) : Decoder (List α)
  | .list ds => ds.mapM item
  | _ => none

/-- A value, or nothing where null stands. -/
def asOption {α : Type} (value : Decoder α) : Decoder (Option α)
  | .null => some none
  | d => (value d).map some

/-- One of several named choices: its name, or an object that gives the name null. -/
def asChoice {α : Type} (ofName? : String → Option α) : Decoder α
  | .text s => ofName? s
  | .object [(s, .null)] => ofName? s
  | _ => none

/-- Put an entry into a list that is ordered by name. An entry with the same name
is replaced. -/
def insertSorted {α : Type} (name : String) (a : α) : List (String × α) → List (String × α)
  | [] => [(name, a)]
  | e :: rest =>
    if name = e.1 then (name, a) :: rest
    else if name.toList < e.1.toList then (name, a) :: e :: rest
    else e :: insertSorted name a rest

/-- A table of values by name, in order of the names; of two values with one name
the last one counts. -/
def asTable {α : Type} (value : Decoder α) : Decoder (List (String × α))
  | .object fields => do
    let entries ← fields.mapM fun f => (value f.2).map fun a => (f.1, a)
    pure (entries.foldl (fun acc e => insertSorted e.1 e.2 acc) [])
  | _ => none

/-! ## Records -/

/-- The fields of a record, by name. -/
structure Record where
  fields : List (String × Document)
  /-- Whether the record was written as a list. -/
  positional : Bool

/-- The fields of a record with these field names. A list with more items than
names is refused unless `surplus` holds. -/
def asRecord (names : List String) (surplus : Bool) : Decoder Record
  | .object fields =>
    let known := fields.filter fun f => names.contains f.1
    if (known.map (·.1)).Nodup then some ⟨known, false⟩ else none
  | .list items =>
    if surplus || items.length ≤ names.length then some ⟨names.zip items, true⟩ else none
  | _ => none

namespace Record

/-- The value of a field that is there. -/
def get? (r : Record) (name : String) : Option Document :=
  (r.fields.find? fun f => f.1 == name).map (·.2)

/-- A field that must be there. -/
def require {α : Type} (r : Record) (name : String) (value : Decoder α) : Option α := do
  value (← r.get? name)

/-- A field with a default. -/
def withDefault {α : Type} (r : Record) (name : String) (fallback : α) (value : Decoder α) :
    Option α :=
  match r.get? name with
  | some d => value d
  | none => some fallback

/-- A field that may be missing or null. -/
def optional {α : Type} (r : Record) (name : String) (value : Decoder α) : Option (Option α) :=
  r.withDefault name none (asOption value)

end Record

/-! ## Identifiers and choices -/

/-- A type of sequence. -/
def asSequenceType : Decoder SequenceType := asChoice SequenceType.ofName?

/-- A policy for files. -/
def asCleanupPolicy : Decoder CleanupPolicy := asChoice CleanupPolicy.ofName?

/-- The identifier of a segment. -/
def asSegmentId : Decoder SegmentId := fun d => d.asText >>= SegmentId.parse?

/-- The identifier of a sequence. -/
def asSequenceId : Decoder SequenceId := fun d => d.asText >>= SequenceId.parse?

/-- The identifier of a resource. -/
def asResourceId : Decoder ResourceId := fun d => d.asText >>= ResourceId.parse?

end Document

end MediaPipeline
