import MediaPipeline.Document.Decimal

/-!
# Documents

The value that a description, a package or a configuration file holds, whatever
format it is written in.
-/

namespace MediaPipeline

/-- A number of a document. -/
inductive Number where
  | integer (n : Int)
  | fraction (x : Binary64)
deriving DecidableEq

/-- The text of a number. -/
def Number.render : Number → String
  | integer n => Text.showInt n
  | fraction x => x.render

/-- The value of a document. -/
inductive Document where
  | null
  | flag (b : Bool)
  | number (n : Number)
  | text (s : String)
  | list (items : List Document)
  | object (fields : List (String × Document))
  /-- A value that may be skipped but not read, such as a number out of range. -/
  | unreadable

namespace Document

/-- A whole number. -/
def ofNat (n : Nat) : Document := .number (.integer n)

/-- A list of texts. -/
def texts (l : List String) : Document := .list (l.map .text)

/-- A text, or null. -/
def ofOption : Option String → Document
  | some s => .text s
  | none => .null

/-- The value of the first field with a name. -/
def field? : Document → String → Option Document
  | .object fields, name => (fields.find? fun f => f.1 == name).map (·.2)
  | _, _ => none

end Document

end MediaPipeline
