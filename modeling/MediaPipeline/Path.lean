import MediaPipeline.Text.Quoted

/-!
# Paths

A path is kept as it was written; its meaning is a list of components. Repeated
slashes, a slash at the end and a `.` that is not in front mean nothing.
-/

namespace MediaPipeline

/-- A path as it was written. -/
structure Path where
  text : String
deriving DecidableEq

/-- One component of a path. -/
inductive PathPart where
  | root
  /-- A dot in front of a relative path. -/
  | here
  | up
  | name (s : String)
deriving DecidableEq

namespace Path

/-- The pieces of a text between slashes. -/
def pieces : List Char → List (List Char)
  | [] => [[]]
  | c :: cs =>
    if c = '/' then [] :: pieces cs
    else
      match pieces cs with
      | p :: ps => (c :: p) :: ps
      | [] => [[c]]

/-- Whether a path starts at the root. -/
def isAbsolute (p : Path) : Bool := p.text.toList.head? == some '/'

/-- The component that a piece between slashes stands for. -/
def part? (piece : List Char) : Option PathPart :=
  if piece = [] ∨ piece = ['.'] then none
  else if piece = ['.', '.'] then some .up
  else some (.name (String.ofList piece))

/-- The components of a path. -/
def parts (p : Path) : List PathPart :=
  let ps := pieces p.text.toList
  let front : List PathPart :=
    if p.isAbsolute then [.root]
    else if ps.head? = some ['.'] then [.here]
    else []
  front ++ ps.filterMap part?

/-- The last component, if it is a name. -/
def fileName? (p : Path) : Option String :=
  match p.parts.getLast? with
  | some (.name s) => some s
  | _ => none

/-- The text of components. -/
def ofParts : List PathPart → Path
  | .root :: rest => ⟨"/" ++ "/".intercalate (rest.map word)⟩
  | ps => ⟨"/".intercalate (ps.map word)⟩
where
  /-- The text of one component. -/
  word : PathPart → String
    | .root => ""
    | .here => "."
    | .up => ".."
    | .name s => s

/-- The path without its last component; the root and the empty path have none. -/
def parent? (p : Path) : Option Path :=
  match p.parts.getLast? with
  | none | some .root => none
  | _ => some (ofParts p.parts.dropLast)

/-- The last name without its extension; a dot in front starts no extension. -/
def fileStem? (p : Path) : Option String :=
  p.fileName?.map fun name =>
    let reversed := name.toList.reverse
    match reversed.dropWhile (· ≠ '.') with
    | [] => name
    | [_] => name
    | _ :: stem => String.ofList stem.reverse

/-- A path read from a directory: an absolute path stays, another one is written
after the directory. -/
def join (dir p : Path) : Path :=
  if p.isAbsolute then p
  else if dir.text.isEmpty || dir.text.toList.getLast? == some '/' then ⟨dir.text ++ p.text⟩
  else ⟨dir.text ++ "/" ++ p.text⟩

/-- How a path is shown in a message about a file. -/
def quoted (p : Path) : String := Text.quoted p.text

instance : ToString Path := ⟨text⟩

theorem join_of_isAbsolute {dir p : Path} (h : p.isAbsolute = true) : dir.join p = p := by
  simp [join, h]

end Path

end MediaPipeline
