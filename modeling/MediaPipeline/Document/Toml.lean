import MediaPipeline.Document.TomlText

/-!
# TOML text

A reader for TOML 1.0. Tables are built up line by line. A table may be opened
by one header only; one that arose on the way to a deeper header may still be
opened later, and one that arose from a dotted key belongs to the table that
holds the key.
-/

namespace MediaPipeline.Toml

/-- How a table came to be. -/
inductive Origin where
  /-- By a header of its own, or as the value of a key. -/
  | defined
  /-- On the way to the header of a table inside it. -/
  | passed
  /-- By a dotted key. -/
  | dotted
deriving DecidableEq

/-- What a key of a table stands for while the text is read. -/
inductive Item where
  | value (d : Document)
  | table (origin : Origin) (fields : List (String × Item))
  /-- Tables under one repeated header, last first. -/
  | tables (elements : List (List (String × Item)))

/-- The fields of a table while the text is read. -/
abbrev Fields := List (String × Item)

/-- What a key stands for. -/
def find? (name : String) (fields : Fields) : Option Item :=
  (fields.find? fun f => f.1 == name).map (·.2)

/-- Make a key stand for something. -/
def put (name : String) (item : Item) : Fields → Fields
  | [] => [(name, item)]
  | f :: fs => if f.1 = name then (name, item) :: fs else f :: put name item fs

mutual

/-- The value that an item has when the text ends. -/
def Item.toDocument : Item → Document
  | .value d => d
  | .table _ fields => .object (documents fields)
  | .tables elements => .list (elementDocuments elements).reverse

/-- The values of all fields. -/
def documents : List (String × Item) → List (String × Document)
  | [] => []
  | (name, item) :: fs => (name, item.toDocument) :: documents fs

/-- The values of the elements of a repeated table. -/
def elementDocuments : List (List (String × Item)) → List Document
  | [] => []
  | e :: es => .object (documents e) :: elementDocuments es

end

/-! ## Keys with values -/

/-- Enter a value under a dotted key. `origin` says how the table that holds the
key came to be; a table that the key passes must have arisen from dotted keys. -/
def insertDotted (value : Item) : List String → Origin → Fields → Option Fields
  | [], _, _ => none
  | [name], _, fields =>
    if (find? name fields).isSome then none else some (fields ++ [(name, value)])
  | name :: more, _, fields =>
    match find? name fields with
    | none => do
      let inner ← insertDotted value more .dotted []
      some (fields ++ [(name, .table .dotted inner)])
    | some (.table .dotted inner) => do
      let inner ← insertDotted value more .dotted inner
      some (put name (.table .dotted inner) fields)
    | some (.table .passed inner) =>
      -- Keys may go through such a table, but not end in it.
      match more with
      | _ :: _ :: _ => do
        let inner ← insertDotted value more .passed inner
        some (put name (.table .passed inner) fields)
      | _ => none
    | some (.tables (last :: others)) =>
      match more with
      | _ :: _ :: _ => do
        let inner ← insertDotted value more .passed last
        some (put name (.tables (inner :: others)) fields)
      | _ => none
    | _ => none

/-- How deep values may nest. -/
def maxDepth : Nat := 80

mutual

/-- Read a value. `fuel` bounds the number of steps, `depth` the nesting. -/
def readValue : Nat → Nat → List Char → Option (Document × List Char)
  | 0, _, _ => none
  | fuel + 1, depth, cs =>
    match cs, depth with
    | '[' :: _, 0 => none
    | '[' :: rest, depth + 1 => do
      let (items, rest) ← readItems fuel depth true rest
      some (.list items, rest)
    | c :: rest, depth =>
      if c = Char.ofNat 0x7B then
        match depth with
        | 0 => none
        | depth + 1 =>
          match skip rest with
          | d :: after =>
            if d = Char.ofNat 0x7D then some (.object [], after)
            else do
              let (fields, rest) ← readPairs fuel depth [] rest
              some (.object (documents fields), rest)
          | [] => none
      else readScalar (c :: rest)
    | [], _ => none

/-- Read the items of a list up to its closing bracket. A comma may stand after
the last item. -/
def readItems : Nat → Nat → Bool → List Char → Option (List Document × List Char)
  | 0, _, _, _ => none
  | fuel + 1, depth, start, cs =>
    match skipLines cs.length cs with
    | ']' :: rest => some ([], rest)
    | ',' :: rest =>
      if start then none
      else
        match skipLines rest.length rest with
        | ']' :: rest => some ([], rest)
        | rest => do
          let (item, rest) ← readValue fuel depth rest
          let (items, rest) ← readItems fuel depth false rest
          some (item :: items, rest)
    | rest =>
      if start then do
        let (item, rest) ← readValue fuel depth rest
        let (items, rest) ← readItems fuel depth false rest
        some (item :: items, rest)
      else none

/-- Read the pairs of a table on one line up to its closing brace. -/
def readPairs : Nat → Nat → Fields → List Char → Option (Fields × List Char)
  | 0, _, _, _ => none
  | fuel + 1, depth, fields, cs => do
    let (key, rest) ← readKey (cs.length + 1) cs
    match skip rest with
    | '=' :: rest => do
      let (value, rest) ← readValue fuel depth (skip rest)
      let fields ← insertDotted (.value value) key .defined fields
      match skip rest with
      | ',' :: rest => readPairs fuel depth fields rest
      | c :: rest => if c = Char.ofNat 0x7D then some (fields, rest) else none
      | [] => none
    | _ => none

end

/-! ## Headers -/

/-- Change the table that a path leads to. Tables on the way are made where none
is, and the last one is taken of tables under a repeated header. -/
def modifyAt (change : Fields → Option Fields) : List String → Fields → Option Fields
  | [], fields => change fields
  | name :: path, fields =>
    match find? name fields with
    | none => do
      let inner ← modifyAt change path []
      some (fields ++ [(name, .table .passed inner)])
    | some (.table origin inner) => do
      let inner ← modifyAt change path inner
      some (put name (.table origin inner) fields)
    | some (.tables (last :: others)) => do
      let inner ← modifyAt change path last
      some (put name (.tables (inner :: others)) fields)
    | _ => none

/-- Open the table with a name by its own header. -/
def openTable (name : String) (fields : Fields) : Option Fields :=
  match find? name fields with
  | none => some (fields ++ [(name, .table .defined [])])
  | some (.table .passed inner) => some (put name (.table .defined inner) fields)
  | _ => none

/-- Open one more table under a repeated header. -/
def openElement (name : String) (fields : Fields) : Option Fields :=
  match find? name fields with
  | none => some (fields ++ [(name, .tables [[]])])
  | some (.tables elements) => some (put name (.tables ([] :: elements)) fields)
  | _ => none

/-- The text read so far: all tables, and the path of the table that is open. -/
structure Progress where
  root : Fields
  current : List String

/-- Read a header between its brackets; `close` is what ends it. -/
def readHeader (p : Progress) (repeated : Bool) (cs : List Char) :
    Option (Progress × List Char) := do
  let (key, rest) ← readKey (cs.length + 1) cs
  let rest ← word? (if repeated then "]]" else "]") rest
  let rest ← endLine rest
  let name ← key.getLast?
  let root ← modifyAt (if repeated then openElement name else openTable name) key.dropLast p.root
  some (⟨root, key⟩, rest)

/-- Read a line that is not empty. -/
def readLine (p : Progress) (cs : List Char) : Option (Progress × List Char) :=
  match cs with
  | '[' :: '[' :: rest => readHeader p true rest
  | '[' :: rest => readHeader p false rest
  | _ => do
    let (key, rest) ← readKey (cs.length + 1) cs
    match skip rest with
    | '=' :: rest => do
      let (value, rest) ← readValue (2 * rest.length + 2) maxDepth (skip rest)
      let rest ← endLine rest
      let root ← modifyAt (insertDotted (.value value) key .defined) p.current p.root
      some (⟨root, p.current⟩, rest)
    | _ => none

/-- Read the lines of a text. -/
def readLines : Nat → Progress → List Char → Option Progress
  | 0, _, _ => none
  | fuel + 1, p, cs =>
    match skipLines cs.length cs with
    | [] => some p
    | rest => do
      let (p, rest) ← readLine p rest
      readLines fuel p rest

/-- The mark that may stand at the start of a text. -/
def byteOrderMark : Char := Char.ofNat 0xFEFF

/-- The table that a text holds. -/
def parse? (s : String) : Option Document :=
  let cs := match s.toList with
    | c :: rest => if c = byteOrderMark then rest else c :: rest
    | [] => []
  (readLines (cs.length + 1) ⟨[], []⟩ cs).map fun p => .object (documents p.root)

end MediaPipeline.Toml
