import MediaPipeline.Failure

/-!
# References

A reference `%{kind.name}` or `%{kind[index].name}` reads a parameter. The index picks
a sibling by position, written out or held by a dynamic parameter.
-/

namespace MediaPipeline.Template

/-- How a reference picks a sibling. -/
inductive SiblingIndex where
  | position (i : Nat)
  /-- The position that a dynamic parameter holds. -/
  | variable (name : String)
deriving DecidableEq

/-- A parsed reference. -/
structure Reference where
  kind : ContextKind
  index : Option SiblingIndex
  name : String
  /-- The text between the braces. -/
  body : List Char
deriving DecidableEq

/-- The brace that opens a reference. -/
def openBrace : Char := Char.ofNat 0x7B

/-- The brace that closes a reference. -/
def closeBrace : Char := Char.ofNat 0x7D

/-- A reference as it stands in a template, from the text between its braces. -/
def spellingOf (body : List Char) : List Char :=
  '%' :: openBrace :: (body ++ [closeBrace])

/-- The reference as written. -/
def Reference.spelling (r : Reference) : List Char := spellingOf r.body

/-- The reference as written, for messages. -/
def Reference.raw (r : Reference) : String := String.ofList r.spelling

/-- Letters, digits, `_`, `-` and `.`, with a letter or `_` first. Loop variables
and the parameters that hold positions have such names. -/
def isIdentifier : List Char → Bool
  | [] => false
  | c :: cs =>
    (c.isAlpha || c == '_') && cs.all fun d => d.isAlphanum || d == '_' || d == '-' || d == '.'

/-- The parts of a text before and after the first `sep`. -/
def splitOnce (sep : Char) : List Char → Option (List Char × List Char)
  | [] => none
  | c :: cs => if c = sep then some ([], cs) else (splitOnce sep cs).map fun p => (c :: p.1, p.2)

/-- The index between brackets. -/
def parseIndex (raw : String) (text : List Char) : Except Fault SiblingIndex :=
  match Text.size? text with
  | some i => .ok (.position i)
  | none =>
    if isIdentifier text then .ok (.variable (String.ofList text))
    else .error (.invalidIndex raw (String.ofList text))

/-- The kind and the index in front of the parameter's name. -/
def parseHead (raw : String) (head : List Char) :
    Except Fault (List Char × Option SiblingIndex) :=
  match splitOnce '[' head with
  | none => .ok (head, none)
  | some (kind, rest) =>
    if rest.getLast? = some ']' then do
      let index ← parseIndex raw rest.dropLast
      pure (kind, some index)
    else .error (.openIndex raw)

/-- The reference with this text between its braces. -/
def Reference.parse (body : List Char) : Except Fault Reference :=
  let raw := String.ofList (spellingOf body)
  match splitOnce '.' body with
  | none => .error (.noParameterName raw)
  | some (_, []) => .error (.emptyParameterName raw)
  | some (head, name) => do
    let (kindText, index) ← parseHead raw head
    match ContextKind.ofName? (String.ofList kindText) with
    | none => .error (.unknownKind (String.ofList kindText) raw)
    | some kind =>
      if index.isSome && !kind.isIndexed then .error (.notIndexed raw kind)
      else pure ⟨kind, index, String.ofList name, body⟩

/-- Whether a reference reads a dynamic parameter, as its value or as its index. -/
def Reference.dependsOn (r : Reference) (var : String) : Bool :=
  (r.kind == .dynamic && r.name == var) || r.index == some (.variable var)

end MediaPipeline.Template
