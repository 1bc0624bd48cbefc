import MediaPipeline.Machine.Quoting

/-!
# Options of utilities

A word that starts with a dash is a run of one-letter options, one that starts with
two dashes a long option, which may be cut short as long as it stays the only one of
its kind. Everything else is an operand, and so is everything after `--`.
-/

namespace MediaPipeline.Machine

/-- An option of a utility. -/
structure OptionRule where
  letter : Char
  /-- The long name, without dashes; empty if there is none. -/
  long : String
  takesValue : Bool

/-- The words of a call, sorted. -/
structure Arguments where
  /-- Options in order, with their values; an empty text where there is none. -/
  options : List (Char × String)
  operands : List String
  /-- What is wrong with the option after those. -/
  fault : Option String

namespace Arguments

/-- Whether an option was given. -/
def has (a : Arguments) (letter : Char) : Bool := a.options.any fun o => o.1 = letter

/-- The call with more options in front. -/
def withOptions (a : Arguments) (options : List (Char × String)) : Arguments :=
  { a with options := options ++ a.options }

/-- A call that breaks off. -/
def broken (text : String) : Arguments := ⟨[], [], some text⟩

/-- The options of a run of letters. The last one may take the next word as its
value; whether it does is said as well. -/
def readLetters (rules : List OptionRule) (next : Option String) :
    List Char → Except String Bool × List (Char × String)
  | [] => (.ok false, [])
  | c :: cs =>
    match rules.find? fun r => r.letter = c with
    | none => (.error ("invalid option -- " ++ Quoting.plain (String.ofList [c])), [])
    | some r =>
      if r.takesValue then
        if cs.isEmpty then
          match next with
          | some v => (.ok true, [(c, v)])
          | none =>
            (.error ("option requires an argument -- " ++ Quoting.plain (String.ofList [c])), [])
        else (.ok false, [(c, String.ofList cs)])
      else
        let (r, options) := readLetters rules next cs
        (r, (c, "") :: options)

/-- The rules that a long name may mean: those with this very name, or those whose
name starts so. -/
def matching (rules : List OptionRule) (name : String) : List OptionRule :=
  let same := rules.filter fun r => r.long = name
  if same.isEmpty then
    rules.filter fun r => r.long ≠ "" && name.toList.isPrefixOf r.long.toList
  else same

/-- A long option without its dashes. -/
def readLong (rules : List OptionRule) (next : Option String) (text : List Char) :
    Except String Bool × List (Char × String) :=
  let (nameChars, value) := text.span (· ≠ '=')
  let name := String.ofList nameChars
  let found := matching rules name
  match found with
  | [] => (.error ("unrecognized option '--" ++ String.ofList text ++ "'"), [])
  | r :: others =>
    if others.any fun o => o.letter ≠ r.letter then
      (.error ("option '--" ++ String.ofList text ++ "' is ambiguous; possibilities:" ++
        String.join (found.map fun r => " '--" ++ r.long ++ "'")), [])
    else
      match r.takesValue, value, next with
      | false, [], _ => (.ok false, [(r.letter, "")])
      | false, _ :: _, _ => (.error ("option '--" ++ r.long ++ "' doesn't allow an argument"), [])
      | true, _ :: v, _ => (.ok false, [(r.letter, String.ofList v)])
      | true, [], some v => (.ok true, [(r.letter, v)])
      | true, [], none => (.error ("option '--" ++ r.long ++ "' requires an argument"), [])

/-- Sort the words of a call. With `early` the first operand ends the options. -/
def read (rules : List OptionRule) (early : Bool) : List String → Arguments
  | [] => ⟨[], [], none⟩
  | word :: rest =>
    let next := rest.head?
    let options : Option (Except String Bool × List (Char × String)) :=
      match word.toList with
      | ['-', '-'] => none
      | '-' :: '-' :: cs => some (readLong rules next cs)
      | '-' :: c :: cs => some (readLetters rules next (c :: cs))
      | _ => none
    match options with
    | some (.error text, options) => (broken text).withOptions options
    | some (.ok false, options) => (read rules early rest).withOptions options
    | some (.ok true, options) =>
      match rest with
      | _ :: rest => (read rules early rest).withOptions options
      | [] => ⟨options, [], none⟩
    | none =>
      if word = "--" then ⟨[], rest, none⟩
      else if early then ⟨[], word :: rest, none⟩
      else
        let a := read rules early rest
        { a with operands := word :: a.operands }

end Arguments

end MediaPipeline.Machine
