import MediaPipeline.Text.Integer

/-!
# Arguments

The arguments of a command: options with and without values, and operands. An
option has a name after two dashes and may have a letter after one. A value
follows its option as the next argument, after an equals sign, or right after the
letter. After `--` everything is an operand.
-/

namespace MediaPipeline.CommandLine

/-- An option that a command knows. -/
structure OptionSpec where
  name : String
  letter : Option Char
  takesValue : Bool
deriving DecidableEq

/-- An argument as a command sees it. -/
inductive Argument where
  | flag (name : String)
  | valued (name value : String)
  | operand (text : String)
  /-- Something that no command can read; nothing after it is looked at. -/
  | wrong
deriving DecidableEq

/-- The text after an equals sign in front. -/
def afterEquals (cs : List Char) : List Char :=
  match cs with
  | '=' :: rest => rest
  | _ => cs

/-- Whether an argument can be the value of an option before it. -/
def isValue (arg : String) : Bool := arg == "-" || arg.toList.head? != some '-'

/-- The options of a cluster of letters. The result says which option, if any, takes
the next argument. -/
def readLetters (specs : List OptionSpec) : List Char → List Argument × Option String
  | [] => ([], none)
  | c :: cs =>
    match specs.find? fun s => s.letter == some c with
    | none => ([.wrong], none)
    | some s =>
      if s.takesValue then
        if cs.isEmpty then ([], some s.name)
        else ([.valued s.name (String.ofList (afterEquals cs))], none)
      else
        let (more, waiting) := readLetters specs cs
        (.flag s.name :: more, waiting)

/-- The option with a long name, which may have its value after an equals sign. -/
def readName (specs : List OptionSpec) (cs : List Char) : List Argument × Option String :=
  let (name, rest) := cs.span (· ≠ '=')
  match specs.find? fun s => s.name.toList == name with
  | none => ([.wrong], none)
  | some s =>
    match s.takesValue, rest with
    | false, [] => ([.flag s.name], none)
    | true, [] => ([], some s.name)
    | true, _ :: value => ([.valued s.name (String.ofList value)], none)
    | false, _ :: _ => ([.wrong], none)

/-- The options of one argument, unless it is no option. -/
def readOption? (specs : List OptionSpec) (arg : String) : Option (List Argument × Option String) :=
  match arg.toList with
  | '-' :: '-' :: cs => some (readName specs cs)
  | '-' :: c :: cs => some (readLetters specs (c :: cs))
  | _ => none

/-- The arguments of a command, and what comes after the first operand in which a
command inside it may be named. Without `nested` there is none. -/
def read (specs : List OptionSpec) (nested : Bool) :
    List String → List Argument × Option (String × List String)
  | [] => ([], none)
  | "--" :: rest => (rest.map .operand, none)
  | arg :: rest =>
    match readOption? specs arg with
    | none =>
      if nested then ([], some (arg, rest))
      else
        let r := read specs nested rest
        (.operand arg :: r.1, r.2)
    | some (options, none) =>
      let r := read specs nested rest
      (options ++ r.1, r.2)
    | some (options, some name) =>
      match rest with
      | value :: rest =>
        if isValue value then
          let r := read specs nested rest
          (options ++ .valued name value :: r.1, r.2)
        else (options ++ [.wrong], none)
      | [] => (options ++ [.wrong], none)

end MediaPipeline.CommandLine
