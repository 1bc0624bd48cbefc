import MediaPipeline.Template.Reference

/-!
# Words

The words of a directive or a guard. Blanks separate words; quotes group and
disappear; a backslash makes the next character ordinary, except between single
quotes; references and doubled percent signs are recognised everywhere.
-/

namespace MediaPipeline.Template

/-- One element of a word. -/
inductive Atom where
  | char (c : Char)
  | reference (r : Reference)
deriving DecidableEq

/-- A word, quotes removed. -/
abbrev Word := List Atom

namespace Word

/-- The text of a word without references. -/
def literal? : Word → Option (List Char)
  | [] => some []
  | .char c :: w => (literal? w).map (c :: ·)
  | .reference _ :: _ => none

/-- The references of a word, in order. -/
def references (w : Word) : List Reference :=
  w.filterMap fun
    | .reference r => some r
    | .char _ => none

/-- The parts of a word before and after the first `=` that no reference precedes. -/
def splitKey? : Word → Option (List Char × Word)
  | [] => none
  | .reference _ :: _ => none
  | .char c :: w => if c = '=' then some ([], w) else (splitKey? w).map fun p => (c :: p.1, p.2)

/-- Whether some reference of a word reads a dynamic parameter. -/
def dependsOn (w : Word) (var : String) : Bool :=
  w.references.any (·.dependsOn var)

end Word

/-- Where the splitter stands: in a reference whose text so far is given last
character first, or outside one. -/
structure SplitState where
  reference : Option (List Char)
  quote : Option Char
  /-- The word being read, last atom first. -/
  word : Option (List Atom)
deriving DecidableEq

namespace SplitState

/-- Before the first character. -/
def start : SplitState := ⟨none, none, none⟩

/-- Add an atom to the word being read. -/
def push (s : SplitState) (a : Atom) : SplitState :=
  { s with word := some (a :: s.word.getD []) }

/-- Begin a word unless one is being read. -/
def touch (s : SplitState) : SplitState :=
  { s with word := some (s.word.getD []) }

/-- The word being read, if any, in reading order. -/
def pending (s : SplitState) : List Word :=
  (s.word.map List.reverse).toList

end SplitState

/-- The words of the rest of a text. `source` is the whole text, for messages. -/
def splitFrom (source : List Char) (s : SplitState) : List Char → Except Fault (List Word)
  | [] =>
    match s.reference, s.quote with
    | some body, _ => .error (.openReference (openBrace :: body.reverse))
    | none, some q => .error (.openQuoteIn q source)
    | none, none => .ok s.pending
  | c :: cs =>
    match s.reference with
    | some body =>
      if c = closeBrace then
        match Reference.parse body.reverse with
        | .error fault => .error fault
        | .ok r => splitFrom source (SplitState.push { s with reference := none } (.reference r)) cs
      else splitFrom source { s with reference := some (c :: body) } cs
    | none =>
      if c = '%' then
        match cs with
        | [] => splitFrom source (s.push (.char c)) []
        | d :: rest =>
          if d = openBrace then splitFrom source { s with reference := some [] } rest
          else if d = '%' then splitFrom source (s.push (.char c)) rest
          else splitFrom source (s.push (.char c)) (d :: rest)
      else if c = '\\' ∧ s.quote ≠ some '\'' then
        match cs with
        | [] => splitFrom source s.touch []
        | d :: rest => splitFrom source (s.push (.char d)) rest
      else if s.quote = some c then splitFrom source { s with quote := none } cs
      else if (c = '\'' ∨ c = '"') ∧ s.quote = none then
        splitFrom source { s.touch with quote := some c } cs
      else if Text.isBlank c ∧ s.quote = none then
        (splitFrom source { s with word := none } cs).map (s.pending ++ ·)
      else splitFrom source (s.push (.char c)) cs

/-- The words of a directive or guard. -/
def splitWords (text : List Char) : Except Fault (List Word) :=
  splitFrom text .start text

end MediaPipeline.Template
