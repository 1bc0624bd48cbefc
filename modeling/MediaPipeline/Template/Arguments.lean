import MediaPipeline.Template.Fault
import MediaPipeline.Text.Blank

/-!
# Argument vectors

What a template yields is a list of chunks: literal text, and values put in for
references. Literal text is split at blanks and honours quotes and backslashes;
a value joins the word at hand as it is, whatever it holds.
-/

namespace MediaPipeline.Template

/-- A piece of evaluated output. -/
inductive Chunk where
  | text (cs : List Char)
  | value (s : String)
deriving DecidableEq

/-- The characters of a chunk. -/
def Chunk.chars : Chunk → List Char
  | text cs => cs
  | value s => s.toList

/-- An argument vector under construction. -/
structure ArgumentBuilder where
  finished : List (List Char)
  /-- The word at hand. -/
  word : Option (List Char)
  quote : Option Char
  /-- Whether the next literal character is ordinary. -/
  escaped : Bool
deriving DecidableEq

namespace ArgumentBuilder

/-- Before any output. -/
def start : ArgumentBuilder := ⟨[], none, none, false⟩

/-- Add a character to the word at hand. -/
def push (b : ArgumentBuilder) (c : Char) : ArgumentBuilder :=
  { b with word := some (b.word.getD [] ++ [c]) }

/-- Begin a word unless one is at hand. -/
def touch (b : ArgumentBuilder) : ArgumentBuilder :=
  { b with word := some (b.word.getD []) }

/-- End the word at hand, if any. -/
def endWord (b : ArgumentBuilder) : ArgumentBuilder :=
  { b with finished := b.finished ++ b.word.toList, word := none }

/-- Take one literal character. -/
def char (b : ArgumentBuilder) (c : Char) : ArgumentBuilder :=
  if b.escaped then { b.push c with escaped := false }
  else
    match b.quote with
    | some q =>
      if c = q then { b with quote := none }
      else if q = '"' ∧ c = '\\' then { b with escaped := true }
      else b.push c
    | none =>
      if c = '\'' ∨ c = '"' then { b.touch with quote := some c }
      else if c = '\\' then { b.touch with escaped := true }
      else if Text.isBlank c then b.endWord
      else b.push c

/-- Take a chunk. -/
def add (b : ArgumentBuilder) : Chunk → ArgumentBuilder
  | .text cs => cs.foldl char b
  | .value s => { b with word := some (b.word.getD [] ++ s.toList) }

/-- The arguments. A quote must not be left open; a backslash at the very end
stands for itself. -/
def finish (b : ArgumentBuilder) : Except Fault (List (List Char)) :=
  match b.quote with
  | some q => .error (.openQuote q)
  | none => .ok (if b.escaped then b.push '\\' else b).endWord.finished

end ArgumentBuilder

/-- The argument vector of a list of chunks. -/
def splitArguments (chunks : List Chunk) : Except Fault (List String) :=
  (chunks.foldl ArgumentBuilder.add .start).finish.map (·.map String.ofList)

/-- The chunks as one text, blanks at its ends removed. -/
def joinChunks (chunks : List Chunk) : String :=
  String.ofList (Text.trim (chunks.flatMap Chunk.chars))

end MediaPipeline.Template
