import Mathlib.Tactic.SplitIfs
import MediaPipeline.Template.Arguments
import MediaPipeline.Failure

/-!
# Argument layouts

Splitting output into arguments looks at literal text only. `arrange` splits output in
which a value is a symbol that nobody looks into; putting the values in afterwards gives
what the splitter yields (`splitArguments_eq`), and every symbol of the output has its
place in the layout, in the same order (`arrange_values`).
-/

namespace MediaPipeline.Template

/-- One element of output: a literal character, or a symbol for a value put in. -/
inductive Piece (β : Type) where
  | char (c : Char)
  | value (b : β)
deriving DecidableEq

namespace Piece

variable {β γ : Type}

/-- Replace the symbol for a value. -/
def map (f : β → γ) : Piece β → Piece γ
  | char c => char c
  | value b => value (f b)

/-- The symbol for a value. -/
def value? : Piece β → Option β
  | char _ => none
  | value b => some b

/-- The characters of a piece, given the values. -/
def spell (f : β → String) : Piece β → List Char
  | char c => [c]
  | value b => (f b).toList

end Piece

/-- Pieces that stand together. -/
abbrev Pieces (β : Type) := List (Piece β)

namespace Pieces

variable {β : Type}

/-- The symbols for values, in order. -/
def values (ps : Pieces β) : List β := ps.filterMap Piece.value?

/-- The characters of all pieces, given the values. -/
def spell (f : β → String) (ps : Pieces β) : List Char := ps.flatMap (Piece.spell f)

@[simp] theorem values_append (ps qs : Pieces β) :
    values (ps ++ qs) = ps.values ++ qs.values := List.filterMap_append

@[simp] theorem spell_append (f : β → String) (ps qs : Pieces β) :
    spell f (ps ++ qs) = ps.spell f ++ qs.spell f := List.flatMap_append

end Pieces

/-- The pieces of a chunk. -/
def Chunk.pieces : Chunk → Pieces String
  | text cs => cs.map .char
  | value s => [.value s]

/-! ## Arranging -/

section Arrange

variable {β : Type}

/-- Add a piece to the word at hand. -/
def join (word : Option (Pieces β)) (p : Piece β) : Pieces β := word.getD [] ++ [p]

/-- The words of the rest of some output, given the quote that is open, whether the next
literal character is ordinary, and the word at hand. -/
def arrangeFrom (quote : Option Char) (escaped : Bool) (word : Option (Pieces β)) :
    Pieces β → Except Fault (List (Pieces β))
  | [] =>
    match quote with
    | some q => .error (.openQuote q)
    | none => .ok (if escaped then [join word (.char '\\')] else word.toList)
  | .value b :: ps => arrangeFrom quote escaped (some (join word (.value b))) ps
  | .char c :: ps =>
    if escaped then arrangeFrom quote false (some (join word (.char c))) ps
    else
      match quote with
      | some q =>
        if c = q then arrangeFrom none false word ps
        else if q = '"' ∧ c = '\\' then arrangeFrom (some q) true word ps
        else arrangeFrom (some q) false (some (join word (.char c))) ps
      | none =>
        if c = '\'' ∨ c = '"' then arrangeFrom (some c) false (some (word.getD [])) ps
        else if c = '\\' then arrangeFrom none true (some (word.getD [])) ps
        else if Text.isBlank c then (arrangeFrom none false none ps).map (word.toList ++ ·)
        else arrangeFrom none false (some (join word (.char c))) ps

/-- The words of some output. -/
def arrange (ps : Pieces β) : Except Fault (List (Pieces β)) := arrangeFrom none false none ps

/-- The arguments of a layout, given the values. -/
def fillIn (f : β → String) (layout : List (Pieces β)) : List String :=
  layout.map fun word => String.ofList (word.spell f)

/-- Every value stays where it is among the values. -/
theorem arrangeFrom_values {quote : Option Char} {escaped : Bool} {word : Option (Pieces β)}
    {ps : Pieces β} {layout : List (Pieces β)}
    (h : arrangeFrom quote escaped word ps = .ok layout) :
    layout.flatMap Pieces.values = Pieces.values (word.getD []) ++ Pieces.values ps := by
  induction ps generalizing quote escaped word layout with
  | nil =>
    cases quote with
    | some q => cases h
    | none =>
      obtain rfl := Except.ok.inj h
      cases escaped <;> cases word <;> simp [join, Pieces.values, Piece.value?]
  | cons p ps ih =>
    cases p with
    | value b =>
      rw [ih h]
      simp [join, Pieces.values, Piece.value?]
    | char c =>
      have hc : Pieces.values (.char c :: ps) = Pieces.values ps := rfl
      have hjoin : (join word (.char c)).values = Pieces.values (word.getD []) := by
        simp [join, Pieces.values, Piece.value?]
      rw [hc]
      cases escaped with
      | true =>
        rw [ih h, Option.getD_some, hjoin]
      | false =>
        cases quote with
        | some q =>
          simp only [arrangeFrom, Bool.false_eq_true, if_false] at h
          split_ifs at h
          · exact ih h
          · exact ih h
          · rw [ih h, Option.getD_some, hjoin]
        | none =>
          simp only [arrangeFrom, Bool.false_eq_true, if_false] at h
          split_ifs at h
          · rw [ih h, Option.getD_some]
          · rw [ih h, Option.getD_some]
          · obtain ⟨rest, hrest, rfl⟩ := map_eq_ok.mp h
            rw [List.flatMap_append, ih hrest]
            cases word <;> simp [Pieces.values]
          · rw [ih h, Option.getD_some, hjoin]

theorem arrange_values {ps : Pieces β} {layout : List (Pieces β)} (h : arrange ps = .ok layout) :
    layout.flatMap Pieces.values = ps.values := arrangeFrom_values h

end Arrange

/-! ## The splitter arranges -/

namespace ArgumentBuilder

variable {β : Type} (f : β → String)

/-- Take a piece. -/
def take (b : ArgumentBuilder) : Piece String → ArgumentBuilder
  | .char c => b.char c
  | .value s => b.add (.value s)

theorem foldl_add (b : ArgumentBuilder) (chunks : List Chunk) :
    chunks.foldl add b = (chunks.flatMap Chunk.pieces).foldl take b := by
  have hchunk (b : ArgumentBuilder) (chunk : Chunk) : chunk.pieces.foldl take b = b.add chunk := by
    cases chunk with
    | text cs => exact List.foldl_map
    | value s => rfl
  induction chunks generalizing b with
  | nil => rfl
  | cons chunk chunks ih => rw [List.flatMap_cons, List.foldl_append, hchunk, List.foldl_cons, ih]

/-- A builder whose word at hand is given as pieces. -/
def holding (finished : List (List Char)) (quote : Option Char) (escaped : Bool)
    (word : Option (Pieces β)) : ArgumentBuilder :=
  ⟨finished, word.map (Pieces.spell f), quote, escaped⟩

variable {f} {finished : List (List Char)} {quote : Option Char} {escaped : Bool}
  {word : Option (Pieces β)}

@[simp] theorem holding_quote : (holding f finished quote escaped word).quote = quote := rfl

@[simp] theorem holding_escaped : (holding f finished quote escaped word).escaped = escaped := rfl

theorem take_holding_value (b : β) :
    (holding f finished quote escaped word).take ((Piece.value b).map f) =
      holding f finished quote escaped (some (join word (.value b))) := by
  cases word <;> simp [take, add, holding, join, Piece.map, Pieces.spell, Piece.spell]

theorem push_holding (c : Char) :
    (holding f finished quote escaped word).push c =
      holding f finished quote escaped (some (join word (.char c))) := by
  cases word <;> simp [push, holding, join, Pieces.spell, Piece.spell]

theorem touch_holding :
    (holding f finished quote escaped word).touch =
      holding f finished quote escaped (some (word.getD [])) := by
  cases word <;> simp [touch, holding, Pieces.spell]

theorem endWord_holding :
    (holding f finished quote escaped word).endWord =
      holding f (finished ++ word.toList.map (Pieces.spell f)) quote escaped none := by
  cases word <;> simp [endWord, holding]

theorem finish_holding :
    (holding f finished quote escaped word).finish =
      (arrangeFrom quote escaped word []).map fun ws => finished ++ ws.map (Pieces.spell f) := by
  cases quote with
  | some q => rfl
  | none =>
    cases escaped with
    | true =>
      have h : (holding f finished none true word).finish =
          .ok ((holding f finished none true word).push '\\').endWord.finished := rfl
      rw [h, push_holding, endWord_holding]
      rfl
    | false => cases word <;> rfl

theorem foldl_take_holding (ps : Pieces β) :
    ((ps.map (Piece.map f)).foldl take (holding f finished quote escaped word)).finish =
      (arrangeFrom quote escaped word ps).map fun ws => finished ++ ws.map (Pieces.spell f) := by
  induction ps generalizing finished quote escaped word with
  | nil => exact finish_holding
  | cons p ps ih =>
    rw [List.map_cons, List.foldl_cons]
    cases p with
    | value b => rw [take_holding_value, ih, arrangeFrom]
    | char c =>
      show (List.foldl take ((holding f finished quote escaped word).char c) _).finish = _
      cases escaped with
      | true =>
        have h : (holding f finished quote true word).char c =
            { (holding f finished quote true word).push c with escaped := false } := rfl
        rw [h, push_holding]
        exact @ih finished quote false (some (join word (.char c)))
      | false =>
        simp only [char, holding_escaped, holding_quote, Bool.false_eq_true, if_false, arrangeFrom]
        cases quote with
        | some q =>
          dsimp only
          split_ifs
          · exact @ih finished none false word
          · exact @ih finished (some q) true word
          · rw [push_holding, ih]
        | none =>
          dsimp only
          split_ifs
          · rw [touch_holding]
            exact @ih finished (some c) false (some (word.getD []))
          · rw [touch_holding]
            exact @ih finished none true (some (word.getD []))
          · rw [endWord_holding, ih]
            cases arrangeFrom none false none ps <;> simp [Except.map]
          · rw [push_holding, ih]

end ArgumentBuilder

/-- Splitting arranges the pieces and then puts the values in. -/
theorem splitArguments_eq {β : Type} {f : β → String} {chunks : List Chunk} {ps : Pieces β}
    (h : chunks.flatMap Chunk.pieces = ps.map (Piece.map f)) :
    splitArguments chunks = (arrange ps).map (fillIn f) := by
  have hfold : ((ps.map (Piece.map f)).foldl ArgumentBuilder.take .start).finish = _ :=
    @ArgumentBuilder.foldl_take_holding β f [] none false none ps
  rw [splitArguments, ArgumentBuilder.foldl_add, h, hfold, arrange]
  cases arrangeFrom none false none ps <;> simp [Except.map, fillIn, Function.comp_def]

end MediaPipeline.Template
