import MediaPipeline.Machine.Utility.Basic

/-!
# Files one after the other

`cat` prints files as they are, or line by line with numbers and marks.
-/

namespace MediaPipeline.Machine.Utility

/-- How lines are shown. -/
structure LineStyle where
  numbersAll : Bool
  numbersFull : Bool
  squeezes : Bool
  marksEnds : Bool
  marksTabs : Bool
  marksControls : Bool

namespace LineStyle

/-- Whether bytes are printed as they are. -/
def isPlain (s : LineStyle) : Bool :=
  !(s.numbersAll || s.numbersFull || s.squeezes || s.marksEnds || s.marksTabs || s.marksControls)

/-- The style that options ask for. -/
def ofArguments (a : Arguments) : LineStyle where
  numbersAll := a.has 'n'
  numbersFull := a.has 'b'
  squeezes := a.has 's'
  marksEnds := a.has 'E' || a.has 'A' || a.has 'e'
  marksTabs := a.has 'T' || a.has 'A' || a.has 't'
  marksControls := a.has 'v' || a.has 'A' || a.has 'e' || a.has 't'

/-- How a byte below 128 is shown, where control characters are marked. -/
def showLow (b : UInt8) : List UInt8 :=
  if b < 32 then [94, b + 64] else if b = 127 then [94, 63] else [b]

/-- How a byte inside a line is shown. -/
def showByte (s : LineStyle) (b : UInt8) : List UInt8 :=
  if b = 9 then (if s.marksTabs then [94, 73] else [b])
  else if !s.marksControls then [b]
  else if b < 128 then showLow b
  else [77, 45] ++ showLow (b - 128)

end LineStyle

/-- Where in the lines of all files `cat` is. -/
structure LinePosition where
  /-- The number of the last numbered line. -/
  line : Nat
  atStart : Bool
  /-- Whether the line before is empty. -/
  afterEmpty : Bool

/-- The number of a line in its column. -/
def lineNumber (n : Nat) : List UInt8 :=
  let digits := (toString n).toUTF8.toList
  List.replicate (6 - digits.length) 32 ++ digits ++ [9]

/-- Show bytes. -/
def showLines (s : LineStyle) : LinePosition → List UInt8 → List UInt8 × LinePosition
  | p, [] => ([], p)
  | p, b :: bs =>
    let empty := p.atStart && b = 10
    if empty && p.afterEmpty && s.squeezes then showLines s p bs
    else
      let counts := p.atStart && (if s.numbersFull then !empty else s.numbersAll)
      let line := if counts then p.line + 1 else p.line
      let here :=
        (if counts then lineNumber line else []) ++
        (if b = 10 then (if s.marksEnds then [36, 10] else [10])
        else if b = 13 ∧ s.marksEnds ∧ bs.head? = some 10 then [94, 77]
        else s.showByte b)
      let (rest, p) := showLines s ⟨line, b = 10, if p.atStart then empty else false⟩ bs
      (here ++ rest, p)

/-- Print the content of operands. -/
def catAll (c : UtilityContext) (s : LineStyle) :
    LinePosition → List String → Nat → World → Nat × World
  | _, [], status, w => (status, w)
  | p, operand :: rest, status, w =>
    match readOperand c w none operand with
    | (.ok bytes, w) =>
      if s.isPlain then catAll c s p rest status (w.write c.output bytes).2
      else
        let (out, p) := showLines s p bytes.toList
        catAll c s p rest status (w.write c.output ⟨out.toArray⟩).2
    | (.error e, w) =>
      catAll c s p rest 1 (complain c w (Quoting.label operand ++ ": " ++ e.shortMessage))

/-- The options of `cat`. -/
def catRules : List OptionRule :=
  [⟨'b', "number-nonblank", false⟩, ⟨'n', "number", false⟩, ⟨'s', "squeeze-blank", false⟩,
    ⟨'v', "show-nonprinting", false⟩, ⟨'E', "show-ends", false⟩, ⟨'T', "show-tabs", false⟩,
    ⟨'A', "show-all", false⟩, ⟨'e', "", false⟩, ⟨'t', "", false⟩, ⟨'u', "", false⟩]

/-- Print files, or the input. -/
def cat : Utility := fun c args w =>
  let a := Arguments.read catRules false args
  match a.fault with
  | some text => usage c w text
  | none => catAll c (.ofArguments a) ⟨0, true, false⟩ (orInput a.operands) 0 w

end MediaPipeline.Machine.Utility
