import MediaPipeline.Machine.Utility.Basic

/-!
# The first part of files

`head` prints so many lines or bytes, or all but so many at the end.
-/

namespace MediaPipeline.Machine.Utility

/-- What a part of a text is counted in. -/
inductive HeadUnit where
  | bytes
  | lines
deriving DecidableEq

namespace HeadUnit

/-- The word for it in messages. -/
def word : HeadUnit → String
  | .bytes => "bytes"
  | .lines => "lines"

end HeadUnit

/-- How much of a text is printed. -/
structure Extent where
  unit : HeadUnit
  count : Nat
  /-- Whether this much is left out at the end. -/
  fromEnd : Bool

/-- The first lines of bytes, with their ends. -/
def firstLines : Nat → List UInt8 → List UInt8
  | 0, _ => []
  | _ + 1, [] => []
  | n + 1, b :: bs => if b = 10 then b :: firstLines n bs else b :: firstLines (n + 1) bs

/-- The number of lines. A last line without an end is one. -/
def lineCount (bytes : List UInt8) : Nat :=
  bytes.count 10 + (if (bytes.getLast?.getD 10) = 10 then 0 else 1)

/-- The part of bytes that is printed. -/
def Extent.take (e : Extent) (bytes : ByteArray) : ByteArray :=
  match e.unit with
  | .bytes => bytes.extract 0 (if e.fromEnd then bytes.size - e.count else e.count)
  | .lines =>
    let all := bytes.toList
    ⟨(firstLines (if e.fromEnd then lineCount all - e.count else e.count) all).toArray⟩

/-- What a unit after a number multiplies it by. -/
def multiplier? (cs : List Char) : Option Nat :=
  match cs with
  | [] => some 1
  | ['b'] => some 512
  | letter :: rest =>
    match "KMGTPE".toList.findIdx? (· = letter.toUpper) with
    | none => none
    | some i =>
      if letter.isLower ∧ letter ≠ 'k' ∧ letter ≠ 'm' then none
      else if rest = [] ∨ rest = ['i', 'B'] then some (Nat.pow 1024 (i + 1))
      else if rest = ['B'] then some (Nat.pow 1000 (i + 1))
      else none

/-- A number of lines or bytes, after blanks and a plus sign. -/
def parseCount (cs : List Char) : Option Nat :=
  let digits := match cs.dropWhile fun c => c = ' ' || (9 ≤ c.toNat && c.toNat ≤ 13) with
    | '+' :: cs => cs
    | cs => cs
  let (n, rest) := Shell.Numeral.readDigits 10 digits.length digits 0
  if rest.length = digits.length ∧ (multiplier? rest).getD 1 = 1 then none
  else (multiplier? rest).map fun m => (if rest.length = digits.length then 1 else n) * m

/-- The extent that the value of an option asks for. -/
def parseExtent (unit : HeadUnit) (value : String) : Except String Extent :=
  let (fromEnd, cs) := match value.toList with
    | '-' :: cs => (true, cs)
    | cs => (false, cs)
  let refused (more : String) : Except String Extent :=
    .error ("invalid number of " ++ unit.word ++ ": " ++ Quoting.plain (String.ofList cs) ++ more)
  match parseCount cs with
  | some n =>
    if Text.sizeLimit ≤ n then refused ": Value too large for defined data type"
    else .ok ⟨unit, n, fromEnd⟩
  | none => refused ""

/-- How `head` was asked to print. -/
structure HeadCall where
  extent : Extent
  /-- Whether titles are printed, if that was said. -/
  titles : Option Bool

/-- The options of `head`. -/
def headRules : List OptionRule :=
  [⟨'c', "bytes", true⟩, ⟨'n', "lines", true⟩, ⟨'q', "quiet", false⟩, ⟨'q', "silent", false⟩,
    ⟨'v', "verbose", false⟩] ++
  "0123456789".toList.map fun c => ⟨c, "", false⟩

/-- Apply options in order. A digit can stand only in the very first option. -/
def applyOptions (h : HeadCall) : List (Char × String) → Except (Bool × String) HeadCall
  | [] => .ok h
  | (letter, value) :: rest =>
    match letter with
    | 'c' | 'n' =>
      match parseExtent (if letter = 'c' then .bytes else .lines) value with
      | .ok e => applyOptions { h with extent := e } rest
      | .error text => .error (false, text)
    | 'q' => applyOptions { h with titles := some false } rest
    | 'v' => applyOptions { h with titles := some true } rest
    | c => .error (true, "invalid trailing option -- " ++ String.ofList [c])

/-- The letters after the number of a first option that is a number. -/
def applyLetters (h : HeadCall) : List Char → Except (Bool × String) HeadCall
  | [] => .ok h
  | c :: cs =>
    let scaled (unit : HeadUnit) (factor : Nat) : HeadCall :=
      { h with extent := ⟨unit, h.extent.count * factor, false⟩ }
    match c with
    | 'c' => applyLetters (scaled .bytes 1) cs
    | 'b' => applyLetters (scaled .bytes 512) cs
    | 'k' => applyLetters (scaled .bytes 1024) cs
    | 'm' => applyLetters (scaled .bytes (1024 * 1024)) cs
    | 'l' => applyLetters (scaled .lines 1) cs
    | 'q' => applyLetters { h with titles := some false } cs
    | 'v' => applyLetters { h with titles := some true } cs
    | c => .error (true, "invalid trailing option -- " ++ String.ofList [c])

/-- The call that words stand for; a refusal says whether the call as such is wrong. -/
def readHead (args : List String) : Except (Bool × String) (HeadCall × List String) := do
  let start : HeadCall := ⟨⟨.lines, 10, false⟩, none⟩
  let (start, args) ← match args with
    | [] => pure (start, [])
    | word :: rest =>
      match word.toList with
      | '-' :: d :: cs =>
        if d.isDigit then
          let (n, letters) := Shell.Numeral.readDigits 10 (d :: cs).length (d :: cs) 0
          pure (← applyLetters ⟨⟨.lines, n, false⟩, none⟩ letters, rest)
        else pure (start, word :: rest)
      | _ => pure (start, word :: rest)
  let a := Arguments.read headRules false args
  let h ← applyOptions start a.options
  match a.fault with
  | some text => .error (true, text)
  | none => pure (h, a.operands)

/-- Print the first part of operands. -/
def headAll (c : UtilityContext) (e : Extent) (titles : Bool) :
    List String → Bool → Nat → World → Nat × World
  | [], _, status, w => (status, w)
  | operand :: rest, first, status, w =>
    let limit := if e.unit = .bytes && !e.fromEnd then some e.count else none
    let titled (w : World) : World :=
      let title := if operand = "-" then "standard input" else operand
      if titles then
        w.print c.output ((if first then "" else "\n") ++ "==> " ++ title ++ " <==\n")
      else w
    match readOperand c w limit operand with
    | (.ok bytes, w) =>
      headAll c e titles rest false status ((titled w).write c.output (e.take bytes)).2
    | (.error .isADirectory, w) =>
      headAll c e titles rest false 1
        (complain c (titled w) ("error reading " ++ Quoting.name operand ++ ": Is a directory"))
    | (.error error, w) =>
      headAll c e titles rest first 1
        (complain c w
          ("cannot open " ++ Quoting.name operand ++ " for reading: " ++ error.shortMessage))

/-- Print the first part of files, or of the input. -/
def head : Utility := fun c args w =>
  match readHead args with
  | .error (true, text) => usage c w text
  | .error (false, text) => fail c w text
  | .ok (h, operands) =>
    let operands := orInput operands
    headAll c h.extent (h.titles.getD (1 < operands.length)) operands true 0 w

end MediaPipeline.Machine.Utility
