import MediaPipeline.Shell.Numeral

/-!
# Formatted output

The format language of `printf`, which is used again as long as arguments are
left, and the escapes of `echo`. The shell and the utility of this name read it
with small differences.
-/

namespace MediaPipeline.Shell

/-- Who reads a format. -/
inductive FormatReader where
  /-- The program of the machine. -/
  | utility
  /-- The command of the shell itself. -/
  | builtin
deriving DecidableEq

/-- What is wrong with the use of a format. -/
inductive FormatFault where
  | notNumeric (arg : String)
  | partlyNumeric (arg : String)
  | outOfRange (arg : String)
  /-- Text after a character that was given for its code. -/
  | afterCharacter (rest : String)
  /-- Arguments, beginning with this one, for which the format has no place. -/
  | unused (arg : String)
  | unknownConversion (text : String)
  | missingConversion
  | missingDigits
deriving DecidableEq

/-- Whether a fault is only mentioned. -/
def FormatFault.isWarning : FormatFault → Bool
  | .afterCharacter _ | .unused _ => true
  | _ => false

/-- Whether nothing is printed after a fault. -/
def FormatFault.isFatal : FormatFault → Bool
  | .unknownConversion _ | .missingConversion | .missingDigits => true
  | _ => false

/-- One thing that formatting gives. -/
inductive Printed where
  | bytes (b : ByteArray)
  | fault (f : FormatFault)

/-- Formatted output in order, and whether it was cut off. -/
structure Formatted where
  printed : List Printed
  stopped : Bool

namespace Formatted

/-- All bytes of the output. -/
def bytes (f : Formatted) : ByteArray :=
  f.printed.foldl (fun
    | out, .bytes b => out ++ b
    | out, .fault _ => out) .empty

/-- All faults, in order. -/
def faults (f : Formatted) : List FormatFault :=
  f.printed.filterMap fun
    | .fault e => some e
    | .bytes _ => none

/-- Put something in front of output. -/
def after (f : Formatted) (p : List Printed) : Formatted := { f with printed := p ++ f.printed }

/-- The end of all output with a fault. -/
def ended (e : FormatFault) : Formatted := ⟨[.fault e], true⟩

end Formatted

/-- The bytes of characters. -/
def charsBytes (cs : List Char) : ByteArray := (String.ofList cs).toUTF8

/-- The bytes of a character. -/
def charBytes (c : Char) : ByteArray := charsBytes [c]

/-! ## Escapes -/

/-- The character of a one-letter escape. -/
def letterEscape? : Char → Option Nat
  | 'a' => some 7
  | 'b' => some 8
  | 'f' => some 12
  | 'n' => some 10
  | 'r' => some 13
  | 't' => some 9
  | 'v' => some 11
  | '\\' => some 92
  | _ => none

/-- What an escape stands for. -/
inductive Escape where
  | bytes (b : ByteArray)
  | stop
  | missingDigits

/-- The byte with a number, which may be too large for one. -/
def lowByte (n : Nat) : ByteArray := ⟨#[(n % 256).toUInt8]⟩

/-- The escape for a character by its code: plain ASCII, or the code again. -/
def codeEscape (letter : Char) (width n : Nat) : ByteArray :=
  if n < 128 then lowByte n
  else
    let digits := (Nat.toDigits 16 n).map Char.toUpper
    charsBytes (['\\', letter] ++ List.replicate (width - digits.length) '0' ++ digits)

/-- The escapes that only the utility knows. -/
def utilityEscape (c : Char) (cs : List Char) : Escape × List Char :=
  let numbered (limit : Nat) (f : Nat → ByteArray) : Escape × List Char :=
    let (n, rest) := Numeral.readDigits 16 limit cs 0
    (if rest.length < cs.length then .bytes (f n) else .missingDigits, rest)
  match c with
  | '"' => (.bytes (charBytes c), cs)
  | 'x' => numbered 2 lowByte
  | 'u' => numbered 4 (codeEscape 'u' 4)
  | 'U' => numbered 8 fun n => if n < 0x10000 then codeEscape 'u' 4 n else codeEscape 'U' 8 n
  | _ => (.bytes (charsBytes ['\\', c]), cs)

/-- The escape after a backslash, and what follows it. In arguments an octal number
may have one more zero in front. -/
def readEscape (reader : FormatReader) (inArgument : Bool) : List Char → Escape × List Char
  | [] => (.bytes (charBytes '\\'), [])
  | c :: cs =>
    match letterEscape? c with
    | some n => (.bytes (lowByte n), cs)
    | none =>
      if c = 'e' then (.bytes (lowByte 27), cs)
      else if c = 'c' ∧ (inArgument ∨ reader = .utility) then (.stop, cs)
      else if (Numeral.digit? 8 c).isSome then
        let digits := if c = '0' ∧ inArgument then cs else c :: cs
        let (n, rest) := Numeral.readDigits 8 3 digits 0
        (.bytes (lowByte n), rest)
      else if reader = .utility then utilityEscape c cs
      else (.bytes (charsBytes ['\\', c]), cs)

/-- The bytes of an argument with escapes. `fuel` bounds the number of characters. -/
def expandEscapes (reader : FormatReader) : Nat → List Char → Formatted
  | 0, _ => ⟨[], false⟩
  | _ + 1, [] => ⟨[], false⟩
  | fuel + 1, '\\' :: cs =>
    match readEscape reader true cs with
    | (.bytes b, rest) => (expandEscapes reader fuel rest).after [.bytes b]
    | (.stop, _) => ⟨[], true⟩
    | (.missingDigits, _) => .ended .missingDigits
  | fuel + 1, c :: cs => (expandEscapes reader fuel cs).after [.bytes (charBytes c)]

/-! ## Conversions -/

/-- How a value is laid out. -/
structure Layout where
  left : Bool
  zeros : Bool
  plus : Bool
  space : Bool
  /-- Whether the base of a number is shown. -/
  based : Bool
  width : Nat
  precision : Option Nat

/-- Fill bytes up to the width. -/
def Layout.pad (l : Layout) (bytes : ByteArray) : ByteArray :=
  let fill : ByteArray := ⟨Array.replicate (l.width - bytes.size) 32⟩
  if l.left then bytes ++ fill else fill ++ bytes

/-- Lay out a number with its sign. Zero with no digits asked for has none. -/
def Layout.number (l : Layout) (sign digits : List Char) : ByteArray :=
  let digits := if l.precision = some 0 ∧ digits = ['0'] then [] else digits
  let digits := List.replicate (l.precision.getD 0 - digits.length) '0' ++ digits
  let digits :=
    if l.zeros && !l.left && l.precision.isNone then
      List.replicate (l.width - sign.length - digits.length) '0' ++ digits
    else digits
  l.pad (charsBytes (sign ++ digits))

/-- Bring a number into the range of a conversion. An unsigned conversion takes a
negative number for what it is short of one past the largest. -/
def clamp (signed : Bool) (arg : String) (n : Int) : Int × List FormatFault :=
  let largest : Int := if signed then Text.maxInt else Text.sizeLimit - 1
  let smallest : Int := if signed then Text.minInt else 1 - Text.sizeLimit
  if largest < n then (largest, [.outOfRange arg])
  else if n < smallest then (if signed then smallest else largest, [.outOfRange arg])
  else (if n < 0 ∧ !signed then n + Text.sizeLimit else n, [])

/-- The number that an argument stands for, and what is wrong with it. A quote gives
the code of the character after it; an empty argument is zero. -/
def numericArgument (reader : FormatReader) (signed : Bool) (arg : String) :
    Int × List FormatFault :=
  match arg.toList with
  | [] => (0, [])
  | q :: c :: cs =>
    if q = '\'' ∨ q = '"' then
      ((((charBytes c)[0]?).getD 0).toNat,
        if reader = .utility ∧ cs ≠ [] then [.afterCharacter (String.ofList cs)] else [])
    else numeral (q :: c :: cs)
  | cs => if reader = .builtin ∧ (cs = ['\''] ∨ cs = ['"']) then (0, []) else numeral cs
where
  numeral (cs : List Char) : Int × List FormatFault :=
    match Numeral.readInteger cs with
    | none => (0, [.notNumeric arg])
    | some (n, rest) =>
      let (n, faults) := clamp signed arg n
      (n, if faults.isEmpty ∧ rest ≠ [] then [.partlyNumeric arg] else faults)

/-- Read the flags of a conversion. -/
def readFlags (l : Layout) : List Char → Layout × List Char
  | '-' :: cs => readFlags { l with left := true } cs
  | '0' :: cs => readFlags { l with zeros := true } cs
  | '+' :: cs => readFlags { l with plus := true } cs
  | ' ' :: cs => readFlags { l with space := true } cs
  | '#' :: cs => readFlags { l with based := true } cs
  | cs => (l, cs)

/-- Digits as a number, and the rest. -/
def readCount (cs : List Char) : Nat × List Char := Numeral.readDigits 10 cs.length cs 0

/-- A width or precision: digits, or a star that takes an argument. -/
def readExtent (reader : FormatReader) (cs : List Char) (args : List String) :
    Int × List Char × List String :=
  match cs with
  | '*' :: rest => ((numericArgument reader true (args.headD "")).1, rest, args.tail)
  | _ =>
    let (n, rest) := readCount cs
    (n, rest, args)

/-- The layout of a conversion after its percent sign. A negative width puts the
value to the left, and a negative precision is none. -/
def readLayout (reader : FormatReader) (cs : List Char) (args : List String) :
    Layout × List Char × List String :=
  let (l, cs) := readFlags ⟨false, false, false, false, false, 0, none⟩ cs
  let (width, cs, args) := readExtent reader cs args
  let l := { l with width := width.natAbs, left := l.left || width < 0 }
  match cs with
  | '.' :: rest =>
    let (p, cs, args) := readExtent reader rest args
    ({ l with precision := if p < 0 then none else some p.toNat }, cs, args)
  | _ => (l, cs, args)

/-- Drop the letters for the size of a number, which only the utility knows. -/
def dropSizes (reader : FormatReader) (cs : List Char) : List Char :=
  if reader = .utility then cs.dropWhile fun c => "lLhjtz".toList.contains c else cs

/-- Whether a conversion is known with this layout. -/
def Layout.allows (l : Layout) (reader : FormatReader) (kind : Char) : Bool :=
  match kind with
  | 's' | 'c' => reader = .builtin || !(l.zeros || l.based)
  | 'd' | 'i' | 'u' => reader = .builtin || !l.based
  | 'x' | 'X' | 'o' => true
  | 'b' =>
    reader = .builtin || !(l.zeros || l.based || l.left || l.plus || l.space || l.width ≠ 0 ||
      l.precision.isSome)
  | _ => false

/-- The result of one conversion. -/
def convert (reader : FormatReader) (l : Layout) (kind : Char) (arg : String) : Formatted :=
  let limited (bytes : ByteArray) : ByteArray := match l.precision with
    | some n => bytes.extract 0 n
    | none => bytes
  let number (signed : Bool) (lay : Int → ByteArray) : Formatted :=
    let (n, faults) := numericArgument reader signed arg
    ⟨faults.map .fault ++ [.bytes (lay n)], false⟩
  let sign (n : Int) : List Char :=
    if n < 0 then ['-'] else if l.plus then ['+'] else if l.space then [' '] else []
  let hex (lay : List Char → List Char) : Int → ByteArray := fun n =>
    l.number (if l.based && n ≠ 0 then lay ['0', 'x'] else []) (lay (Nat.toDigits 16 n.natAbs))
  match kind with
  | 's' => ⟨[.bytes (l.pad (limited arg.toUTF8))], false⟩
  | 'c' =>
    let byte := if arg.isEmpty then lowByte 0 else arg.toUTF8.extract 0 1
    ⟨[.bytes (l.pad byte)], false⟩
  | 'b' =>
    let f := expandEscapes reader (arg.length + 1) arg.toList
    ⟨.bytes (l.pad (limited f.bytes)) :: f.faults.map .fault, f.stopped⟩
  | 'x' => number false (hex id)
  | 'X' => number false (hex fun cs => cs.map Char.toUpper)
  | 'o' =>
    number false fun n =>
      l.number (if l.based && n ≠ 0 then ['0'] else []) (Nat.toDigits 8 n.natAbs)
  | 'u' => number false fun n => l.number [] (Nat.toDigits 10 n.natAbs)
  | _ => number true fun n => l.number (sign n) (Nat.toDigits 10 n.natAbs)

/-! ## Formats -/

/-- Use a format once: the output, and the arguments that are left. `fuel` bounds
the number of characters. -/
def formatOnce (reader : FormatReader) :
    Nat → List Char → List String → Formatted × List String
  | 0, _, args => (⟨[], true⟩, args)
  | _ + 1, [], args => (⟨[], false⟩, args)
  | fuel + 1, '%' :: '%' :: cs, args =>
    let (f, args) := formatOnce reader fuel cs args
    (f.after [.bytes (charBytes '%')], args)
  | fuel + 1, '%' :: cs, args =>
    let (l, afterLayout, args) := readLayout reader cs args
    let conversion := dropSizes reader afterLayout
    let unknown (rest : List Char) : Formatted × List String :=
      let text := String.ofList ('%' :: cs.take (cs.length - rest.length))
      (.ended (.unknownConversion text), args)
    match conversion with
    | [] => if reader = .builtin then (.ended .missingConversion, args) else unknown []
    | kind :: rest =>
      if l.allows reader kind then
        let here := convert reader l kind (args.headD "")
        if here.stopped then (here, args.tail)
        else
          let (f, args) := formatOnce reader fuel rest args.tail
          (f.after here.printed, args)
      else unknown rest
  | fuel + 1, '\\' :: cs, args =>
    match readEscape reader false cs with
    | (.bytes b, rest) =>
      let (f, args) := formatOnce reader fuel rest args
      (f.after [.bytes b], args)
    | (.stop, _) => (⟨[], true⟩, args)
    | (.missingDigits, _) => (.ended .missingDigits, args)
  | fuel + 1, c :: cs, args =>
    let (f, args) := formatOnce reader fuel cs args
    (f.after [.bytes (charBytes c)], args)

/-- Use a format until no arguments are left, or until it takes none. -/
def formatAll (reader : FormatReader) : Nat → List Char → List String → Formatted
  | 0, _, _ => ⟨[], true⟩
  | fuel + 1, format, args =>
    let (f, rest) := formatOnce reader (format.length + 1) format args
    match rest with
    | [] => f
    | arg :: _ =>
      if f.stopped then f
      else if rest.length = args.length then
        if reader = .utility then ⟨f.printed ++ [.fault (.unused arg)], false⟩ else f
      else (formatAll reader fuel format rest).after f.printed

/-- The output of `printf`. -/
def printFormatted (reader : FormatReader) (format : String) (args : List String) : Formatted :=
  formatAll reader (args.length + 1) format.toList args

end MediaPipeline.Shell
