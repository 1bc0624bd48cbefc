import MediaPipeline.Shell.Numeral

/-!
# Quoting in messages

How utilities write a word into a message. Bytes that are no plain ASCII characters
are written as escapes, so that a message is always ASCII. Names are written as a
shell would read them back; other words between plain quotes.
-/

namespace MediaPipeline.Machine.Quoting

/-- Whether a byte is written as it is. -/
def isPrintable (b : UInt8) : Bool := 32 ≤ b && b < 127

/-- The character of a byte. -/
def charOf (b : UInt8) : Char := Char.ofNat b.toNat

/-- The escape of a byte that is not printable. -/
def escapeByte (b : UInt8) : List Char :=
  match [7, 8, 9, 10, 11, 12, 13].zip ['a', 'b', 't', 'n', 'v', 'f', 'r'] |>.lookup b with
  | some c => ['\\', c]
  | none =>
    '\\' :: [b.toNat / 64, b.toNat / 8 % 8, b.toNat % 8].map fun d => Char.ofNat (48 + d)

/-- A word between quotes, with escapes. -/
def plain (word : String) : String :=
  let body := word.toUTF8.toList.flatMap fun b =>
    if charOf b = '\'' ∨ charOf b = '\\' then ['\\', charOf b]
    else if isPrintable b then [charOf b]
    else escapeByte b
  String.ofList ('\'' :: body ++ ['\''])

/-- Whether a byte means something to a shell wherever it stands. -/
def isActive (b : UInt8) : Bool :=
  !isPrintable b || "!\"$&()*;<=>[^|?\\".toList.contains (charOf b) || b = 96

/-- Whether the first byte of a name means something to a shell there. -/
def isActiveFirst (name : List UInt8) : Bool :=
  match name with
  | [] => true
  | [b] => "#~\x7b\x7d".toList.contains (charOf b)
  | b :: _ => "#~".toList.contains (charOf b)

/-- Whether a name must be quoted; in front of a colon one that holds a colon too. -/
def needsQuotes (name : List UInt8) : Bool :=
  isActiveFirst name || name.any fun b => isActive b || " ':".toList.contains (charOf b)

/-- Whether bytes may stand between double quotes as they are. -/
def fitsDoubleQuotes (name : List UInt8) : Bool :=
  (name.all fun b => !isActive b) &&
    name.tail.all fun b => !"#~\x7b\x7d".toList.contains (charOf b)

/-- What follows an opening quote. `escaping` says that a part with escapes is open. -/
def quotedRest (escaping : Bool) : List UInt8 → List Char
  | [] => ['\'']
  | b :: bs =>
    if charOf b = '\'' then ['\'', '\\', '\'', '\''] ++ quotedRest false bs
    else if isPrintable b then
      (if escaping then ['\'', '\''] else []) ++ charOf b :: quotedRest false bs
    else (if escaping then [] else ['\'', '$', '\'']) ++ escapeByte b ++ quotedRest true bs

/-- A name as a shell reads it back, between quotes. An apostrophe alone asks for
double quotes. -/
def name (text : String) : String :=
  let bytes := text.toUTF8.toList
  String.ofList (
    if bytes.contains 39 && fitsDoubleQuotes bytes then '"' :: bytes.map charOf ++ ['"']
    else '\'' :: quotedRest false bytes)

/-- A name in front of a colon: quoted only if it must be. -/
def label (text : String) : String :=
  if needsQuotes text.toUTF8.toList then name text else text

end MediaPipeline.Machine.Quoting
