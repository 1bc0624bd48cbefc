import MediaPipeline.Document.Basic

/-!
# Words of TOML

Blanks, line ends, comments, strings, numbers and dates: everything of TOML 1.0
that does not nest. A reader yields a value and the rest of the text.
-/

namespace MediaPipeline.Toml

/-! ## Blanks and lines -/

/-- Blanks within a line. -/
def isSpace (c : Char) : Bool := c == ' ' || c == '\t'

/-- Skip blanks within a line. -/
def skip (cs : List Char) : List Char := cs.dropWhile isSpace

/-- Characters of a comment: everything but control characters, tabs aside. -/
def isCommentChar (c : Char) : Bool := c == '\t' || (0x20 ≤ c.toNat && c.toNat ≠ 0x7F)

/-- The rest after a line break. -/
def newline? : List Char → Option (List Char)
  | '\n' :: cs => some cs
  | '\r' :: '\n' :: cs => some cs
  | _ => none

/-- Skip a comment, if one follows. -/
def skipComment : List Char → List Char
  | '#' :: cs => cs.dropWhile isCommentChar
  | cs => cs

/-- The rest after blanks, a comment and the end of the line or text. -/
def endLine (cs : List Char) : Option (List Char) :=
  match skipComment (skip cs) with
  | [] => some []
  | rest => newline? rest

/-- Skip blanks, line breaks and comments. -/
def skipLines : Nat → List Char → List Char
  | 0, cs => cs
  | fuel + 1, cs =>
    let rest := skipComment (skip cs)
    match newline? rest with
    | some after => skipLines fuel after
    | none => rest

/-! ## Strings -/

/-- The value of a run of hexadecimal digits. -/
def hex? (cs : List Char) : Option Nat :=
  cs.foldlM (fun n c =>
    (if 'a' ≤ c ∧ c ≤ 'f' then some (c.toNat - 'a'.toNat + 10)
    else if 'A' ≤ c ∧ c ≤ 'F' then some (c.toNat - 'A'.toNat + 10)
    else Text.digit? c).map (n * 16 + ·)) 0

/-- The character with a code point. -/
def scalar? (n : Nat) : Option Char := if n.isValidChar then some (Char.ofNat n) else none

/-- The character of an escape, after the backslash. -/
def readEscape : List Char → Option (Char × List Char)
  | 'b' :: cs => some ('\x08', cs)
  | 't' :: cs => some ('\t', cs)
  | 'n' :: cs => some ('\n', cs)
  | 'f' :: cs => some ('\x0c', cs)
  | 'r' :: cs => some ('\r', cs)
  | '"' :: cs => some ('"', cs)
  | '\\' :: cs => some ('\\', cs)
  | 'u' :: cs =>
    if cs.length < 4 then none
    else ((hex? (cs.take 4)).bind scalar?).map fun c => (c, cs.drop 4)
  | 'U' :: cs =>
    if cs.length < 8 then none
    else ((hex? (cs.take 8)).bind scalar?).map fun c => (c, cs.drop 8)
  | _ => none

/-- The rest of a string on one line. `acc` is what was read, last first. -/
def readLineString (quote : Char) : Nat → List Char → List Char → Option (String × List Char)
  | 0, _, _ => none
  | fuel + 1, acc, cs =>
    match cs with
    | [] => none
    | c :: rest =>
      if c = quote then some (String.ofList acc.reverse, rest)
      else if c = '\\' ∧ quote = '"' then do
        let (e, rest) ← readEscape rest
        readLineString quote fuel (e :: acc) rest
      else if isCommentChar c then readLineString quote fuel (c :: acc) rest
      else none

/-- Skip blanks and line breaks. -/
def skipBlanks : Nat → List Char → List Char
  | 0, cs => cs
  | fuel + 1, cs =>
    match newline? (skip cs) with
    | some rest => skipBlanks fuel rest
    | none => skip cs

/-- The rest of a string of several lines. Three quotes end it; one or two more
directly before them belong to it. A backslash at the end of a line skips all
blanks and line breaks after it. -/
def readBlockString (quote : Char) : Nat → List Char → List Char → Option (String × List Char)
  | 0, _, _ => none
  | fuel + 1, acc, cs =>
    match newline? cs with
    | some rest => readBlockString quote fuel ('\n' :: acc) rest
    | none =>
      match cs with
      | [] => none
      | c :: rest =>
        if c = quote then
          let run := 1 + (rest.takeWhile (· = quote)).length
          if run < 3 then readBlockString quote fuel (c :: acc) rest
          else
            let extra := min (run - 3) 2
            some (String.ofList (List.replicate extra quote ++ acc).reverse, cs.drop (3 + extra))
        else if c = '\\' ∧ quote = '"' then
          match newline? (skip rest) with
          | some after => readBlockString quote fuel acc (skipBlanks fuel after)
          | none => do
            let (e, rest) ← readEscape rest
            readBlockString quote fuel (e :: acc) rest
        else if isCommentChar c then readBlockString quote fuel (c :: acc) rest
        else none

/-- A string of any of the four forms. -/
def readString (cs : List Char) : Option (String × List Char) :=
  match cs with
  | q :: rest =>
    if q = '"' ∨ q = '\'' then
      match rest with
      | a :: b :: body =>
        if a = q ∧ b = q then
          readBlockString q (body.length + 1) [] ((newline? body).getD body)
        else readLineString q (rest.length + 1) [] rest
      | _ => readLineString q (rest.length + 1) [] rest
    else none
  | [] => none

/-! ## Keys -/

/-- Characters of a key without quotes. -/
def isKeyChar (c : Char) : Bool := c.isAlphanum || c == '-' || c == '_'

/-- One part of a key. -/
def readKeyPart (cs : List Char) : Option (String × List Char) :=
  match cs with
  | '"' :: rest => readLineString '"' (rest.length + 1) [] rest
  | '\'' :: rest => readLineString '\'' (rest.length + 1) [] rest
  | _ =>
    let p := cs.span isKeyChar
    if p.1.isEmpty then none else some (String.ofList p.1, p.2)

/-- A key: parts with dots between them. -/
def readKey : Nat → List Char → Option (List String × List Char)
  | 0, _ => none
  | fuel + 1, cs => do
    let (part, rest) ← readKeyPart (skip cs)
    match skip rest with
    | '.' :: rest => do
      let (parts, rest) ← readKey fuel rest
      some (part :: parts, rest)
    | rest => some ([part], rest)

/-! ## Numbers and dates -/

/-- Digits of a base, with single underscores between them. -/
def readDigits (isDigit : Char → Bool) : Nat → List Char → Option (List Char × List Char)
  | 0, _ => none
  | fuel + 1, cs =>
    let p := cs.span isDigit
    if p.1.isEmpty then none
    else
      match p.2 with
      | '_' :: rest => do
        let (more, rest) ← readDigits isDigit fuel rest
        some (p.1 ++ more, rest)
      | rest => some (p.1, rest)

/-- A whole number in a base that a letter after a zero names. -/
def readPrefixed (base : Nat) (isDigit : Char → Bool) (cs : List Char) :
    Option (Document × List Char) := do
  let (digits, rest) ← readDigits isDigit (cs.length + 1) cs
  let n ← digits.foldlM (fun n c => (hex? [c]).map (n * base + ·)) 0
  if (n : Int) ≤ Text.maxInt then some (.number (.integer n), rest) else none

/-- The digits after a point, if there is one. -/
def readDecimals (cs : List Char) : Option (List Char × List Char) :=
  match cs with
  | '.' :: rest => readDigits Char.isDigit (rest.length + 1) rest
  | _ => some ([], cs)

/-- The exponent, if there is one. -/
def readExponent (cs : List Char) : Option (Option Int × List Char) :=
  match cs with
  | c :: rest =>
    if c = 'e' ∨ c = 'E' then do
      let (negative, body) := match rest with
        | '-' :: body => (true, body)
        | '+' :: body => (false, body)
        | body => (false, body)
      let (digits, rest) ← readDigits Char.isDigit (body.length + 1) body
      let n ← Text.digits? digits
      some (some (if negative then -(n : Int) else (n : Int)), rest)
    else some (none, cs)
  | [] => some (none, [])

/-- How far an exponent matters: beyond this every number is zero or too large. -/
def exponentLimit : Nat := 100000

/-- A number in base ten, after its sign. A fraction that is too large is refused; one
that is too far below zero is infinite. -/
def readDecimal (negative : Bool) (cs : List Char) : Option (Document × List Char) := do
  let (whole, rest) ← readDigits Char.isDigit (cs.length + 1) cs
  if whole.head? = some '0' ∧ whole.length ≠ 1 then none
  else
    let (decimals, rest) ← readDecimals rest
    let (exponent, rest) ← readExponent rest
    if decimals.isEmpty ∧ exponent.isNone then do
      let n ← Text.digits? whole
      let value : Int := if negative then -(n : Int) else n
      if Text.minInt ≤ value ∧ value ≤ Text.maxInt then some (.number (.integer value), rest)
      else none
    else do
      let digits ← Text.digits? (whole ++ decimals)
      let e := max (-(exponentLimit : Int)) (min exponentLimit (exponent.getD 0))
      match Binary64.ofDecimal? negative digits (e - decimals.length) with
      | some x => some (.number (.fraction x), rest)
      | none => if negative then some (.unreadable, rest) else none

/-- The number that some digits stand for, if it is in a range. -/
def inRange (low high : Nat) (cs : List Char) : Option Nat := do
  let n ← Text.digits? cs
  if low ≤ n ∧ n ≤ high then some n else none

/-- Whether a year is a leap year. -/
def isLeap (year : Nat) : Bool := year % 4 = 0 && (year % 100 ≠ 0 || year % 400 = 0)

/-- The number of days of a month. -/
def monthLength (year month : Nat) : Nat :=
  if month = 2 then if isLeap year then 29 else 28
  else if month = 4 ∨ month = 6 ∨ month = 9 ∨ month = 11 then 30
  else 31

/-- A date `YYYY-MM-DD`. -/
def readDate (cs : List Char) : Option (List Char × List Char) := do
  if cs[4]? = some '-' ∧ cs[7]? = some '-' ∧ 10 ≤ cs.length then
    let year ← inRange 0 9999 (cs.take 4)
    let month ← inRange 1 12 ((cs.drop 5).take 2)
    let _ ← inRange 1 (monthLength year month) ((cs.drop 8).take 2)
    some (cs.take 10, cs.drop 10)
  else none

/-- A time `HH:MM:SS` with an optional fraction. -/
def readTime (cs : List Char) : Option (List Char × List Char) := do
  if cs[2]? = some ':' ∧ cs[5]? = some ':' ∧ 8 ≤ cs.length then
    let _ ← inRange 0 23 (cs.take 2)
    let _ ← inRange 0 59 ((cs.drop 3).take 2)
    let _ ← inRange 0 60 ((cs.drop 6).take 2)
    match cs.drop 8 with
    | '.' :: rest =>
      let p := rest.span Char.isDigit
      if p.1.isEmpty then none else some (cs.take 8 ++ '.' :: p.1, p.2)
    | rest => some (cs.take 8, rest)
  else none

/-- The offset of a time, if there is one. -/
def readOffset (cs : List Char) : Option (List Char × List Char) :=
  match cs with
  | c :: rest =>
    if c = 'Z' ∨ c = 'z' then some (['Z'], rest)
    else if (c = '+' ∨ c = '-') ∧ 5 ≤ rest.length ∧ rest[2]? = some ':' then do
      let _ ← inRange 0 23 (rest.take 2)
      let _ ← inRange 0 59 ((rest.drop 3).take 2)
      some (c :: rest.take 5, rest.drop 5)
    else some ([], cs)
  | [] => some ([], [])

/-- The field under which a date is found when it is read as an object. -/
def dateField : String := "$__toml_private_datetime"

/-- A date as a value. -/
def dateValue (cs : List Char) : Document :=
  .object [(dateField, .text (String.ofList cs))]

/-- A date, a time, or both. -/
def readMoment (cs : List Char) : Option (Document × List Char) :=
  if cs[4]? = some '-' then do
    let (date, rest) ← readDate cs
    match rest with
    | d :: after =>
      if d = 'T' ∨ d = 't' ∨ (d = ' ' ∧ (after.head?.bind Text.digit?).isSome) then do
        let (time, rest) ← readTime after
        let (offset, rest) ← readOffset rest
        some (dateValue (date ++ 'T' :: time ++ offset), rest)
      else some (dateValue date, rest)
    | [] => some (dateValue date, [])
  else do
    let (time, rest) ← readTime cs
    some (dateValue time, rest)

/-- The rest of a text after a word that must follow. -/
def word? (w : String) (cs : List Char) : Option (List Char) :=
  if w.toList.isPrefixOf cs then some (cs.drop w.length) else none

/-- A number after its sign; infinities and what is no number can be skipped only. -/
def readSigned (negative : Bool) (cs : List Char) : Option (Document × List Char) :=
  match word? "inf" cs, word? "nan" cs with
  | some rest, _ => some (.unreadable, rest)
  | _, some rest => some (.unreadable, rest)
  | none, none => readDecimal negative cs

/-- Whether a text starts with so many digits. -/
def startsWithDigits (n : Nat) (cs : List Char) : Bool :=
  (cs.take n).length = n && (cs.take n).all Char.isDigit

/-- A value that starts with a digit. -/
def readNumeric (cs : List Char) : Option (Document × List Char) :=
  if (startsWithDigits 4 cs && cs[4]? = some '-') ||
      (startsWithDigits 2 cs && cs[2]? = some ':') then
    readMoment cs
  else
    match cs with
    | '0' :: 'x' :: rest =>
      readPrefixed 16 (fun c => (hex? [c]).isSome) rest
    | '0' :: 'o' :: rest => readPrefixed 8 (fun c => '0' ≤ c && c ≤ '7') rest
    | '0' :: 'b' :: rest => readPrefixed 2 (fun c => c == '0' || c == '1') rest
    | _ => readDecimal false cs

/-- A value that does not nest. -/
def readScalar (cs : List Char) : Option (Document × List Char) :=
  match cs with
  | '"' :: _ | '\'' :: _ => (readString cs).map fun p => (.text p.1, p.2)
  | 't' :: _ => (word? "true" cs).map fun rest => (.flag true, rest)
  | 'f' :: _ => (word? "false" cs).map fun rest => (.flag false, rest)
  | '+' :: rest => readSigned false rest
  | '-' :: rest => readSigned true rest
  | 'i' :: _ | 'n' :: _ => readSigned false cs
  | _ => readNumeric cs

end MediaPipeline.Toml
