import MediaPipeline.Document.Basic

/-!
# JSON text

A reader and a writer for JSON. A text has exactly one value with nothing but
blanks around it, and lists and objects nest at most 127 deep. A number without
fraction or exponent stays whole as far as 64 bits carry it; any other number
is scaled from its leading digits by one power of ten.
-/

namespace MediaPipeline.Json

/-- What stands between the values of a text. -/
def isSpace (c : Char) : Bool := c == ' ' || c == '\n' || c == '\t' || c == '\r'

/-- Skip blanks. -/
def skip (cs : List Char) : List Char := cs.dropWhile isSpace

/-! ## Numbers -/

/-- The largest power of ten that numbers are scaled by in one step. -/
def maxPower : Nat := 308

/-- A number scaled by a power of ten, in steps that stay in range. -/
def scaleBy (x : Binary64) : Nat → Int → Option Binary64
  | 0, _ => some x
  | fuel + 1, power =>
    if power.natAbs ≤ maxPower then do
      let p ← Binary64.ofNat? (Nat.pow 10 power.natAbs)
      if 0 ≤ power then x.mul? p else x.div? p
    else if x.mantissa = 0 then some x
    else if 0 ≤ power then none
    else do
      let p ← Binary64.ofNat? (Nat.pow 10 maxPower)
      let y ← x.div? p
      scaleBy y fuel (power + maxPower)

/-- Leading digits as far as they fit into 64 bits, and the rest. -/
def fitDigits (n : Nat) : List Char → Nat × List Char
  | [] => (n, [])
  | c :: cs =>
    match Text.digit? c with
    | none => (n, c :: cs)
    | some d => if n * 10 + d < Text.sizeLimit then fitDigits (n * 10 + d) cs else (n, c :: cs)

/-- From here on an exponent is too large to be looked at. -/
def exponentLimit : Nat := 0x80000000

/-- The value of a number from its parts: the digits before the point, those
after it, and the exponent. -/
def fractionValue (negative : Bool) (whole decimals : List Char) (exponent : Option Int) :
    Document :=
  let (lead, dropped) := fitDigits 0 whole
  let (digits, unused) := if dropped.isEmpty then fitDigits lead decimals else (lead, decimals)
  let power : Int := dropped.length - (decimals.length - unused.length : Nat) + exponent.getD 0
  let value :=
    if exponentLimit ≤ (exponent.getD 0).natAbs then
      if digits = 0 ∨ exponent.getD 0 < 0 then Binary64.ofNat? 0 else none
    else do scaleBy (← Binary64.ofNat? digits) 6 power
  match value with
  | some x => .number (.fraction { x with negative := negative })
  | none => .unreadable

/-- A run of digits and the rest. -/
def spanDigits (cs : List Char) : List Char × List Char := cs.span fun c => (Text.digit? c).isSome

/-- The digits after a point, if there is one. -/
def readDecimals : List Char → Option (List Char × List Char)
  | '.' :: cs =>
    let p := spanDigits cs
    if p.1.isEmpty then none else some p
  | cs => some ([], cs)

/-- The exponent, if there is one. -/
def readExponent : List Char → Option (Option Int × List Char)
  | c :: cs =>
    if c = 'e' ∨ c = 'E' then
      let (negative, body) := match cs with
        | '-' :: rest => (true, rest)
        | '+' :: rest => (false, rest)
        | rest => (false, rest)
      let p := spanDigits body
      (Text.digits? p.1).map fun n => (some (if negative then -(n : Int) else (n : Int)), p.2)
    else some (none, c :: cs)
  | [] => some (none, [])

/-- The value of a number that has neither point nor exponent. -/
def integerValue (negative : Bool) (whole : List Char) : Document :=
  match Text.digits? whole with
  | none => .unreadable
  | some n =>
    if negative then
      if 0 < n ∧ (n : Int) ≤ -Text.minInt then .number (.integer (-(n : Int)))
      else fractionValue true whole [] none
    else if n < Text.sizeLimit then .number (.integer n)
    else fractionValue false whole [] none

/-- A number, after its sign. -/
def readNumber (negative : Bool) (cs : List Char) : Option (Document × List Char) := do
  let (whole, rest) := spanDigits cs
  if whole.isEmpty ∨ (whole.head? = some '0' ∧ whole.length ≠ 1) then none
  else
    let (decimals, rest) ← readDecimals rest
    let (exponent, rest) ← readExponent rest
    if decimals.isEmpty ∧ exponent.isNone then some (integerValue negative whole, rest)
    else some (fractionValue negative whole decimals exponent, rest)

/-! ## Texts -/

/-- The value of a hexadecimal digit. -/
def hex? (c : Char) : Option Nat :=
  if 'a' ≤ c ∧ c ≤ 'f' then some (c.toNat - 'a'.toNat + 10)
  else if 'A' ≤ c ∧ c ≤ 'F' then some (c.toNat - 'A'.toNat + 10)
  else Text.digit? c

/-- The value of four hexadecimal digits. -/
def hex4? (a b c d : Char) : Option Nat := do
  pure ((((← hex? a) * 16 + (← hex? b)) * 16 + (← hex? c)) * 16 + (← hex? d))

/-- The character of a one-letter escape. -/
def shortEscape? : Char → Option Char
  | '"' => some '"'
  | '\\' => some '\\'
  | '/' => some '/'
  | 'b' => some '\x08'
  | 'f' => some '\x0c'
  | 'n' => some '\n'
  | 'r' => some '\r'
  | 't' => some '\t'
  | _ => none

/-- Whether a code unit is the first half of a pair. -/
def isHighHalf (n : Nat) : Bool := 0xD800 ≤ n && n ≤ 0xDBFF

/-- Whether a code unit is the second half of a pair. -/
def isLowHalf (n : Nat) : Bool := 0xDC00 ≤ n && n ≤ 0xDFFF

/-- The code units and characters of a text up to its closing quote, last first.
A code unit is paired with the one before it, if together they make a character. -/
def pairUnit (unit : Nat) : List (Char ⊕ Nat) → List (Char ⊕ Nat)
  | .inr high :: acc =>
    if isLowHalf unit then
      .inl (Char.ofNat (0x10000 + (high - 0xD800) * 0x400 + (unit - 0xDC00))) :: acc
    else .inr unit :: .inr high :: acc
  | acc =>
    if isHighHalf unit || isLowHalf unit then .inr unit :: acc
    else .inl (Char.ofNat unit) :: acc

/-- Read a text after its opening quote. -/
def readText (acc : List (Char ⊕ Nat)) : List Char → Option (List (Char ⊕ Nat) × List Char)
  | [] => none
  | '"' :: cs => some (acc, cs)
  | '\\' :: 'u' :: a :: b :: c :: d :: cs => do
    let unit ← hex4? a b c d
    readText (pairUnit unit acc) cs
  | '\\' :: e :: cs => do
    let c ← shortEscape? e
    readText (.inl c :: acc) cs
  | c :: cs => if c.toNat < 0x20 ∨ c = '\\' then none else readText (.inl c :: acc) cs

/-- The characters of a text, unless half a pair stands alone. A lone second half
before a first half counts as alone too. -/
def finishText (acc : List (Char ⊕ Nat)) : Option String :=
  (acc.foldl (fun out u =>
    match out, u with
    | some cs, .inl c => some (c :: cs)
    | _, _ => none) (some [])).map String.ofList

/-! ## Values -/

/-- How deep lists and objects may nest. -/
def maxDepth : Nat := 127

/-- The rest of a text after an expected word. -/
def expect (word : List Char) (cs : List Char) : Option (List Char) :=
  if word.isPrefixOf cs then some (cs.drop word.length) else none

mutual

/-- Read a value. `fuel` bounds the number of steps, `depth` the nesting. -/
def readValue : Nat → Nat → List Char → Option (Document × List Char)
  | 0, _, _ => none
  | fuel + 1, depth, cs =>
    match skip cs with
    | 'n' :: rest => (expect "ull".toList rest).map fun r => (.null, r)
    | 't' :: rest => (expect "rue".toList rest).map fun r => (.flag true, r)
    | 'f' :: rest => (expect "alse".toList rest).map fun r => (.flag false, r)
    | '"' :: rest => do
      let (units, rest) ← readText [] rest
      match finishText units with
      | some s => some (.text s, rest)
      | none => some (.unreadable, rest)
    | '[' :: rest =>
      match depth with
      | 0 => none
      | depth + 1 => do
        let (items, rest) ← readItems fuel depth true rest
        some (.list items, rest)
    | '-' :: rest => readNumber true rest
    | c :: rest =>
      if c = Char.ofNat 0x7B then
        match depth with
        | 0 => none
        | depth + 1 => do
          let (fields, rest) ← readFields fuel depth true rest
          some (.object fields, rest)
      else readNumber false (c :: rest)
    | [] => none

/-- Read the items of a list up to its closing bracket. -/
def readItems : Nat → Nat → Bool → List Char → Option (List Document × List Char)
  | 0, _, _, _ => none
  | fuel + 1, depth, first, cs =>
    match skip cs, first with
    | ']' :: rest, _ => some ([], rest)
    | ',' :: rest, false => do
      let (item, rest) ← readValue fuel depth rest
      let (items, rest) ← readItems fuel depth false rest
      some (item :: items, rest)
    | rest, true => do
      let (item, rest) ← readValue fuel depth rest
      let (items, rest) ← readItems fuel depth false rest
      some (item :: items, rest)
    | _, false => none

/-- Read the fields of an object up to its closing brace. -/
def readFields : Nat → Nat → Bool → List Char → Option (List (String × Document) × List Char)
  | 0, _, _, _ => none
  | fuel + 1, depth, first, cs =>
    match skip cs, first with
    | '"' :: rest, true => readField fuel depth rest
    | ',' :: rest, false =>
      match skip rest with
      | '"' :: rest => readField fuel depth rest
      | _ => none
    | c :: rest, _ => if c = Char.ofNat 0x7D then some ([], rest) else none
    | [], _ => none

/-- Read a field after the opening quote of its name, and the fields after it. -/
def readField : Nat → Nat → List Char → Option (List (String × Document) × List Char)
  | 0, _, _ => none
  | fuel + 1, depth, cs => do
    let (units, rest) ← readText [] cs
    let name ← finishText units
    match skip rest with
    | ':' :: rest => do
      let (value, rest) ← readValue fuel depth rest
      let (fields, rest) ← readFields fuel depth false rest
      some ((name, value) :: fields, rest)
    | _ => none

end

/-- The value that a text holds. -/
def parse? (s : String) : Option Document :=
  let cs := s.toList
  match readValue (2 * cs.length + 2) maxDepth cs with
  | some (value, rest) => if (skip rest).isEmpty then some value else none
  | none => none

/-! ## Writing -/

/-- A character inside a text. -/
def escapeChar (c : Char) : List Char :=
  match c with
  | '"' => ['\\', '"']
  | '\\' => ['\\', '\\']
  | '\n' => ['\\', 'n']
  | '\r' => ['\\', 'r']
  | '\t' => ['\\', 't']
  | '\x08' => ['\\', 'b']
  | '\x0c' => ['\\', 'f']
  | c =>
    if c.toNat < 0x20 then
      ['\\', 'u', '0', '0', Nat.digitChar (c.toNat / 16), Nat.digitChar (c.toNat % 16)]
    else [c]

/-- A text between quotes. -/
def writeText (s : String) : String :=
  String.ofList ('"' :: (s.toList.flatMap escapeChar ++ ['"']))

mutual

/-- The text of a value, without blanks. -/
def write : Document → String
  | .null | .unreadable => "null"
  | .flag b => if b then "true" else "false"
  | .number n => n.render
  | .text s => writeText s
  | .list items => "[" ++ ",".intercalate (writeItems items) ++ "]"
  | .object fields => "\x7b" ++ ",".intercalate (writeFields fields) ++ "\x7d"

/-- The texts of the items of a list. -/
def writeItems : List Document → List String
  | [] => []
  | d :: ds => write d :: writeItems ds

/-- The texts of the fields of an object. -/
def writeFields : List (String × Document) → List String
  | [] => []
  | (name, d) :: fs => (writeText name ++ ":" ++ write d) :: writeFields fs

end

end MediaPipeline.Json
