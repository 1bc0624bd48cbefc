import MediaPipeline.Text.Integer

/-!
# Numerals with a base

Integers as shells and utilities read them: decimal, octal after a zero,
hexadecimal after `0x`.
-/

namespace MediaPipeline.Shell.Numeral

/-- The value of a digit in a base up to sixteen. -/
def digit? (base : Nat) (c : Char) : Option Nat :=
  let d :=
    if '0' ≤ c ∧ c ≤ '9' then c.toNat - 48
    else if 'a' ≤ c ∧ c ≤ 'f' then c.toNat - 87
    else if 'A' ≤ c ∧ c ≤ 'F' then c.toNat - 55
    else base
  if d < base then some d else none

/-- The number that the digits at the start stand for, and what follows them. At
most `limit` digits are taken. -/
def readDigits (base : Nat) : Nat → List Char → Nat → Nat × List Char
  | limit + 1, c :: cs, n =>
    match digit? base c with
    | some d => readDigits base limit cs (n * base + d)
    | none => (n, c :: cs)
  | _, cs, n => (n, cs)

/-- The base of a numeral, and its digits. A zero that is no part of `0x` before a
digit is itself an octal digit. -/
def splitBase : List Char → Nat × List Char
  | '0' :: x :: c :: cs =>
    if (x = 'x' ∨ x = 'X') ∧ (digit? 16 c).isSome then (16, c :: cs) else (8, '0' :: x :: c :: cs)
  | '0' :: cs => (8, '0' :: cs)
  | cs => (10, cs)

/-- The unsigned number at the start of a text, and what follows it; nothing if
there is no digit. -/
def readNatural (cs : List Char) : Option (Nat × List Char) :=
  let (base, digits) := splitBase cs
  let (n, rest) := readDigits base digits.length digits 0
  if rest.length < digits.length then some (n, rest) else none

/-- The number at the start of a text, after blanks and one sign, and what follows it. -/
def readInteger (cs : List Char) : Option (Int × List Char) :=
  match cs.dropWhile fun c => c = ' ' || (9 ≤ c.toNat && c.toNat ≤ 13) with
  | '-' :: cs => (readNatural cs).map fun p => (-(p.1 : Int), p.2)
  | '+' :: cs => (readNatural cs).map fun p => ((p.1 : Int), p.2)
  | cs => (readNatural cs).map fun p => ((p.1 : Int), p.2)

end MediaPipeline.Shell.Numeral
