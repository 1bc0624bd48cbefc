import MediaPipeline.Text.Integer

/-!
# Binary fractions and their decimal text

Fractional numbers of a package are kept as the nearest binary fraction with 53
bits, and printed as the shortest decimal text that reads back as the same
fraction. Everything here is exact arithmetic on whole numbers.
-/

namespace MediaPipeline

/-- The number `mantissa * 2 ^ exponent`, with a sign. Both zeros exist. -/
structure Binary64 where
  negative : Bool
  mantissa : Nat
  exponent : Int
deriving DecidableEq

namespace Binary64

/-- The exponent of the smallest fractions. -/
def minExponent : Int := -1074

/-- The exponent of the largest numbers. -/
def maxExponent : Int := 971

/-- The smallest mantissa with 53 bits. -/
def hiddenBit : Nat := 0x10000000000000

/-- Multiply a quotient by a power of two: numerator and denominator. -/
def scaled (num den : Nat) (e : Int) : Nat × Nat :=
  if 0 ≤ e then (num * Nat.pow 2 e.toNat, den) else (num, den * Nat.pow 2 (-e).toNat)

/-- The nearest whole number to a quotient; the even one if two are equally near. -/
def roundQuotient (num den : Nat) : Nat :=
  let q := num / den
  let twice := 2 * (num % den)
  if twice < den then q
  else if den < twice then q + 1
  else if q % 2 = 0 then q else q + 1

/-- The nearest binary fraction to a quotient, or nothing if it is too large. -/
def ofQuotient? (negative : Bool) (num den : Nat) : Option Binary64 :=
  if num = 0 then some ⟨negative, 0, minExponent⟩
  else
    let guess : Int := (num.log2 : Int) - (den.log2 : Int) - 52
    let atGuess := scaled num den (-guess)
    let tight := if atGuess.1 / atGuess.2 < hiddenBit then guess - 1 else guess
    let e := max tight minExponent
    let q := scaled num den (-e)
    let m := roundQuotient q.1 q.2
    let r := if m = 2 * hiddenBit then (hiddenBit, e + 1) else (m, e)
    if maxExponent < r.2 then none else some ⟨negative, r.1, r.2⟩

/-- The size of a number as a quotient. -/
def quotient (x : Binary64) : Nat × Nat := scaled x.mantissa 1 x.exponent

/-- The nearest binary fraction to a whole number. -/
def ofNat? (n : Nat) : Option Binary64 := ofQuotient? false n 1

/-- The product of two numbers, rounded. -/
def mul? (x y : Binary64) : Option Binary64 :=
  let a := x.quotient
  let b := y.quotient
  ofQuotient? (x.negative != y.negative) (a.1 * b.1) (a.2 * b.2)

/-- The quotient of two numbers, rounded. -/
def div? (x y : Binary64) : Option Binary64 :=
  let a := x.quotient
  let b := y.quotient
  ofQuotient? (x.negative != y.negative) (a.1 * b.2) (a.2 * b.1)

/-- The nearest binary fraction to `digits * 10 ^ power`. -/
def ofDecimal? (negative : Bool) (digits : Nat) (power : Int) : Option Binary64 :=
  if 0 ≤ power then ofQuotient? negative (digits * Nat.pow 10 power.toNat) 1
  else ofQuotient? negative digits (Nat.pow 10 (-power).toNat)

/-! ## Shortest decimal text -/

/-- The number of zeros between the point and the first other digit of a
quotient below one. -/
def leadingZeros (num den : Nat) : Nat :=
  ((List.range 400).find? fun j => den ≤ num * Nat.pow 10 (j + 1)).getD 400

/-- The number of decimal places before the point of a quotient that is not
zero: `p` with `10 ^ (p - 1) ≤ num / den < 10 ^ p`. -/
def magnitude (num den : Nat) : Int :=
  if den ≤ num then (Nat.toDigits 10 (num / den)).length else -(leadingZeros num den : Int)

/-- The quotient times a power of ten, rounded down. -/
def shiftedFloor (num den : Nat) (power : Int) : Nat :=
  if 0 ≤ power then num * Nat.pow 10 power.toNat / den
  else num / (den * Nat.pow 10 (-power).toNat)

/-- The distance of `digits * 10 ^ power` from a quotient, over a denominator
that depends on `power` only. -/
def distance (num den digits : Nat) (power : Int) : Nat :=
  let d : Int :=
    if 0 ≤ power then (digits * Nat.pow 10 power.toNat * den : Nat) - (num : Nat)
    else (digits * den : Nat) - (num * Nat.pow 10 (-power).toNat : Nat)
  d.natAbs

/-- The better of two candidates with the same number of digits: the one that
reads back, the nearer one, the even one. -/
def closer (x : Binary64) (power : Int) (low : Nat) : Option Nat :=
  let q := x.quotient
  let reads d := ofDecimal? x.negative d power = some x
  let near d := distance q.1 q.2 d power
  if reads low then
    if reads (low + 1) then
      if near low < near (low + 1) then some low
      else if near (low + 1) < near low then some (low + 1)
      else if low % 2 = 0 then some low else some (low + 1)
    else some low
  else if reads (low + 1) then some (low + 1)
  else none

/-- The fewest digits, with their power of ten, that read back as a number. -/
def shortest (x : Binary64) : Nat × Int :=
  let q := x.quotient
  let p := magnitude q.1 q.2
  let attempt (n : Nat) : Option (Nat × Int) :=
    let power := p - (n + 1 : Nat)
    (closer x power (shiftedFloor q.1 q.2 (-power))).map fun d => (d, power)
  ((List.range 17).findSome? attempt).getD (0, 0)

/-- Remove zeros at the end of digits. -/
def stripZeros : Nat → Nat × Int → Nat × Int
  | 0, d => d
  | n + 1, (d, power) => if d % 10 = 0 ∧ d ≠ 0 then stripZeros n (d / 10, power + 1) else (d, power)

/-- The text of digits with a power of ten: positional for sizes near one,
otherwise with an exponent. -/
def layOut (digits : Nat) (power : Int) : List Char :=
  let ds := Nat.toDigits 10 digits
  let zeros (n : Int) := List.replicate n.toNat '0'
  let point : Int := ds.length + power
  if 0 ≤ power ∧ point ≤ 16 then ds ++ zeros power ++ ['.', '0']
  else if 0 < point ∧ point ≤ 16 then ds.take point.toNat ++ '.' :: ds.drop point.toNat
  else if -5 < point ∧ point ≤ 0 then ['0', '.'] ++ zeros (-point) ++ ds
  else
    let exponent := 'e' :: (Text.showInt (point - 1)).toList
    match ds with
    | [d] => d :: exponent
    | d :: rest => d :: '.' :: (rest ++ exponent)
    | [] => []

/-- The shortest text that reads back as a number. -/
def render (x : Binary64) : String :=
  let body :=
    if x.mantissa = 0 then ['0', '.', '0']
    else
      let d := stripZeros 20 x.shortest
      layOut d.1 d.2
  String.ofList (if x.negative then '-' :: body else body)

end Binary64

end MediaPipeline
