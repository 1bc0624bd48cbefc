import MediaPipeline.Shell.Numeral

/-!
# Shell arithmetic

Integer expressions with the operators of C, variables and assignments.
-/

namespace MediaPipeline.Shell

/-- A token of an expression. -/
inductive ArithmeticToken where
  | number (n : Int)
  | name (s : String)
  | operator (s : String)
deriving DecidableEq

namespace Arithmetic

/-- Operators, longer ones first. -/
def operators : List String :=
  ["<<=", ">>=", "==", "!=", "<=", ">=", "&&", "||", "<<", ">>", "+=", "-=", "*=", "/=", "%=",
    "+", "-", "*", "/", "%", "<", ">", "!", "~", "(", ")", "=", "&", "|", "^", "?", ":"]

/-- Why an expression has no value. -/
inductive Fault where
  | divisionByZero
  /-- An operand is missing. -/
  | expectingPrimary
  /-- Something follows the expression. -/
  | expectingEnd
deriving DecidableEq

/-- A fault in words. -/
def Fault.message : Fault → String
  | .divisionByZero => "division by zero"
  | .expectingPrimary => "expecting primary"
  | .expectingEnd => "expecting EOF"

/-- The value of a number that is a numeral from its start to its end. -/
def numberOf (cs : List Char) : Option Int :=
  match Numeral.readNatural cs with
  | some (n, []) => some n
  | _ => none

/-- The tokens of an expression. -/
def tokens : Nat → List Char → Except Fault (List ArithmeticToken)
  | 0, _ => .error .expectingPrimary
  | _ + 1, [] => pure []
  | fuel + 1, c :: cs =>
    if c = ' ' ∨ c = '\t' ∨ c = '\n' then tokens fuel cs
    else if c.isDigit then
      let (n, rest) := (Numeral.readNatural (c :: cs)).getD (0, cs)
      return .number n :: (← tokens fuel rest)
    else if c.isAlpha ∨ c = '_' then
      let p := (c :: cs).span fun c => c.isAlphanum || c == '_'
      return .name (String.ofList p.1) :: (← tokens fuel p.2)
    else
      match operators.find? fun op => op.toList.isPrefixOf (c :: cs) with
      | some op => return .operator op :: (← tokens fuel ((c :: cs).drop op.length))
      | none => .error .expectingPrimary

/-- The values of variables. -/
abbrev Variables := List (String × String)

/-- The number that a variable holds. -/
def valueOf (vars : Variables) (name : String) : Int :=
  match vars.find? fun v => v.1 == name with
  | some v => (numberOrSigned v.2.toList).getD 0
  | none => 0
where
  /-- A number, possibly after a minus sign. -/
  numberOrSigned : List Char → Option Int
    | '-' :: cs => (numberOf cs).map fun n => -n
    | [] => some 0
    | cs => numberOf cs

/-- Assign a variable. -/
def assign (vars : Variables) (name : String) (n : Int) : Variables :=
  vars.filter (fun v => v.1 != name) ++ [(name, Text.showInt n)]

/-- The number for a truth value. -/
def ofBool (b : Bool) : Int := if b then 1 else 0

/-- The result of a binary operator, unless it divides by zero. -/
def apply (op : String) (a b : Int) : Except Fault Int :=
  match op with
  | "+" => pure (a + b)
  | "-" => pure (a - b)
  | "*" => pure (a * b)
  | "/" => if b = 0 then .error .divisionByZero else pure (a.tdiv b)
  | "%" => if b = 0 then .error .divisionByZero else pure (a.tmod b)
  | "<<" => pure (a * (Nat.pow 2 b.toNat : Nat))
  | ">>" => pure (a / (Nat.pow 2 b.toNat : Nat))
  | "<" => pure (ofBool (a < b))
  | "<=" => pure (ofBool (a ≤ b))
  | ">" => pure (ofBool (b < a))
  | ">=" => pure (ofBool (b ≤ a))
  | "==" => pure (ofBool (a = b))
  | "!=" => pure (ofBool (a ≠ b))
  | "&" => pure (Int.ofNat (a.toNat &&& b.toNat))
  | "^" => pure (Int.ofNat (a.toNat ^^^ b.toNat))
  | "|" => pure (Int.ofNat (a.toNat ||| b.toNat))
  | "&&" => pure (ofBool (a ≠ 0 && b ≠ 0))
  | "||" => pure (ofBool (a ≠ 0 || b ≠ 0))
  | _ => .error .expectingPrimary

/-- The binary operators, those that bind tightest first. -/
def levels : List (List String) :=
  [["*", "/", "%"], ["+", "-"], ["<<", ">>"], ["<", "<=", ">", ">="], ["==", "!="], ["&"], ["^"],
    ["|"], ["&&"], ["||"]]

/-- A value with the variables and the tokens after it. -/
abbrev Reading := Except Fault (Int × Variables × List ArithmeticToken)

mutual

/-- An expression. -/
def expression : Nat → Variables → List ArithmeticToken → Reading
  | 0, _, _ => .error .expectingPrimary
  | fuel + 1, vars, .name x :: .operator "=" :: ts => do
    let (n, vars, ts) ← expression fuel vars ts
    pure (n, assign vars x n, ts)
  | fuel + 1, vars, ts => do
    let compound := match ts with
      | .name x :: .operator op :: rest =>
        if ["+=", "-=", "*=", "/=", "%="].contains op then
          some (x, String.ofList (op.toList.take 1), rest)
        else none
      | _ => none
    match compound with
    | some (x, op, rest) => do
      let (n, vars, ts) ← expression fuel vars rest
      let value ← apply op (valueOf vars x) n
      pure (value, assign vars x value, ts)
    | none => do
      let (c, vars, ts) ← level fuel levels.length vars ts
      match ts with
      | .operator "?" :: ts => do
        let (a, vars, ts) ← expression fuel vars ts
        match ts with
        | .operator ":" :: ts => do
          let (b, vars, ts) ← expression fuel vars ts
          pure (if c ≠ 0 then a else b, vars, ts)
        | _ => .error .expectingPrimary
      | ts => pure (c, vars, ts)

/-- An expression whose operators are among the `n` tightest levels. -/
def level : Nat → Nat → Variables → List ArithmeticToken → Reading
  | 0, _, _, _ => .error .expectingPrimary
  | fuel + 1, 0, vars, ts => operand fuel vars ts
  | fuel + 1, n + 1, vars, ts => do
    let (a, vars, ts) ← level fuel n vars ts
    levelRest fuel n a vars ts

/-- The rest of a chain of operators of one level, which groups to the left. -/
def levelRest : Nat → Nat → Int → Variables → List ArithmeticToken → Reading
  | 0, _, _, _, _ => .error .expectingPrimary
  | fuel + 1, n, a, vars, ts =>
    match ts with
    | .operator op :: rest =>
      if (levels[n]?.getD []).contains op then do
        let (b, vars, rest) ← level fuel n vars rest
        let value ← apply op a b
        levelRest fuel n value vars rest
      else pure (a, vars, ts)
    | _ => pure (a, vars, ts)

/-- A number, a variable, an expression in parentheses, or one of these after a
sign. -/
def operand : Nat → Variables → List ArithmeticToken → Reading
  | 0, _, _ => .error .expectingPrimary
  | _ + 1, vars, .number n :: ts => pure (n, vars, ts)
  | _ + 1, vars, .name x :: ts => pure (valueOf vars x, vars, ts)
  | fuel + 1, vars, .operator "(" :: ts => do
    let (n, vars, ts) ← expression fuel vars ts
    match ts with
    | .operator ")" :: ts => pure (n, vars, ts)
    | _ => .error .expectingPrimary
  | fuel + 1, vars, .operator "-" :: ts => do
    let (n, vars, ts) ← operand fuel vars ts
    pure (-n, vars, ts)
  | fuel + 1, vars, .operator "+" :: ts => operand fuel vars ts
  | fuel + 1, vars, .operator "!" :: ts => do
    let (n, vars, ts) ← operand fuel vars ts
    pure (ofBool (n = 0), vars, ts)
  | fuel + 1, vars, .operator "~" :: ts => do
    let (n, vars, ts) ← operand fuel vars ts
    pure (-n - 1, vars, ts)
  | _ + 1, _, _ => .error .expectingPrimary

end

/-- The value of an expression, and the variables after it. -/
def evaluate (vars : Variables) (text : List Char) : Except Fault (Int × Variables) := do
  let ts ← tokens (text.length + 1) text
  if ts.isEmpty then pure (0, vars)
  else
    let (n, vars, rest) ← expression (40 * ts.length + 40) vars ts
    if rest.isEmpty then pure (n, vars) else .error .expectingEnd

end Arithmetic

end MediaPipeline.Shell
