import MediaPipeline.Shell.Numeral
import MediaPipeline.Shell.State

/-!
# Tests

The language of `test`: comparisons of texts and integers, questions about files,
and their combinations.
-/

namespace MediaPipeline.Shell

/-- Why a test has no answer. -/
inductive TestFault where
  | unexpected (word : String)
  | argumentExpected (word : String)
  | illegalNumber (word : String)
  | parenthesisExpected
deriving DecidableEq

/-- A fault in words. -/
def TestFault.message : TestFault → String
  | .unexpected word => word ++ ": unexpected operator"
  | .argumentExpected word => word ++ ": argument expected"
  | .illegalNumber word => "Illegal number: " ++ word
  | .parenthesisExpected => "closing paren expected"

/-- Whether a path leads to something of a kind. -/
def fileTest (s : ShellState) (op path : String) : Bool :=
  let found := s.world.disk.lookup s.cwd true path
  match op, found with
  | "-h", _ | "-L", _ =>
    match s.world.disk.lookup s.cwd false path with
    | .ok (_, .link _) => true
    | _ => false
  | _, .error _ => false
  | "-e", _ | "-r", _ | "-w", _ => true
  | "-f", .ok (_, n) =>
    match n with
    | .file .. | .program _ => true
    | _ => false
  | "-d", .ok (_, n) => n.isDirectory
  | "-s", .ok (_, n) =>
    match n with
    | .file _ data _ => 0 < data.size
    | .directory | .program _ => true
    | _ => false
  | "-x", .ok (_, n) =>
    match n with
    | .file _ _ x => x
    | .directory | .program _ => true
    | _ => false
  | _, _ => false

/-- The integer of an operand of a comparison, which may have blanks around it. -/
def testInteger (s : String) : Except TestFault Int :=
  match Text.int? (Text.trim s.toList) with
  | some n => .ok n
  | none => .error (.illegalNumber s)

/-- How an operator compares integers. -/
def integerTest? (op : String) : Option (Int → Int → Bool) :=
  match op with
  | "-eq" => some fun x y => x = y
  | "-ne" => some fun x y => x ≠ y
  | "-lt" => some fun x y => x < y
  | "-le" => some fun x y => x ≤ y
  | "-gt" => some fun x y => y < x
  | "-ge" => some fun x y => y ≤ x
  | _ => none

/-- How an operator compares texts. -/
def textTest? (op : String) : Option (String → String → Bool) :=
  match op with
  | "=" | "==" => some fun a b => a == b
  | "!=" => some fun a b => a != b
  | "<" => some fun a b => a.toList < b.toList
  | ">" => some fun a b => b.toList < a.toList
  | _ => none

/-- Whether a word is an operator between two operands. -/
def isBinaryTest (op : String) : Bool := (integerTest? op).isSome || (textTest? op).isSome

/-- A test with two operands. -/
def binaryTest (op a b : String) : Except TestFault Bool :=
  match textTest? op, integerTest? op with
  | some f, _ => .ok (f a b)
  | none, some f => do pure (f (← testInteger a) (← testInteger b))
  | none, none => .error (.unexpected op)

/-- The tests with one operand. -/
def unaryTests : List String := ["-e", "-f", "-d", "-s", "-x", "-r", "-w", "-h", "-L"]

mutual

/-- Tests joined by `-o`. -/
def testOr (s : ShellState) : Nat → List String → Except TestFault (Bool × List String)
  | 0, args => .error (.unexpected (args.headD ""))
  | fuel + 1, args => do
    let (a, rest) ← testAnd s fuel args
    match rest with
    | "-o" :: rest => do
      let (b, rest) ← testOr s fuel rest
      pure (a || b, rest)
    | rest => pure (a, rest)

/-- Tests joined by `-a`. -/
def testAnd (s : ShellState) : Nat → List String → Except TestFault (Bool × List String)
  | 0, args => .error (.unexpected (args.headD ""))
  | fuel + 1, args => do
    let (a, rest) ← testOne s fuel args
    match rest with
    | "-a" :: rest => do
      let (b, rest) ← testAnd s fuel rest
      pure (a && b, rest)
    | rest => pure (a, rest)

/-- One test. -/
def testOne (s : ShellState) : Nat → List String → Except TestFault (Bool × List String)
  | 0, args => .error (.unexpected (args.headD ""))
  | fuel + 1, args =>
    match args with
    | a :: op :: b :: rest =>
      if isBinaryTest op then (binaryTest op a b).map fun r => (r, rest) else testPlain s fuel args
    | _ => testPlain s fuel args

/-- One test that is no comparison. -/
def testPlain (s : ShellState) : Nat → List String → Except TestFault (Bool × List String)
  | 0, args => .error (.unexpected (args.headD ""))
  | fuel + 1, args =>
    match args with
    | [] => pure (false, [])
    | [a] => pure (!a.isEmpty, [])
    | "!" :: rest => do
      let (r, rest) ← testOne s fuel rest
      pure (!r, rest)
    | "(" :: rest => do
      let (r, rest) ← testOr s fuel rest
      match rest with
      | ")" :: rest => pure (r, rest)
      | _ => .error .parenthesisExpected
    | "-n" :: a :: rest => pure (!a.isEmpty, rest)
    | "-z" :: a :: rest => pure (a.isEmpty, rest)
    | op :: a :: rest =>
      if unaryTests.contains op then pure (fileTest s op a, rest)
      else if isBinaryTest a && rest.isEmpty then .error (.argumentExpected a)
      else pure (!op.isEmpty, a :: rest)

end

/-- The answer to a test. A word that is left over is said to follow the last one
that was understood. -/
def test (s : ShellState) (args : List String) : Except TestFault Bool := do
  let (answer, rest) ← testOr s (4 * args.length + 4) args
  if rest.isEmpty then pure answer
  else .error (.unexpected ((args[args.length - rest.length - 1]?).getD ""))

end MediaPipeline.Shell
