import MediaPipeline.Template.Word

/-!
# Conditions

The condition of a guard or of an `%if` block: one word read as a flag, possibly
negated by a leading `!`, or two words compared by `==` or `!=`.
-/

namespace MediaPipeline.Template

/-- How two values are compared. -/
inductive Comparison where
  | equal
  | different
deriving DecidableEq, Repr

/-- The spelling of a comparison. -/
def Comparison.spelling : Comparison → List Char
  | equal => ['=', '=']
  | different => ['!', '=']

/-- The comparison that a text without references spells. -/
def Comparison.ofText? (cs : List Char) : Option Comparison :=
  if cs = equal.spelling then some equal
  else if cs = different.spelling then some different
  else none

/-- A parsed condition. -/
inductive Condition where
  | flag (negated : Bool) (value : Word)
  | compare (left : Word) (comparison : Comparison) (right : Word)
deriving DecidableEq

namespace Condition

/-- The condition that consists of these words. -/
def ofWords : List Word → Except Fault Condition
  | [] => .error .emptyCondition
  | [.char '!' :: w] => .ok (.flag true w)
  | [w] => .ok (.flag false w)
  | [left, op, right] =>
    match (Word.literal? op).bind Comparison.ofText? with
    | some comparison => .ok (.compare left comparison right)
    | none => .error .expectedComparison
  | ws => .error (.malformedCondition ws.length)

/-- The words whose values a condition reads. -/
def operands : Condition → List Word
  | flag _ w => [w]
  | compare left _ right => [left, right]

/-- Whether a condition reads a dynamic parameter. -/
def dependsOn (c : Condition) (var : String) : Bool :=
  c.operands.any (·.dependsOn var)

end Condition

/-- The spellings of true. -/
def trueWords : List String := ["true", "yes", "on", "1"]

/-- The spellings of false; the empty text is one. -/
def falseWords : List String := ["false", "no", "off", "0", ""]

/-- The flag that a value spells, blanks around it and the case of ASCII letters aside. -/
def parseFlag (value : String) : Option Bool :=
  let word := String.ofList (Text.lowercaseAscii (Text.trim value.toList))
  if word ∈ trueWords then some true
  else if word ∈ falseWords then some false
  else none

end MediaPipeline.Template
