import MediaPipeline.Template.Condition

/-!
# Tokens

A template is cut into literal text, references and directives. A doubled
percent sign stands for one, and a percent sign that starts neither a reference
nor a directive stands for itself, so that `out%03d.png` needs no care.
-/

namespace MediaPipeline.Template

/-- One token of a template. -/
inductive Token where
  | text (cs : List Char)
  | reference (r : Reference)
  /-- `%for VAR KEY=VALUE ...%` -/
  | openLoop (var : String) (arguments : List (String × Word))
  /-- `%if WORDS%` -/
  | openBranch (words : List Word)
  | close (closer : Closer)
deriving DecidableEq

/-- Whether a directive follows: a closing keyword with its percent sign, or
`for` or `if` with a blank. -/
def startsDirective (after : List Char) : Bool :=
  "else%".toList.isPrefixOf after || "endif%".toList.isPrefixOf after ||
    "endfor%".toList.isPrefixOf after ||
    ("for".toList.isPrefixOf after && (after[3]?.map Text.isBlank).getD false) ||
    ("if".toList.isPrefixOf after && (after[2]?.map Text.isBlank).getD false)

/-- The arguments of a loop directive from its words. -/
def parseArguments (directive : List Char) : List Word → Except Fault (List (String × Word))
  | [] => .ok []
  | w :: ws =>
    match w.splitKey? with
    | none => .error (.noArgumentKey directive)
    | some (key, value) => do
      let rest ← parseArguments directive ws
      pure ((String.ofList key, value) :: rest)

/-- The loop that a directive opens, from the words after its keyword. -/
def parseLoop (directive : List Char) : List Word → Except Fault Token
  | [] => .error (.noLoopVariable directive)
  | w :: ws =>
    match w.literal? with
    | none => .error (.noLoopVariable directive)
    | some var =>
      if isIdentifier var then do
        let arguments ← parseArguments directive ws
        pure (.openLoop (String.ofList var) arguments)
      else .error (.noLoopVariable directive)

/-- The directive that a keyword alone stands for. -/
def closer? (body : List Char) : Option Closer :=
  if body = "else".toList then some .otherwise
  else if body = "endif".toList then some .endIf
  else if body = "endfor".toList then some .endFor
  else none

/-- The directive with this text between its percent signs. -/
def parseDirective (body : List Char) : Except Fault Token :=
  match closer? body with
  | some c => .ok (.close c)
  | none =>
    if "if".toList.isPrefixOf body then do
      let words ← splitWords (body.drop 2)
      pure (.openBranch words)
    else do
      let words ← splitWords (body.drop 3)
      parseLoop body words

/-- Where the scanner stands. Text read so far is held last character first. -/
inductive ScanMode where
  | text
  | reference (body : List Char)
  | directive (body : List Char)
  /-- In a reference inside a directive. -/
  | argument (body : List Char)
deriving DecidableEq

/-- Put a literal character in front of tokens. -/
def consText (c : Char) : List Token → List Token
  | .text cs :: ts => .text (c :: cs) :: ts
  | ts => .text [c] :: ts

/-- The tokens of the rest of a template. -/
def scan : ScanMode → List Char → Except Fault (List Token)
  | .text, [] => .ok []
  | .reference body, [] => .error (.openReference (openBrace :: body.reverse))
  | .directive body, [] => .error (.openDirective body.reverse)
  | .argument body, [] => .error (.openReferenceInDirective body.reverse)
  | .text, c :: cs =>
    if c = '%' then
      match cs with
      | [] => .ok [.text [c]]
      | d :: rest =>
        if d = '%' then (scan .text rest).map (consText c)
        else if d = openBrace then scan (.reference []) rest
        else if startsDirective (d :: rest) then scan (.directive []) (d :: rest)
        else (scan .text (d :: rest)).map (consText c)
    else (scan .text cs).map (consText c)
  | .reference body, c :: cs =>
    if c = closeBrace then do
      let r ← Reference.parse body.reverse
      let tokens ← scan .text cs
      pure (.reference r :: tokens)
    else scan (.reference (c :: body)) cs
  | .directive body, c :: cs =>
    if c = '%' then
      if cs.head? = some openBrace ∧ closer? body.reverse = none then
        scan (.argument (c :: body)) cs
      else do
        let token ← parseDirective body.reverse
        let tokens ← scan .text cs
        pure (token :: tokens)
    else scan (.directive (c :: body)) cs
  | .argument body, c :: cs =>
    if c = closeBrace then scan (.directive (c :: body)) cs
    else scan (.argument (c :: body)) cs

/-- The tokens of a template. -/
def tokenize (source : List Char) : Except Fault (List Token) := scan .text source

end MediaPipeline.Template
