import MediaPipeline.Shell.Syntax

/-!
# Parsing shell scripts

Recursive descent over tokens. Every parser takes the tokens ahead and yields
what it read with the tokens after it; `fuel` bounds the depth of the descent.
-/

namespace MediaPipeline.Shell

/-- The word at the front, if it is written without quotes. -/
def frontWord : List Token → Option String
  | .word _ w :: _ => (plainText w).map String.ofList
  | _ => none

/-- Skip line ends. -/
def skipNewlines (ts : List Token) : List Token := ts.dropWhile (· = .newline)

/-- The tokens after a reserved word that must come next. -/
def expectWord (w : String) (ts : List Token) : Option (List Token) :=
  if frontWord (skipNewlines ts) = some w then some (skipNewlines ts).tail else none

/-- The words that end a list. -/
def closers : List String :=
  ["then", "elif", "else", "fi", "do", "done", "esac", "\x7d"]

/-- Whether a list ends here. -/
def atEnd (ts : List Token) : Bool :=
  match ts with
  | [] | .operator ")" :: _ | .operator ";;" :: _ => true
  | _ => (frontWord ts).any closers.contains

/-- Whether a text is the name of a variable. -/
def isName : List Char → Bool
  | c :: cs => (c.isAlpha || c == '_') && cs.all isNameChar
  | [] => false

/-- A word that assigns a variable: its name and the assigned word. -/
def assignment? (w : ShellWord) : Option (String × ShellWord) :=
  go [] w
where
  /-- Read the name up to the equals sign. -/
  go (name : List Char) : ShellWord → Option (String × ShellWord)
    | .text ['='] false :: rest =>
      if isName name then some (String.ofList name, rest) else none
    | .text [c] false :: rest => if isNameChar c then go (name ++ [c]) rest else none
    | _ => none

/-- The descriptor and the kind of a redirection operator. -/
def redirectionOf (descriptor : Option Nat) (op : String) : Nat × RedirectionKind :=
  if op = "<" ∨ op = "<>" then (descriptor.getD 0, .read)
  else if op = "<&" then (descriptor.getD 0, .duplicate)
  else if op = ">&" then (descriptor.getD 1, .duplicate)
  else if op = ">>" then (descriptor.getD 1, .append)
  else (descriptor.getD 1, .write)

/-- The redirections at the front. -/
def parseRedirections : Nat → List Token → Option (List Redirection × List Token)
  | 0, _ => none
  | fuel + 1, .redirect d op :: .word _ w :: ts => do
    let (n, kind) := redirectionOf d op
    let (more, ts) ← parseRedirections fuel ts
    some (⟨n, kind, w⟩ :: more, ts)
  | fuel + 1, .document d w :: ts => do
    let (more, ts) ← parseRedirections fuel ts
    some (⟨d.getD 0, .document, w⟩ :: more, ts)
  | _ + 1, .redirect _ _ :: _ => none
  | _ + 1, ts => some ([], ts)

/-- A simple command: assignments, words and redirections in any order, but no
assignment after the first word. -/
def parseSimple : Nat → List Token → Option (Script × List Token)
  | 0, _ => none
  | fuel + 1, ts => do
    let line := match ts with
      | .word line _ :: _ => line
      | _ => 1
    let (assignments, words, redirections, rest) ← go fuel ts false
    some (.simple line assignments words redirections, rest)
where
  /-- Read the rest of the command; `named` says whether a word was read. -/
  go : Nat → List Token → Bool →
      Option (List (String × ShellWord) × List ShellWord × List Redirection × List Token)
    | 0, _, _ => none
    | fuel + 1, ts, named =>
      match ts with
      | .word _ w :: rest =>
        match if named then none else assignment? w with
        | some a => do
          let (as, ws, rs, rest) ← go fuel rest false
          some (a :: as, ws, rs, rest)
        | none => do
          let (as, ws, rs, rest) ← go fuel rest true
          some (as, w :: ws, rs, rest)
      | .redirect .. :: _ | .document .. :: _ => do
        let (here, rest) ← parseRedirections (ts.length + 1) ts
        let (as, ws, rs, rest) ← go fuel rest named
        some (as, ws, here ++ rs, rest)
      | _ => some ([], [], [], ts)

/-- The words of a `for` up to the end of the line. -/
def parseWords : List Token → List ShellWord × List Token
  | .word _ w :: ts =>
    let (ws, rest) := parseWords ts
    (w :: ws, rest)
  | ts => ([], ts)

/-- The patterns of an arm up to the parenthesis. -/
def parsePatterns : List Token → Option (List ShellWord × List Token)
  | .word _ w :: .operator "|" :: ts => do
    let (ws, rest) ← parsePatterns ts
    some (w :: ws, rest)
  | .word _ w :: .operator ")" :: ts => some ([w], ts)
  | _ => none

/-- Skip a separator. -/
def skipSeparator : List Token → List Token
  | .operator ";" :: ts => skipNewlines ts
  | ts => skipNewlines ts

mutual

/-- A list of commands up to a word or operator that closes it. -/
def parseList : Nat → List Token → Option (Script × List Token)
  | 0, _ => none
  | fuel + 1, ts =>
    let ts := skipNewlines ts
    if atEnd ts then some (.skip, ts)
    else do
      let (first, rest) ← parseAndOr fuel ts
      match rest with
      | .operator ";" :: rest | .operator "&" :: rest | .newline :: rest => do
        let (more, rest) ← parseList fuel rest
        some (if more = .skip then first else .sequence first more, rest)
      | rest => if atEnd rest then some (first, rest) else none

/-- Pipelines joined by `&&` and `||`. -/
def parseAndOr : Nat → List Token → Option (Script × List Token)
  | 0, _ => none
  | fuel + 1, ts => do
    let (left, rest) ← parsePipeline fuel ts
    parseAndOrRest fuel left rest

/-- The rest of a chain of pipelines, which groups to the left. -/
def parseAndOrRest : Nat → Script → List Token → Option (Script × List Token)
  | 0, _, _ => none
  | fuel + 1, left, .operator "&&" :: ts => do
    let (right, rest) ← parsePipeline fuel (skipNewlines ts)
    parseAndOrRest fuel (.both left right) rest
  | fuel + 1, left, .operator "||" :: ts => do
    let (right, rest) ← parsePipeline fuel (skipNewlines ts)
    parseAndOrRest fuel (.either left right) rest
  | _ + 1, left, ts => some (left, ts)

/-- Commands joined by pipes, possibly negated. -/
def parsePipeline : Nat → List Token → Option (Script × List Token)
  | 0, _ => none
  | fuel + 1, ts =>
    if frontWord ts = some "!" then do
      let (body, rest) ← parsePipeline fuel ts.tail
      some (.negate body, rest)
    else do
      let (left, rest) ← parseCommand fuel ts
      match rest with
      | .operator "|" :: rest => do
        let (right, rest) ← parsePipeline fuel (skipNewlines rest)
        some (.pipe left right, rest)
      | rest => some (left, rest)

/-- A command with the redirections after it. -/
def parseCommand : Nat → List Token → Option (Script × List Token)
  | 0, _ => none
  | fuel + 1, ts => do
    let (body, rest, compound) ← parseBare fuel ts
    if compound then
      let (rs, rest) ← parseRedirections (rest.length + 1) rest
      some (if rs.isEmpty then body else .redirected body rs, rest)
    else some (body, rest)

/-- A command without redirections after it; the flag says whether it is a
control structure. -/
def parseBare : Nat → List Token → Option (Script × List Token × Bool)
  | 0, _ => none
  | fuel + 1, ts =>
    match ts with
    | .operator "(" :: rest => do
      let (body, rest) ← parseList fuel rest
      match rest with
      | .operator ")" :: rest => some (.subshell body, rest, true)
      | _ => none
    | .word _ _ :: .operator "(" :: .operator ")" :: rest => do
      let name ← frontWord ts
      let (body, rest) ← parseCommand fuel (skipNewlines rest)
      some (.function name body, rest, false)
    | _ =>
      match frontWord ts with
      | some "\x7b" => do
        let (body, rest) ← parseList fuel ts.tail
        let rest ← expectWord "\x7d" rest
        some (.group body, rest, true)
      | some "if" => do
        let (s, rest) ← parseIf fuel ts.tail
        some (s, rest, true)
      | some "while" => do
        let (s, rest) ← parseLoop fuel false ts.tail
        some (s, rest, true)
      | some "until" => do
        let (s, rest) ← parseLoop fuel true ts.tail
        some (s, rest, true)
      | some "for" => do
        let var ← frontWord ts.tail
        let rest := ts.tail.tail
        let (words, rest) :=
          if frontWord (skipNewlines rest) = some "in" then
            let (ws, rest) := parseWords (skipNewlines rest).tail
            (some ws, rest)
          else (none, rest)
        let rest ← expectWord "do" (skipSeparator rest)
        let (body, rest) ← parseList fuel rest
        let rest ← expectWord "done" rest
        some (.forEach var words body, rest, true)
      | some "case" =>
        match ts.tail with
        | .word _ w :: rest => do
          let rest ← expectWord "in" rest
          let (arms, rest) ← parseArms fuel rest
          some (.choice w arms, rest, true)
        | _ => none
      | _ =>
        match ts with
        | .word .. :: _ | .redirect .. :: _ | .document .. :: _ => do
          let (s, rest) ← parseSimple (ts.length + 2) ts
          some (s, rest, false)
        | _ => none

/-- The rest of a conditional after `if` or `elif`. -/
def parseIf : Nat → List Token → Option (Script × List Token)
  | 0, _ => none
  | fuel + 1, ts => do
    let (condition, rest) ← parseList fuel ts
    let rest ← expectWord "then" rest
    let (yes, rest) ← parseList fuel rest
    match frontWord rest with
    | some "elif" => do
      let (no, rest) ← parseIf fuel rest.tail
      some (.branch condition yes no, rest)
    | some "else" => do
      let (no, rest) ← parseList fuel rest.tail
      let rest ← expectWord "fi" rest
      some (.branch condition yes no, rest)
    | some "fi" => some (.branch condition yes .skip, rest.tail)
    | _ => none

/-- The rest of a loop after `while` or `until`. -/
def parseLoop : Nat → Bool → List Token → Option (Script × List Token)
  | 0, _, _ => none
  | fuel + 1, untilTrue, ts => do
    let (condition, rest) ← parseList fuel ts
    let rest ← expectWord "do" rest
    let (body, rest) ← parseList fuel rest
    let rest ← expectWord "done" rest
    some (.loop untilTrue condition body, rest)

/-- The arms of a choice up to `esac`. -/
def parseArms : Nat → List Token → Option (Script × List Token)
  | 0, _ => none
  | fuel + 1, ts =>
    let ts := skipNewlines ts
    if frontWord ts = some "esac" then some (.skip, ts.tail)
    else do
      let ts := match ts with
        | .operator "(" :: rest => rest
        | ts => ts
      let (patterns, rest) ← parsePatterns ts
      let (body, rest) ← parseList fuel rest
      match rest with
      | .operator ";;" :: rest => do
        let (arms, rest) ← parseArms fuel rest
        some (.arm patterns body arms, rest)
      | rest => do
        let rest ← expectWord "esac" rest
        some (.arm patterns body .skip, rest)

end

/-- The script of a text. -/
def parse? (text : List Char) : Option Script := do
  let tokens ← tokenize (2 * text.length + 2) 1 [] [] text
  let (script, rest) ← parseList (8 * tokens.length + 16) tokens
  if rest.isEmpty then some script else none

end MediaPipeline.Shell
