import MediaPipeline.Text.Blank

/-!
# Shell scripts

The syntax of the small shell: words with quotes and substitutions, simple
commands with redirections, pipelines, lists and the usual control structures.
The text inside a substitution is kept and read when it is needed.
-/

namespace MediaPipeline.Shell

/-- A part of a word. -/
inductive Part where
  | text (cs : List Char) (quoted : Bool)
  /-- `$name` or `${name OP word}`; `word` is the text after the operator. -/
  | parameter (name : String) (operator : List Char) (word : List Char) (quoted : Bool)
  /-- A command substitution, as its text. -/
  | command (script : List Char) (quoted : Bool)
  /-- An arithmetic expansion, as its text. -/
  | arithmetic (expression : List Char) (quoted : Bool)
deriving DecidableEq

/-- A word before expansion. -/
abbrev ShellWord := List Part

/-- How a redirection changes a descriptor. -/
inductive RedirectionKind where
  | read
  | write
  | append
  /-- Make it the same as another descriptor. -/
  | duplicate
  /-- Read the text of a here-document. -/
  | document
deriving DecidableEq

/-- A redirection. -/
structure Redirection where
  descriptor : Nat
  kind : RedirectionKind
  word : ShellWord
deriving DecidableEq

/-- A script. -/
inductive Script where
  | skip
  | simple (line : Nat) (assignments : List (String × ShellWord)) (words : List ShellWord)
      (redirections : List Redirection)
  | pipe (left right : Script)
  | negate (body : Script)
  | both (left right : Script)
  | either (left right : Script)
  | sequence (left right : Script)
  | subshell (body : Script)
  | group (body : Script)
  | branch (condition yes no : Script)
  | loop (untilTrue : Bool) (condition body : Script)
  /-- Without words the loop visits the positional parameters. -/
  | forEach (var : String) (words : Option (List ShellWord)) (body : Script)
  | choice (word : ShellWord) (arms : Script)
  /-- An arm of a choice, and the arms after it. -/
  | arm (patterns : List ShellWord) (body rest : Script)
  | function (name : String) (body : Script)
  | redirected (body : Script) (redirections : List Redirection)
deriving DecidableEq

/-- A token of a script. -/
inductive Token where
  | word (line : Nat) (w : ShellWord)
  | operator (op : String)
  /-- A redirection operator, with the descriptor in front of it. -/
  | redirect (descriptor : Option Nat) (op : String)
  /-- The text of a here-document. -/
  | document (descriptor : Option Nat) (w : ShellWord)
  | newline
deriving DecidableEq

/-! ## Words -/

/-- Characters of a parameter name. -/
def isNameChar (c : Char) : Bool := c.isAlphanum || c == '_'

/-- Characters that name a special parameter. -/
def isSpecialChar (c : Char) : Bool := "@*#?-$!".toList.contains c

/-- The text up to the brace that closes an opened one, and the rest. -/
def untilBrace : Nat → List Char → List Char → Option (List Char × List Char)
  | _, _, [] => none
  | depth, acc, '\\' :: c :: cs => untilBrace depth (c :: '\\' :: acc) cs
  | depth, acc, c :: cs =>
    if c = Char.ofNat 0x7D then
      match depth with
      | 0 => some (acc.reverse, cs)
      | depth + 1 => untilBrace depth (c :: acc) cs
    else if c = Char.ofNat 0x7B then untilBrace (depth + 1) (c :: acc) cs
    else untilBrace depth (c :: acc) cs

/-- The text up to the parenthesis that closes an opened one, and the rest. Quotes
are skipped; `quote` is the one that is open. -/
def untilParen : Option Char → Nat → List Char → List Char → Option (List Char × List Char)
  | _, _, _, [] => none
  | none, depth, acc, '\\' :: c :: cs => untilParen none depth (c :: '\\' :: acc) cs
  | some '"', depth, acc, '\\' :: c :: cs => untilParen (some '"') depth (c :: '\\' :: acc) cs
  | some q, depth, acc, c :: cs =>
    untilParen (if c = q then none else some q) depth (c :: acc) cs
  | none, depth, acc, c :: cs =>
    if c = '\'' ∨ c = '"' then untilParen (some c) depth (c :: acc) cs
    else if c = '(' then untilParen none (depth + 1) (c :: acc) cs
    else if c = ')' then
      match depth with
      | 0 => some (acc.reverse, cs)
      | depth + 1 => untilParen none depth (c :: acc) cs
    else untilParen none depth (c :: acc) cs

/-- The text up to a backquote, and the rest. -/
def untilBackquote : List Char → List Char → Option (List Char × List Char)
  | _, [] => none
  | acc, '\\' :: c :: cs =>
    if c = Char.ofNat 0x60 ∨ c = '\\' ∨ c = '$' then untilBackquote (c :: acc) cs
    else untilBackquote (c :: '\\' :: acc) cs
  | acc, c :: cs =>
    if c = Char.ofNat 0x60 then some (acc.reverse, cs) else untilBackquote (c :: acc) cs

/-- The operators of a parameter expansion, longer ones first. -/
def parameterOperators : List String :=
  [":-", ":=", ":+", ":?", "##", "%%", "-", "=", "+", "?", "#", "%"]

/-- The inside of braces: a name, an operator and a word. -/
def braced (inside : List Char) (quoted : Bool) : Option Part :=
  match inside with
  | ['#'] => some (.parameter "#" [] [] quoted)
  | '#' :: name =>
    if name.all isNameChar then some (.parameter (String.ofList name) ['l', 'e', 'n'] [] quoted)
    else none
  | c :: cs =>
    let (name, rest) := if isSpecialChar c then ([c], cs) else inside.span isNameChar
    if name.isEmpty then none
    else if rest.isEmpty then some (.parameter (String.ofList name) [] [] quoted)
    else
      (parameterOperators.find? fun op => op.toList.isPrefixOf rest).map fun op =>
        .parameter (String.ofList name) op.toList (rest.drop op.length) quoted
  | [] => none

/-- What a dollar sign starts, and the rest after it. -/
def dollar (quoted : Bool) (cs : List Char) : Option (Part × List Char) :=
  match cs with
  | '(' :: '(' :: rest => do
    let (inside, after) ← untilParen none 0 [] rest
    match after with
    | ')' :: after => some (.arithmetic inside quoted, after)
    | _ => do
      let (inside, after) ← untilParen none 0 [] ('(' :: rest)
      some (.command inside quoted, after)
  | '(' :: rest => do
    let (inside, after) ← untilParen none 0 [] rest
    some (.command inside quoted, after)
  | c :: rest =>
    if c = Char.ofNat 0x7B then do
      let (inside, after) ← untilBrace 0 [] rest
      let part ← braced inside quoted
      some (part, after)
    else if c.isDigit then some (.parameter (String.ofList [c]) [] [] quoted, rest)
    else if isSpecialChar c then some (.parameter (String.ofList [c]) [] [] quoted, rest)
    else
      let (name, after) := (c :: rest).span isNameChar
      if name.isEmpty then some (.text ['$'] quoted, c :: rest)
      else some (.parameter (String.ofList name) [] [] quoted, after)
  | [] => some (.text ['$'] quoted, [])

/-- The rest of a word between double quotes. With `here` it is the text of a
here-document, which ends with the text and where quotes mean nothing. -/
def readQuoted (here : Bool) : Nat → List Char → Option (ShellWord × List Char)
  | 0, _ => none
  | _ + 1, [] => if here then some ([], []) else none
  | fuel + 1, '\\' :: c :: cs => do
    let (parts, rest) ← readQuoted here fuel cs
    if c = '\n' then some (parts, rest)
    else if c = '$' ∨ c = '\\' ∨ c = Char.ofNat 0x60 ∨ (c = '"' ∧ here = false) then
      some (.text [c] true :: parts, rest)
    else some (.text ['\\', c] true :: parts, rest)
  | fuel + 1, '$' :: cs => do
    let (part, rest) ← dollar true cs
    let (parts, rest) ← readQuoted here fuel rest
    some (part :: parts, rest)
  | fuel + 1, c :: cs =>
    if c = '"' ∧ here = false then some ([.text [] true], cs)
    else if c = Char.ofNat 0x60 then do
      let (inside, rest) ← untilBackquote [] cs
      let (parts, rest) ← readQuoted here fuel rest
      some (.command inside true :: parts, rest)
    else do
      let (parts, rest) ← readQuoted here fuel cs
      some (.text [c] true :: parts, rest)

/-- Characters that end a word outside of quotes. -/
def endsWord (c : Char) : Bool := " \t\n;&|<>()".toList.contains c

/-- A word, and the rest after it. -/
def readWord : Nat → List Char → Option (ShellWord × List Char)
  | 0, _ => none
  | _ + 1, [] => some ([], [])
  | fuel + 1, '\\' :: c :: cs => do
    let (parts, rest) ← readWord fuel cs
    some (if c = '\n' then (parts, rest) else (.text [c] true :: parts, rest))
  | fuel + 1, '\'' :: cs =>
    match cs.span (· ≠ '\'') with
    | (inside, _ :: rest) => do
      let (parts, rest) ← readWord fuel rest
      some (.text inside true :: parts, rest)
    | _ => none
  | fuel + 1, '"' :: cs => do
    let (inside, rest) ← readQuoted false (cs.length + 1) cs
    let (parts, rest) ← readWord fuel rest
    some (inside ++ parts, rest)
  | fuel + 1, '$' :: cs => do
    let (part, rest) ← dollar false cs
    let (parts, rest) ← readWord fuel rest
    some (part :: parts, rest)
  | fuel + 1, c :: cs =>
    if c = Char.ofNat 0x60 then do
      let (inside, rest) ← untilBackquote [] cs
      let (parts, rest) ← readWord fuel rest
      some (.command inside false :: parts, rest)
    else if endsWord c then some ([], c :: cs)
    else do
      let (parts, rest) ← readWord fuel cs
      some (.text [c] false :: parts, rest)

/-- The text of a word that consists of unquoted characters only. -/
def plainText : ShellWord → Option (List Char)
  | [] => some []
  | .text cs false :: parts => (plainText parts).map (cs ++ ·)
  | _ => none

/-- The text of a word, quotes removed, if nothing in it is substituted. -/
def literalText : ShellWord → Option (List Char)
  | [] => some []
  | .text cs _ :: parts => (literalText parts).map (cs ++ ·)
  | _ => none

/-! ## Tokens -/

/-- A here-document whose text has not been reached. -/
structure Pending where
  descriptor : Option Nat
  stop : List Char
  /-- Whether its text is taken as it is. -/
  raw : Bool
  /-- Whether tabs at the start of lines are dropped. -/
  dropTabs : Bool

/-- A line and the rest after it. -/
def takeLine (cs : List Char) : List Char × List Char :=
  let p := cs.span (· ≠ '\n')
  (p.1, p.2.drop 1)

/-- The text of a here-document, and the rest after its last line. -/
def takeDocument (p : Pending) : Nat → List Char → List Char × List Char
  | 0, cs => ([], cs)
  | fuel + 1, cs =>
    match cs with
    | [] => ([], [])
    | _ =>
      let (line, rest) := takeLine cs
      let line := if p.dropTabs then line.dropWhile (· = '\t') else line
      if line = p.stop then ([], rest)
      else
        let (more, rest) := takeDocument p fuel rest
        (line ++ '\n' :: more, rest)

/-- The token of a here-document with its text. -/
def documentToken (p : Pending) (text : List Char) : Option Token :=
  if p.raw then some (.document p.descriptor [.text text true])
  else (readQuoted true (text.length + 1) text).map fun r => .document p.descriptor r.1

/-- The texts of here-documents in order, and the rest after them. -/
def takeDocuments : List Pending → List Char → Option (List Token × List Char)
  | [], cs => some ([], cs)
  | p :: ps, cs => do
    let (text, rest) := takeDocument p (cs.length + 1) cs
    let token ← documentToken p text
    let (tokens, rest) ← takeDocuments ps rest
    some (token :: tokens, rest)

/-- Operators, longer ones first. -/
def operators : List String := [";;", "&&", "||", ";", "&", "|", "(", ")"]

/-- Redirection operators, longer ones first. -/
def redirectOperators : List String := ["<<-", "<<", ">>", "<&", ">&", ">|", "<>", "<", ">"]

/-- The operator that a text starts with. -/
def operatorOf (ops : List String) (cs : List Char) : Option String :=
  ops.find? fun op => op.toList.isPrefixOf cs

/-- Put the texts of here-documents where their operators stand. -/
def fillDocuments : List Token → List Token → List Token
  | [], _ => []
  | .document d [] :: ts, doc :: docs =>
    (match doc with
      | .document _ w => .document d w
      | t => t) :: fillDocuments ts docs
  | t :: ts, docs => t :: fillDocuments ts docs

/-- The tokens of a script. `line` counts lines, `pending` are the here-documents
of the line at hand, and `acc` are its tokens so far, last first. -/
def tokenize : Nat → Nat → List Pending → List Token → List Char → Option (List Token)
  | 0, _, _, _, _ => none
  | _ + 1, _, pending, acc, [] => do
    let (docs, _) ← takeDocuments pending []
    some (fillDocuments acc.reverse docs)
  | fuel + 1, line, pending, acc, c :: cs =>
    if c = ' ' ∨ c = '\t' then tokenize fuel line pending acc cs
    else if c = '\\' ∧ cs.head? = some '\n' then tokenize fuel (line + 1) pending acc cs.tail
    else if c = '#' then tokenize fuel line pending acc (cs.dropWhile (· ≠ '\n'))
    else if c = '\n' then do
      let (docs, rest) ← takeDocuments pending cs
      let skipped := (cs.take (cs.length - rest.length)).count '\n'
      let more ← tokenize fuel (line + 1 + skipped) [] [] rest
      some (fillDocuments acc.reverse docs ++ .newline :: more)
    else
      let digits := ((c :: cs).takeWhile Char.isDigit)
      let afterDigits := (c :: cs).drop digits.length
      let descriptor :=
        if digits.isEmpty then none else some (digits.foldl (fun n d => n * 10 + (d.toNat - 48)) 0)
      match operatorOf redirectOperators afterDigits with
      | some op =>
        let rest := afterDigits.drop op.length
        if op = "<<" ∨ op = "<<-" then do
          let body := rest.dropWhile fun c => c = ' ' ∨ c = '\t'
          let (w, rest) ← readWord (body.length + 1) body
          let stop ← literalText w
          let p : Pending := ⟨descriptor, stop, (plainText w).isNone, op = "<<-"⟩
          tokenize fuel line (pending ++ [p]) (.document descriptor [] :: acc) rest
        else tokenize fuel line pending (.redirect descriptor op :: acc) rest
      | none =>
        match operatorOf operators (c :: cs) with
        | some op => tokenize fuel line pending (.operator op :: acc) ((c :: cs).drop op.length)
        | none => do
          let (w, rest) ← readWord (cs.length + 2) (c :: cs)
          let skipped := ((c :: cs).take (cs.length + 1 - rest.length)).count '\n'
          tokenize fuel (line + skipped) pending (.word line w :: acc) rest

end MediaPipeline.Shell
