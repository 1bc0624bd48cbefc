import MediaPipeline.Template.Token

/-!
# Blocks

The block structure of a template. The parser reads tokens from left to right
and keeps the blocks that are still open on a stack, innermost first.
-/

namespace MediaPipeline.Template

/-- The upper bound of a loop. -/
inductive Bound where
  /-- The last index, included. -/
  | last (w : Word)
  /-- The number of iterations. -/
  | count (w : Word)
deriving DecidableEq

/-- The word of a bound. -/
def Bound.word : Bound → Word
  | last w => w
  | count w => w

/-- The head of a loop. -/
structure LoopHead where
  var : String
  first : Option Word
  bound : Bound
deriving DecidableEq

/-- A template as a sequence of text, references and blocks; each constructor but
the first carries what follows it. -/
inductive Block where
  | done
  | text (cs : List Char) (rest : Block)
  | reference (r : Reference) (rest : Block)
  | loop (head : LoopHead) (body rest : Block)
  | branch (condition : Condition) (yes no rest : Block)
deriving DecidableEq

namespace Block

/-- One sequence after the other. -/
def append : Block → Block → Block
  | done, b => b
  | text cs rest, b => text cs (append rest b)
  | reference r rest, b => reference r (append rest b)
  | loop head body rest, b => loop head body (append rest b)
  | branch condition yes no rest, b => branch condition yes no (append rest b)

instance : Append Block := ⟨append⟩

/-- Whether some reference reads a dynamic parameter. -/
def dependsOn (var : String) : Block → Bool
  | done => false
  | text _ rest => rest.dependsOn var
  | reference r rest => r.dependsOn var || rest.dependsOn var
  | loop head body rest =>
    (head.first.map (·.dependsOn var)).getD false || head.bound.word.dependsOn var ||
      body.dependsOn var || rest.dependsOn var
  | branch condition yes no rest =>
    condition.dependsOn var || yes.dependsOn var || no.dependsOn var || rest.dependsOn var

/-- The variables of all loops, at any depth. -/
def loopVariables : Block → List String
  | done => []
  | text _ rest => rest.loopVariables
  | reference _ rest => rest.loopVariables
  | loop head body rest => head.var :: (body.loopVariables ++ rest.loopVariables)
  | branch _ yes no rest => yes.loopVariables ++ no.loopVariables ++ rest.loopVariables

@[simp] theorem done_append (b : Block) : done ++ b = b := rfl

@[simp] theorem append_done (b : Block) : b ++ done = b := by
  show b.append done = b
  induction b with
  | done => rfl
  | text cs rest ih => simp [append, ih]
  | reference r rest ih => simp [append, ih]
  | loop head body rest _ ih => simp [append, ih]
  | branch condition yes no rest _ _ ih => simp [append, ih]

theorem append_assoc (a b c : Block) : a ++ b ++ c = a ++ (b ++ c) := by
  show (a.append b).append c = a.append (b.append c)
  induction a with
  | done => rfl
  | text cs rest ih => simp [append, ih]
  | reference r rest ih => simp [append, ih]
  | loop head body rest _ ih => simp [append, ih]
  | branch condition yes no rest _ _ ih => simp [append, ih]

end Block

/-- The arguments of a loop directive read so far. -/
structure LoopArguments where
  first : Option Word
  last : Option Word
  count : Option Word
deriving DecidableEq

/-- Read the arguments of a loop in order. A value may not read the loop's own
variable, and each argument may be given once. -/
def collectArguments (var : String) (acc : LoopArguments) :
    List (String × Word) → Except Fault LoopArguments
  | [] => .ok acc
  | (key, value) :: rest =>
    if value.dependsOn var then .error (.boundReadsVariable var)
    else if key = "from" then
      if acc.first.isSome then .error (.duplicateArgument key)
      else collectArguments var { acc with first := some value } rest
    else if key = "to" then
      if acc.last.isSome then .error (.duplicateArgument key)
      else collectArguments var { acc with last := some value } rest
    else if key = "count" then
      if acc.count.isSome then .error (.duplicateArgument key)
      else collectArguments var { acc with count := some value } rest
    else .error (.unknownArgument key)

/-- The head of a loop from its directive. -/
def LoopHead.ofArguments (var : String) (arguments : List (String × Word)) :
    Except Fault LoopHead := do
  let read ← collectArguments var ⟨none, none, none⟩ arguments
  match read.last, read.count with
  | some w, none => pure ⟨var, read.first, .last w⟩
  | none, some w => pure ⟨var, read.first, .count w⟩
  | some _, some _ => .error (.twoBounds var)
  | none, none => .error (.noBound var)

/-- A block that is still open, with what stands before it at its own level. -/
inductive Frame where
  | loop (var : String) (arguments : List (String × Word)) (before : Block)
  | branch (condition : Condition) (before : Block)
  /-- The second branch, after the first. -/
  | otherwise (condition : Condition) (yes before : Block)
deriving DecidableEq

/-- What is wrong when a template ends inside a block. -/
def Frame.openFault : Frame → Fault
  | loop var _ _ => .openLoop var
  | branch _ _ => .openBranch
  | otherwise _ _ _ => .openOtherwise

/-- Close or continue the innermost block, given its body so far. The result is
the body at the level where reading goes on and the blocks open there. -/
def closeFrame (closer : Closer) (body : Block) :
    List Frame → Except Fault (Block × List Frame)
  | [] => .error (.strayCloser closer)
  | .loop var arguments before :: frames =>
    if closer = .endFor then do
      let head ← LoopHead.ofArguments var arguments
      pure (before ++ .loop head body .done, frames)
    else .error (.closerInLoop closer var)
  | .branch condition before :: frames =>
    match closer with
    | .endIf => .ok (before ++ .branch condition body .done .done, frames)
    | .otherwise => .ok (.done, .otherwise condition body before :: frames)
    | .endFor => .error .loopEndInBranch
  | .otherwise condition yes before :: frames =>
    if closer = .endIf then .ok (before ++ .branch condition yes body .done, frames)
    else .error .openOtherwise

/-- Read the remaining tokens, given the body at the current level and the open
blocks around it. -/
def parseFrom (body : Block) (frames : List Frame) : List Token → Except Fault Block
  | [] =>
    match frames with
    | [] => .ok body
    | frame :: _ => .error frame.openFault
  | .text cs :: tokens => parseFrom (body ++ .text cs .done) frames tokens
  | .reference r :: tokens => parseFrom (body ++ .reference r .done) frames tokens
  | .openLoop var arguments :: tokens =>
    parseFrom .done (.loop var arguments body :: frames) tokens
  | .openBranch words :: tokens => do
    let condition ← Condition.ofWords words
    parseFrom .done (.branch condition body :: frames) tokens
  | .close closer :: tokens => do
    let (body, frames) ← closeFrame closer body frames
    parseFrom body frames tokens

/-- The block tree of a token list. -/
def Block.parse (tokens : List Token) : Except Fault Block := parseFrom .done [] tokens

end MediaPipeline.Template
