import MediaPipeline.Pipeline.Compile
import MediaPipeline.Run.Cleanup
import MediaPipeline.Run.Pipe

/-!
# Running pipelines

Operations run in order, each in its scope, until one fails. A failure is placed
in the operation in which it arose, and in that operation's scope.
-/

namespace MediaPipeline

namespace Run

variable {σ : Type}

/-- The integer that a template stands for. -/
def integer (scope : Scope) (t : Template) : Run σ Int := do
  let value ← onStore (t.render scope)
  match Text.int? value.toList with
  | some n => pure n
  | none => fail (.template t.source (.loopBoundNotInteger value))

/-- The index with which a loop begins. -/
def loopFirst (head : LoopTemplate) (scope : Scope) : Run σ Int :=
  match head.first with
  | some t => integer scope t
  | none => pure 0

/-- The indices of a loop. -/
def loopRange (head : LoopTemplate) (scope : Scope) : Run σ Template.IndexRange := do
  let first ← loopFirst head scope
  match head.bound with
  | .last t => do
    let last ← integer scope t
    pure (.inclusive first last)
  | .count t => do
    let count ← integer scope t
    if count < 0 then fail (.template t.source (.loopNegativeCount head.var count))
    else
      match Template.IndexRange.counted? first count with
      | some range => pure range
      | none => fail (.template t.source (.loopCountOverflow head.var first count))

/-- Run a command in a scope, unless its guard skips it. -/
def runCommand (setup : RunSetup σ) (c : CommandTemplate) (scope : Scope) : Run σ Unit := do
  match ← onStore (c.resolve setup.workspace scope) with
  | some command => once setup command
  | none => pure ()

/-- Assign a parameter, unless the guard skips it. -/
def runAssign (a : AssignTemplate) (scope : Scope) : Run σ Unit := do
  if ← ofExcept (guardAllows (← store) scope a.guard) then
    let value ← onStore (a.value.render scope)
    match (← store).addParameter a.target.kind scope a.parameter ⟨value, a.cleanup⟩ with
    | .ok s => modifyStore fun _ => s
    | .error missing => fail missing.toCause
  else pure ()

/-- Derive a channel mapping and store its expression. -/
def runAudioMap (m : AudioMapTemplate) (scope : Scope) : Run σ Unit := do
  ofExcept (checkAudioHomogeneity (← store))
  let tracks ← ofExcept (trackChannels (← store))
  let name ← onStore (m.layout.render scope)
  match ChannelLayout.ofName? name with
  | none => fail (.config (.unknownLayout name))
  | some layout => do
    let pan ← ofExcept (panParameter tracks layout (m.mapping.getD (defaultMapping tracks layout)))
    modifyStore fun s => s.setDynamic m.parameter pan

/-- Resolve the stages of a chain; those that a guard skips are left out. -/
def resolveStages (setup : RunSetup σ) (scope : Scope) :
    List CommandTemplate → Run σ (List Command)
  | [] => pure []
  | stage :: rest => do
    record (.entered stage.name scope)
    let command ← placed stage.name scope (onStore (stage.resolve setup.workspace scope))
    let more ← resolveStages setup scope rest
    pure (command.toList ++ more)

/-- The scopes in which the stages of a cycle run. -/
def cycleScopes (store : Store) (scope : Scope) (c : CycleTemplate) : List Scope :=
  match c.repetition with
  | .once => [scope]
  | .eachSegment => store.segments.map scope.withSegment
  | .eachSequence => (store.sequencesOf c.types).map fun p => scope.enterSequence p.1 p.2

/-- The groups of one cycle; a group without stages is left out. -/
def resolveGroups (setup : RunSetup σ) (stages : List CommandTemplate) :
    List Scope → Run σ (List (List Command))
  | [] => pure []
  | scope :: rest => do
    let group ← resolveStages setup scope stages
    let more ← resolveGroups setup stages rest
    pure (if group.isEmpty then more else group :: more)

/-- The groups of all cycles. -/
def resolveCycles (setup : RunSetup σ) (scope : Scope) :
    List CycleTemplate → Run σ (List (List Command))
  | [] => pure []
  | c :: rest => do
    let groups ← resolveGroups setup c.stages (cycleScopes (← store) scope c)
    let more ← resolveCycles setup scope rest
    pure (groups ++ more)

/-- The plan of a pipe in a scope, unless its guard skips it. -/
def planPipe (setup : RunSetup σ) (p : PipeTemplate) (scope : Scope) :
    Run σ (Option PipePlan) := do
  if ← ofExcept (guardAllows (← store) scope p.guard) then
    let tail ← resolveStages setup scope p.tail
    let groups ← resolveCycles setup scope p.cycles
    pure (some ⟨p.name, groups, tail⟩)
  else pure none

/-- Plan and run a pipe in a scope. -/
def runPipeStep (setup : RunSetup σ) (p : PipeTemplate) (scope : Scope) : Run σ Unit := do
  match ← planPipe setup p scope with
  | some plan => runPipe setup plan
  | none => pure ()

/-- Do something for each of some values. -/
def forEach {α : Type} (act : α → Run σ Unit) : List α → Run σ Unit
  | [] => pure ()
  | a :: rest => do
    act a
    forEach act rest

/-- Do something for each of `n` indices from `i`, each time after writing the
index to a dynamic parameter. -/
def forIndices (var : String) (act : Run σ Unit) : Nat → Int → Run σ Unit
  | 0, _ => pure ()
  | n + 1, i => do
    modifyStore fun s => s.setDynamic var (Text.showInt i)
    act
    forIndices var act n (i + 1)

/-- Evaluate one step in its scope: what goes wrong in it is placed there. -/
def step {α : Type} (name : OperationName) (scope : Scope) (act : Run σ α) : Run σ α := do
  record (.entered name scope)
  placed name scope act

/-- Run steps in a scope. -/
def execute (setup : RunSetup σ) (scope : Scope) : Steps → Run σ Unit
  | .done => pure ()
  | .command c rest => do
    step c.name scope (runCommand setup c scope)
    execute setup scope rest
  | .eachSegment name body rest => do
    record (.entered name scope)
    forEach (fun id => execute setup (scope.withSegment id) body) (← store).segments
    execute setup scope rest
  | .eachSequence name types body rest => do
    record (.entered name scope)
    forEach (fun p => execute setup (scope.enterSequence p.1 p.2) body)
      ((← store).sequencesOf types)
    execute setup scope rest
  | .pipe p rest => do
    step p.name scope (runPipeStep setup p scope)
    execute setup scope rest
  | .assign a rest => do
    step a.name scope (runAssign a scope)
    execute setup scope rest
  | .branch name condition yes no rest => do
    let taken ← step name scope (do ofExcept (condition.eval (← store) scope))
    if taken then execute setup scope yes else execute setup scope no
    execute setup scope rest
  | .loop head body rest => do
    let range ← step head.name scope (loopRange head scope)
    forIndices head.var (execute setup scope body) range.length range.first
    execute setup scope rest
  | .audioMap m rest => do
    step m.name scope (runAudioMap m scope)
    execute setup scope rest

/-- Remove the files of flagged parameters and record how that went. -/
def cleanUp (setup : RunSetup σ) (failed : Bool) : Run σ Unit := do
  let report ← machine (Cleanup.perform setup.host (← store) setup.workspace failed)
  record (.cleaned report)

theorem result_cleanUp (setup : RunSetup σ) (failed : Bool) (s : RunState σ) :
    (cleanUp setup failed).result s =
      let r := Cleanup.perform setup.host s.store setup.workspace failed s.machine
      (.ok (), { s with machine := r.2, events := s.events ++ [.cleaned r.1] }) := rfl

/-- Run a pipeline and clean up after it. A pipeline that cannot be compiled
leaves no trace. -/
def pipeline (setup : RunSetup σ) (cleanup : Bool) (p : Pipeline) : Run σ Unit := do
  let steps ← resume p.compile
  modify fun s => { s with next := firstSeq }
  let outcome ← attempt (execute setup .global steps)
  if cleanup then cleanUp setup !outcome.isOk
  resume outcome

/-- A run executes the steps from the first number on; the clean-up comes last, whatever
came of them. -/
theorem result_pipeline (setup : RunSetup σ) (cleanup : Bool) (p : Pipeline) (s : RunState σ) :
    (pipeline setup cleanup p).result s =
      match p.compile with
      | .error f => (.error f, s)
      | .ok steps =>
        let r := (execute setup .global steps).result { s with next := firstSeq }
        (r.1, if cleanup then ((cleanUp setup !r.1.isOk).result r.2).2 else r.2) := by
  unfold pipeline
  rw [result_bind, result_resume]
  rcases p.compile with f | steps
  · rfl
  · have hmodify : (modify fun s => { s with next := firstSeq } : Run σ Unit).result s =
        (.ok (), { s with next := firstSeq }) := rfl
    dsimp only
    rw [result_bind, hmodify]
    dsimp only
    rw [result_bind, result_attempt]
    cases cleanup with
    | false => exact result_resume _ _
    | true => exact result_resume _ _

end Run

end MediaPipeline
