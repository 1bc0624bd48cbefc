import MediaPipeline.Proofs.RunCongruence

/-!
# What a run comes to

The steps, commands and pipes that a run comes to, in order: `Pipeline.parts`. They are
found by going through the steps as a run does, with the store as it changes on the way.
Commands are resolved and pipes are planned, but then they are only noted: nothing is
started, and nothing is reported.
-/

namespace MediaPipeline

/-- A piece of a run. -/
inductive Part where
  | step (operation : OperationName) (scope : Scope)
  | once (c : Command)
  | pipe (plan : PipePlan)
deriving DecidableEq

/-- The piece that an event stands for, if a step is entered. -/
def Event.part? : Event → Option Part
  | .entered operation scope => some (.step operation scope)
  | _ => none

/-- A machine that does nothing, and refuses whatever can be refused. -/
def Host.idle (σ : Type) : Host σ where
  home := ⟨"/"⟩
  readText _ _ := .error .notFound
  isPresent _ _ := false
  isFile _ _ := false
  which _ _ := none
  createDirs _ m := (.error .permissionDenied, m)
  createTemporary _ m := (.error .permissionDenied, m)
  createFile _ m := (.error .permissionDenied, m)
  duplicate _ m := (.error .permissionDenied, m)
  remove _ m := (.error .notFound, m)
  capture _ _ m := (.error .notFound, m)
  launch _ m := (.error .notFound, m)
  connect _ _ m := m
  join _ _ m := m
  bridge _ _ m := m
  discard _ m := m
  drain _ _ m := (true, m)
  closeInput _ m := m
  await _ m := (.unknown .notFound, m)
  kill _ m := m

/-- What a listing has come to: the pieces that it has noted, and the steps that it has
entered since. -/
def RunState.parts (s : RunState (List Part)) : List Part :=
  s.machine ++ s.events.filterMap Event.part?

namespace Run

/-- Note a piece, after the steps that lead to it. -/
def note (part : Part) : Run (List Part) Unit :=
  modify fun s => { s with machine := s.parts ++ [part], events := [] }

/-- Note a command, unless its guard skips it. -/
def noteCommand (w : Workspace) (c : CommandTemplate) (scope : Scope) : Run (List Part) Unit := do
  match ← onStore (c.resolve w scope) with
  | some command => note (.once command)
  | none => pure ()

/-- Note a pipe that is not to be left out. -/
def notePlan (plan : PipePlan) : Run (List Part) Unit :=
  if plan.tail.isEmpty then pure ()
  else if plan.groups.any (·.isEmpty) then fail (.emptyCycleGroup plan.name.render)
  else note (.pipe plan)

/-- Plan a pipe and note it, unless its guard skips it. -/
def notePipe (w : Workspace) (p : PipeTemplate) (scope : Scope) : Run (List Part) Unit := do
  match ← planPipe ⟨.idle (List Part), w, false⟩ p scope with
  | some plan => notePlan plan
  | none => pure ()

/-- Go through the steps of a pipeline and note what is to be run. -/
def listing (w : Workspace) (p : Pipeline) : Run (List Part) Unit := do
  let steps ← resume p.compile
  interpret (noteCommand w) (notePipe w) .global steps

theorem result_listing (w : Workspace) (p : Pipeline) (s : RunState (List Part)) :
    (listing w p).result s =
      match p.compile with
      | .error f => (.error f, s)
      | .ok steps => (interpret (noteCommand w) (notePipe w) .global steps).result s := by
  rw [listing, result_bind, result_resume]
  rcases p.compile with f | steps <;> rfl

end Run

/-- What a run of a pipeline comes to that begins with a store. -/
def Pipeline.parts (p : Pipeline) (w : Workspace) (store : Store) : List Part :=
  ((Run.listing w p).result ⟨store, firstSeq, [], []⟩).2.parts

end MediaPipeline
