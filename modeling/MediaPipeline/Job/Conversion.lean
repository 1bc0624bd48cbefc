import MediaPipeline.Document.Json
import MediaPipeline.Document.Toml
import MediaPipeline.Job.Package
import MediaPipeline.Job.Probe
import MediaPipeline.Job.Settings
import MediaPipeline.Pipeline.Decode
import MediaPipeline.Run.Engine

/-!
# Conversions

A conversion loads a pipeline and a package, prepares a workspace, finds the
tools, fills in parameters, probes the essences and runs the pipeline. Each part
starts only when those before it have succeeded.
-/

namespace MediaPipeline

variable {σ α : Type}

/-! ## Files -/

/-- The text of a file of a job. -/
def readInput (host : Host σ) (machine : σ) (file : InputFile) (path : Path) :
    Except JobFailure String :=
  (host.readText path machine).mapError fun e =>
    (JobFailure.ofCause (.system e)).within (.reading file path)

/-- The value of a file of a job, unless it is malformed. -/
def requireParsed (file : InputFile) (path : Path) : Option α → Except JobFailure α
  | some a => .ok a
  | none => .error ((JobFailure.ofCause .malformed).within (.parsing file path))

/-- The pipeline in a text. -/
def Pipeline.read? (text : String) : Option Pipeline := (Toml.parse? text).bind Pipeline.decode

/-- The pipeline in a file; one without a name is named after the file. -/
def Pipeline.load (host : Host σ) (machine : σ) (path : Path) : Except JobFailure Pipeline := do
  let text ← readInput host machine .pipeline path
  let p ← requireParsed .pipeline path (Pipeline.read? text)
  pure (if p.name.isEmpty then { p with name := path.fileStem?.getD "" } else p)

/-- The package in a file. -/
def Package.load (host : Host σ) (machine : σ) (path : Path) : Except JobFailure Package := do
  let text ← readInput host machine .package path
  requireParsed .package path ((Json.parse? text).bind Package.decode)

/-! ## Workspaces -/

/-- Make the directories of a workspace. -/
def Workspace.create (host : Host σ) (w : Workspace) (machine : σ) :
    Except OsError Unit × σ :=
  match host.createDirs w.directory machine with
  | (.error e, machine) => (.error e, machine)
  | (.ok (), machine) => host.createDirs w.logs machine

/-- How the names of temporary workspaces start. -/
def temporaryPrefix : String := "convforge-"

/-- Prepare a workspace in a directory, or in a temporary one. -/
def Workspace.prepare (host : Host σ) (directory logs : Option Path) (machine : σ) :
    Except OsError Workspace × σ :=
  match directory with
  | some dir =>
    let w := Workspace.inDirectory dir logs
    match w.create host machine with
    | (.ok (), machine) => (.ok w, machine)
    | (.error e, machine) => (.error e, machine)
  | none =>
    match host.createTemporary temporaryPrefix machine with
    | (.error e, machine) => (.error e, machine)
    | (.ok dir, machine) =>
      let w : Workspace := { Workspace.inDirectory dir logs with temporary := true }
      match w.create host machine with
      | (.ok (), machine) => (.ok w, machine)
      | (.error e, machine) => (.error e, (host.remove dir machine).2)

/-! ## Conversions -/

/-- What is converted, and how. -/
structure Conversion where
  pipeline : Path
  package : Path
  /-- The working directory, in place of the configured one. -/
  directory : Option Path
  /-- Dynamic parameters, in place of configured ones with their names. -/
  parameters : List (String × String)
  dryRun : Bool
deriving DecidableEq

/-- A part of a job. -/
abbrev Job (σ : Type) := ExceptT JobFailure (StateM (RunState σ))

namespace Job

/-- Carry out a part of a job. -/
def result (act : Job σ α) (s : RunState σ) : Except JobFailure α × RunState σ := act.run.run s

/-- Look at the machine. -/
def inspect (f : σ → Except JobFailure α) : Job σ α := do
  match f (← get).machine with
  | .ok a => pure a
  | .error e => throw e

/-- Say what a part of a job does. -/
def during (context : JobContext) (act : Job σ α) : Job σ α :=
  tryCatch act fun f => throw (f.within context)

/-- A part of a run as a part of a job. -/
def ofRun (act : Run σ α) : Job σ α := do
  let r := act.result (← get)
  set r.2
  match r.1 with
  | .ok a => pure a
  | .error f => throw (.ofCause (.failed f))

/-- Ask the machine for something without which the job cannot go on. -/
def machine (f : σ → Except OsError α × σ) : Job σ α :=
  ofRun do
    match ← Run.machine f with
    | .ok a => pure a
    | .error e => Run.fail (.system e)

/-- A job that does something to its end, and then something else whatever came
of it. -/
def ensuring (act : Job σ α) (after : Run σ Unit) : Job σ α := do
  let outcome ← tryCatch (do pure (Except.ok (← act))) fun f => pure (Except.error f)
  ofRun after
  match outcome with
  | .ok a => pure a
  | .error f => throw f

/-! ### What comes of a part of a job -/

variable {β : Type}

@[simp] theorem result_pure (a : α) (s : RunState σ) :
    (pure a : Job σ α).result s = (.ok a, s) := rfl

theorem result_bind (act : Job σ α) (f : α → Job σ β) (s : RunState σ) :
    (act >>= f).result s =
      match act.result s with
      | (.ok a, t) => (f a).result t
      | (.error e, t) => (.error e, t) := by
  simp only [result, bind, ExceptT.bind, ExceptT.mk, ExceptT.run, StateT.run, StateT.bind]
  rcases act s with ⟨_ | _, _⟩ <;> rfl

theorem result_tryCatch (act : Job σ α) (handle : JobFailure → Job σ α) (s : RunState σ) :
    (tryCatch act handle).result s =
      match act.result s with
      | (.ok a, t) => (.ok a, t)
      | (.error e, t) => (handle e).result t := by
  simp only [result, tryCatch, tryCatchThe, MonadExceptOf.tryCatch, ExceptT.tryCatch,
    ExceptT.mk, ExceptT.run, StateT.run, bind, StateT.bind]
  rcases act s with ⟨_ | _, _⟩ <;> rfl

@[simp] theorem result_modify (f : RunState σ → RunState σ) (s : RunState σ) :
    (modify f : Job σ Unit).result s = (.ok (), f s) := rfl

@[simp] theorem result_inspect (f : σ → Except JobFailure α) (s : RunState σ) :
    (inspect f).result s = (f s.machine, s) := by
  have h : (inspect f).result s =
      (match f s.machine with
      | .ok a => pure a
      | .error e => throw e : Job σ α).result s := rfl
  rw [h]
  cases f s.machine <;> rfl

@[simp] theorem result_during (context : JobContext) (act : Job σ α) (s : RunState σ) :
    (during context act).result s =
      ((act.result s).1.mapError (·.within context), (act.result s).2) := by
  simp only [during, result_tryCatch]
  rcases act.result s with ⟨_ | _, _⟩ <;> rfl

@[simp] theorem result_ofRun (act : Run σ α) (s : RunState σ) :
    (ofRun act).result s =
      ((act.result s).1.mapError fun f => .ofCause (.failed f), (act.result s).2) := by
  have h : (ofRun act).result s =
      (match (act.result s).1 with
      | .ok a => pure a
      | .error f => throw (.ofCause (.failed f)) : Job σ α).result (act.result s).2 := rfl
  rw [h]
  cases (act.result s).1 <;> rfl

@[simp] theorem result_machine (f : σ → Except OsError α × σ) (s : RunState σ) :
    (machine f).result s =
      ((f s.machine).1.mapError fun e => .ofCause (.failed (.plain (.system e))),
        { s with machine := (f s.machine).2 }) := by
  simp only [machine, result_ofRun, Run.result_bind, Run.result_machine]
  cases (f s.machine).1 <;> rfl

theorem result_ensuring (act : Job σ α) (after : Run σ Unit) (s : RunState σ) :
    (ensuring act after).result s =
      match after.result (act.result s).2 with
      | (.ok _, t) => ((act.result s).1, t)
      | (.error f, t) => (.error (.ofCause (.failed f)), t) := by
  have h : (tryCatch (do pure (Except.ok (← act))) fun f => pure (Except.error f) :
      Job σ (Except JobFailure α)).result s = (.ok (act.result s).1, (act.result s).2) := by
    simp only [result_tryCatch, result_bind]
    rcases act.result s with ⟨_ | _, _⟩ <;> rfl
  simp only [ensuring, result_bind, h, result_ofRun]
  rcases after.result (act.result s).2 with ⟨_ | _, t⟩
  · rfl
  · cases (act.result s).1 <;> rfl

end Job

namespace Conversion

/-- Fill in the dynamic parameters of tools, settings and request; later ones win. -/
def fillIn (c : Conversion) (settings : Settings) (tools : Toolbox) (s : Store) : Store :=
  (settings.parameters ++ c.parameters).foldl (fun s p => s.setDynamic p.1 p.2) (tools.exportTo s)

/-- Load and check what is converted. -/
def load (host : Host σ) (c : Conversion) : Job σ Pipeline := do
  let p ← Job.inspect fun m => Pipeline.load host m c.pipeline
  Job.during (.validating c.pipeline) (Job.ofRun (Run.resume p.validate))
  let package ← Job.inspect fun m => Package.load host m c.package
  let store ← Job.inspect fun _ => package.toStore
  modify fun s => { s with store := store }
  pure p

/-- Convert in a workspace. -/
def runIn (host : Host σ) (settings : Settings) (c : Conversion) (p : Pipeline)
    (w : Workspace) : Job σ Unit := do
  let tools ← Job.inspect fun m =>
    .ok (Toolbox.discover host m (settings.configuredTools host.home))
  modify fun s => { s with store := c.fillIn settings tools s.store }
  if settings.probes && !c.dryRun then
    let _ ← Job.during .probing (Job.ofRun (Probe.populate host tools w))
  Job.ofRun (Run.pipeline ⟨host, w, c.dryRun⟩ settings.cleansUp p)

/-- Remove a workspace that was made for one conversion. -/
def discard (host : Host σ) (w : Workspace) : Run σ Unit :=
  if w.temporary then Run.adjust fun m => (host.remove w.directory m).2 else pure ()

/-- Convert. -/
def run (host : Host σ) (settings : Settings) (c : Conversion) : Job σ Unit := do
  let p ← c.load host
  let w ← Job.during .preparing
    (Job.machine (Workspace.prepare host (c.directory.or settings.directory) settings.logs))
  Job.ensuring (c.runIn host settings p w) (discard host w)

end Conversion

end MediaPipeline
