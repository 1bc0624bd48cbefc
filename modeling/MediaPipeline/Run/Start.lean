import MediaPipeline.Run.State

/-!
# Starting and awaiting processes

Every process has a number of its own and a log that is named after it. Its
error messages go to the log; what it prints goes to the next process, to a
declared file or to the log as well.
-/

namespace MediaPipeline

namespace Run

variable {σ α : Type}

/-- Ask the machine for something without which a process cannot start. -/
def starting (p : LiveProcess) (f : σ → Except OsError α × σ) : Run σ α := do
  match ← machine f with
  | .ok a => pure a
  | .error e => do
    record (.refused p e)
    fail (.spawn p.program p.operation.render e)

/-- Make the directory that a file goes into. -/
def makeParent (setup : RunSetup σ) (p : LiveProcess) (path : Path) : Run σ Unit :=
  match path.parent? with
  | some parent => starting p (setup.host.createDirs parent)
  | none => pure ()

/-- Open the file that takes what a process prints. -/
def openOutput (setup : RunSetup σ) (p : LiveProcess) (log : FileHandle) : Run σ ProcessOutput :=
  match p.redirect with
  | .pipe => pure .pipe
  | .log => do
    let handle ← starting p (setup.host.duplicate log)
    pure (.file handle)
  | .file path => do
    makeParent setup p path
    let handle ← starting p (setup.host.createFile path)
    pure (.file handle)

/-- Open the log of a process and launch it. -/
def launch (setup : RunSetup σ) (p : LiveProcess) : Run σ Unit := do
  let log ← starting p (setup.host.createFile (p.log setup.workspace))
  record (.logged p.seq (p.log setup.workspace))
  let output ← openOutput setup p log
  record (.launched p.command.program p.command.arguments)
  starting p (setup.host.launch (p.request setup.workspace output log))

/-- Start a command. -/
def start (setup : RunSetup σ) (c : Command) (strategy : Strategy) (input : ProcessInput)
    (redirect : Redirect) : Run σ LiveProcess := do
  let seq ← takeNumber
  let p := c.process seq strategy input redirect
  launch setup p
  record (.started p)
  pure p

/-- Wait for a process. -/
def await (setup : RunSetup σ) (p : LiveProcess) : Run σ Ending := do
  let status ← machine (setup.host.await p.seq)
  record (.finished p status)
  pure status

/-- Require that a process was successful. -/
def requireSuccess (p : LiveProcess) : Ending → Run σ Unit
  | .known status =>
    if status.isSuccess then pure ()
    else fail (.processFailed p.program p.operation.render status)
  | .unknown e => fail (.system e)

/-- Run one command to its end. -/
def once (setup : RunSetup σ) (c : Command) : Run σ Unit := do
  if setup.dryRun then record (.skipped c .once)
  else
    let p ← start setup c .once .empty (Redirect.forStage c true)
    let status ← await setup p
    requireSuccess p status

end Run

end MediaPipeline
