import MediaPipeline.Run.Host

/-!
# The state of a run

A run has the parameter store, the number that the next process gets, the
machine, and the record of what it did. A failure keeps everything that was done
before it.
-/

namespace MediaPipeline

/-- How a process is run. -/
inductive Strategy where
  | once
  | pipe
deriving DecidableEq, Repr

/-- The name of a strategy. -/
def Strategy.name : Strategy → String
  | once => "once"
  | pipe => "pipe"

/-- What a clean-up has done. -/
structure CleanupReport where
  removed : Nat
  /-- Paths that were gone already. -/
  missing : Nat
  /-- Paths that could not be removed. -/
  failed : Nat
deriving DecidableEq

/-- A process that is started. -/
structure LiveProcess where
  seq : Nat
  /-- The command that it runs. -/
  command : Command
  strategy : Strategy
  redirect : Redirect
  /-- What it reads. The first process of a pipeline reads nothing, and how it ends
  decides whether the pipeline succeeds. -/
  input : ProcessInput
deriving DecidableEq

namespace LiveProcess

/-- The operation or stage that a process belongs to. -/
def operation (p : LiveProcess) : OperationName := p.command.name

/-- The program of a process, as messages show it. -/
def program (p : LiveProcess) : String := p.command.displayProgram

/-- The file that takes the error messages of a process. -/
def log (p : LiveProcess) (w : Workspace) : Path := w.diagnosticLog p.seq p.program

/-- What the machine is asked for to start a process, once its files are open. -/
def request (p : LiveProcess) (w : Workspace) (output : ProcessOutput) (errors : FileHandle) :
    Launch :=
  ⟨p.seq, p.command.program, p.command.arguments, w.directory, p.input, output, errors⟩

end LiveProcess

/-- The process of a command that gets a number. -/
def Command.process (c : Command) (seq : Nat) (strategy : Strategy) (input : ProcessInput)
    (redirect : Redirect) : LiveProcess :=
  ⟨seq, c, strategy, redirect, input⟩

/-- Something that a run did. -/
inductive Event where
  /-- A step, or a stage of a pipe, is evaluated in a scope. -/
  | entered (operation : OperationName) (scope : Scope)
  /-- A log was opened. -/
  | logged (seq : Nat) (log : Path)
  /-- The machine was asked to start a program. -/
  | launched (program : String) (arguments : List String)
  /-- A command that would have been started. -/
  | skipped (command : Command) (strategy : Strategy)
  | started (process : LiveProcess)
  /-- A process could not be started. -/
  | refused (process : LiveProcess) (error : OsError)
  /-- A process was waited for. -/
  | finished (process : LiveProcess) (status : Ending)
  /-- A process was killed because its pipeline could not be started. -/
  | killed (process : LiveProcess)
  | wired (action : Wiring)
  /-- A bridge has copied what it could; whether the input behind it is still open. -/
  | drained (source target : Nat) (inputOpen : Bool)
  | cleaned (report : CleanupReport)
deriving DecidableEq

/-- The state of a run. -/
structure RunState (σ : Type) where
  store : Store
  /-- The number of the next process. -/
  next : Nat
  machine : σ
  /-- What was done, in order. -/
  events : List Event

/-- What does not change during a run. -/
structure RunSetup (σ : Type) where
  host : Host σ
  workspace : Workspace
  /-- Whether commands are resolved and reported but not started. -/
  dryRun : Bool

/-- A part of a run. -/
abbrev Run (σ : Type) := ExceptT Failure (StateM (RunState σ))

/-- The number of the first process of a run. -/
def firstSeq : Nat := 1

/-- Take the number of the next process. A run that starts 2^64 processes, which a 64-bit
counter cannot number, is left out. -/
def takeSeq (next : Nat) : Nat × Nat := (next, next + 1)

namespace Run

variable {σ α β : Type}

/-- Carry out a part of a run. -/
def result (act : Run σ α) (s : RunState σ) : Except Failure α × RunState σ := act.run.run s

/-- Stop with a cause that has no place yet. -/
def fail (cause : Cause) : Run σ α := throw (.plain cause)

/-- A value, or the cause to stop with. -/
def ofExcept : Except Cause α → Run σ α
  | .ok a => pure a
  | .error cause => fail cause

/-- Add to the record. -/
def record (e : Event) : Run σ Unit := modify fun s => { s with events := s.events ++ [e] }

/-- Ask the machine. -/
def machine (f : σ → α × σ) : Run σ α := do
  let s ← get
  let r := f s.machine
  set { s with machine := r.2 }
  pure r.1

/-- Change the machine. -/
def adjust (f : σ → σ) : Run σ Unit := modify fun s => { s with machine := f s.machine }

/-- The store as it is. -/
def store : Run σ Store := do pure (← get).store

/-- Carry out a computation on the store; a failure keeps what it wrote. -/
def onStore (act : Template.StoreM α) : Run σ α := do
  let s ← get
  let r := act.run.run s.store
  set { s with store := r.2 }
  ofExcept r.1

/-- Change the store. -/
def modifyStore (f : Store → Store) : Run σ Unit := modify fun s => { s with store := f s.store }

/-- Give every failure of a part its place, unless it has one. -/
def placed (operation : OperationName) (scope : Scope) (act : Run σ α) : Run σ α :=
  tryCatch act fun f => throw (f.inOperation operation scope)

/-- The outcome of a part, whether it failed or not. -/
def attempt (act : Run σ α) : Run σ (Except Failure α) :=
  tryCatch (do pure (.ok (← act))) fun f => pure (.error f)

/-- Go on with an outcome. -/
def resume : Except Failure α → Run σ α
  | .ok a => pure a
  | .error f => throw f

/-- Take the number of the next process. -/
def takeNumber : Run σ Nat := do
  let s ← get
  let r := takeSeq s.next
  set { s with next := r.2 }
  pure r.1

/-! ## What comes of a part of a run -/

@[simp] theorem result_pure (a : α) (s : RunState σ) :
    (pure a : Run σ α).result s = (.ok a, s) := rfl

@[simp] theorem result_throw (f : Failure) (s : RunState σ) :
    (throw f : Run σ α).result s = (.error f, s) := rfl

@[simp] theorem result_fail (cause : Cause) (s : RunState σ) :
    (fail cause : Run σ α).result s = (.error (.plain cause), s) := rfl

theorem result_bind (act : Run σ α) (f : α → Run σ β) (s : RunState σ) :
    (act >>= f).result s =
      match act.result s with
      | (.ok a, t) => (f a).result t
      | (.error e, t) => (.error e, t) := by
  simp only [result, bind, ExceptT.bind, ExceptT.mk, ExceptT.run, StateT.run, StateT.bind]
  rcases act s with ⟨_ | _, _⟩ <;> rfl

/-- A bind that ends well has gone well in both parts. -/
theorem result_bind_ok {act : Run σ α} {f : α → Run σ β} {s t : RunState σ} {b : β} :
    (act >>= f).result s = (.ok b, t) ↔
      ∃ a u, act.result s = (.ok a, u) ∧ (f a).result u = (.ok b, t) := by
  rw [result_bind]
  rcases act.result s with ⟨e | a, v⟩
  · constructor
    · intro h
      cases h
    · rintro ⟨a, u, h, -⟩
      cases h
  · constructor
    · exact fun h => ⟨a, v, rfl, h⟩
    · rintro ⟨a, u, h, hf⟩
      cases h
      exact hf

theorem result_tryCatch (act : Run σ α) (handle : Failure → Run σ α) (s : RunState σ) :
    (tryCatch act handle).result s =
      match act.result s with
      | (.ok a, t) => (.ok a, t)
      | (.error e, t) => (handle e).result t := by
  simp only [result, tryCatch, tryCatchThe, MonadExceptOf.tryCatch, ExceptT.tryCatch,
    ExceptT.mk, ExceptT.run, StateT.run, bind, StateT.bind]
  rcases act s with ⟨_ | _, _⟩ <;> rfl

@[simp] theorem result_record (e : Event) (s : RunState σ) :
    (record e).result s = (.ok (), { s with events := s.events ++ [e] }) := rfl

@[simp] theorem result_machine (f : σ → α × σ) (s : RunState σ) :
    (machine f).result s = (.ok (f s.machine).1, { s with machine := (f s.machine).2 }) := rfl

@[simp] theorem result_adjust (f : σ → σ) (s : RunState σ) :
    (adjust f).result s = (.ok (), { s with machine := f s.machine }) := rfl

@[simp] theorem result_store (s : RunState σ) : store.result s = (.ok s.store, s) := rfl

@[simp] theorem result_modifyStore (f : Store → Store) (s : RunState σ) :
    (modifyStore f).result s = (.ok (), { s with store := f s.store }) := rfl

@[simp] theorem result_takeNumber (s : RunState σ) :
    takeNumber.result s = (.ok s.next, { s with next := s.next + 1 }) := rfl

@[simp] theorem result_ofExcept (r : Except Cause α) (s : RunState σ) :
    (ofExcept r).result s = (r.mapError .plain, s) := by
  cases r <;> rfl

@[simp] theorem result_resume (outcome : Except Failure α) (s : RunState σ) :
    (resume outcome).result s = (outcome, s) := by
  cases outcome <;> rfl

@[simp] theorem result_onStore (act : Template.StoreM α) (s : RunState σ) :
    (onStore act).result s =
      ((act.run.run s.store).1.mapError .plain, { s with store := (act.run.run s.store).2 }) := by
  have h : (onStore act).result s = (ofExcept (act.run.run s.store).1).result
      { s with store := (act.run.run s.store).2 } := rfl
  rw [h, result_ofExcept]

@[simp] theorem result_attempt (act : Run σ α) (s : RunState σ) :
    (attempt act).result s = (.ok (act.result s).1, (act.result s).2) := by
  simp only [attempt, result_tryCatch, result_bind]
  rcases act.result s with ⟨_ | _, _⟩ <;> rfl

@[simp] theorem result_placed (operation : OperationName) (scope : Scope) (act : Run σ α)
    (s : RunState σ) :
    (placed operation scope act).result s =
      ((act.result s).1.mapError (·.inOperation operation scope), (act.result s).2) := by
  simp only [placed, result_tryCatch]
  rcases act.result s with ⟨_ | _, _⟩ <;> rfl

end Run

end MediaPipeline
