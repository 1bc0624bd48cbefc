import MediaPipeline.Run.Start

/-!
# Pipes

A pipe has a tail, a chain of processes that lives as long as the pipe, and
groups of processes that feed it one after the other.

1. Every stage of the tail is started, and neighbours are connected.
2. Without groups, the first process of the tail is awaited.
3. Otherwise each group is started in turn, connected in itself and bridged to
   the tail. Its first process is awaited, then the bridge, then the others; the
   tail's input is left open for the next group.
4. At the end the tail's input is closed and the tail is awaited.

Only the first process of the tail without groups, and the first process of each
group, decide whether the pipe succeeds.
-/

namespace MediaPipeline

/-- A pipe whose commands are resolved. -/
structure PipePlan where
  name : OperationName
  /-- The groups in order; none may be empty. -/
  groups : List (List Command)
  tail : List Command
deriving DecidableEq

namespace Run

variable {σ α : Type}

/-- Kill a process. -/
def kill (setup : RunSetup σ) (p : LiveProcess) : Run σ Unit := do
  adjust (setup.host.kill p.seq)
  record (.killed p)

/-- Kill processes in order. -/
def killAll (setup : RunSetup σ) : List LiveProcess → Run σ Unit
  | [] => pure ()
  | p :: rest => do
    kill setup p
    killAll setup rest

/-- Kill processes if a part fails. -/
def orKill (setup : RunSetup σ) (live : List LiveProcess) (act : Run σ α) : Run σ α :=
  tryCatch act fun f => do
    killAll setup live
    throw f

/-- Do something with the pipes between processes. -/
def wire (setup : RunSetup σ) (action : Wiring) : Run σ Unit := do
  adjust (setup.host.wire action)
  record (.wired action)

/-- Start the stages of a chain after those that are live. With `ends` the last one
writes to its log. If a stage cannot be started, all before it are killed. -/
def startChain (setup : RunSetup σ) (ends : Bool) (input : ProcessInput)
    (live : List LiveProcess) : List Command → Run σ (List LiveProcess)
  | [] => pure live
  | c :: rest => do
    let p ← orKill setup live
      (start setup c .pipe input (Redirect.forStage c (ends && rest.isEmpty)))
    startChain setup ends .pipe (live ++ [p]) rest

/-- Connect neighbours. After a process that prints to a file, the next one has
nothing to read. -/
def link (setup : RunSetup σ) : List LiveProcess → Run σ Unit
  | p :: q :: rest => do
    wire setup (if p.redirect = .pipe then .connect p.seq q.seq else .close q.seq)
    link setup (q :: rest)
  | _ => pure ()

/-- Wait until everything between neighbours is copied. -/
def joinLinks (setup : RunSetup σ) : List LiveProcess → Run σ Unit
  | p :: q :: rest => do
    if p.redirect = .pipe then wire setup (.join p.seq q.seq) else pure ()
    joinLinks setup (q :: rest)
  | _ => pure ()

/-- Wait for processes whose ends decide nothing. -/
def release (setup : RunSetup σ) : List LiveProcess → Run σ Unit
  | [] => pure ()
  | p :: rest => do
    let _ ← await setup p
    release setup rest

/-- Begin to copy what the last process of a group prints into the tail; without
an open input it is dropped. -/
def beginBridge (setup : RunSetup σ) (last : LiveProcess) (tail : Nat) (inputOpen : Bool) :
    Run σ Unit :=
  if last.redirect = .pipe then
    wire setup (if inputOpen then .bridge last.seq tail else .discard last.seq)
  else pure ()

/-- Wait until a bridge has copied everything; whether the input behind it is open then. -/
def drain (setup : RunSetup σ) (source target : Nat) : Run σ Bool := do
  let inputOpen ← machine (setup.host.drain source target)
  record (.drained source target inputOpen)
  pure inputOpen

/-- Wait until a group's output is copied; whether the tail's input is open then. -/
def endBridge (setup : RunSetup σ) (last : LiveProcess) (tail : Nat) (inputOpen : Bool) :
    Run σ Bool :=
  if last.redirect = .pipe ∧ inputOpen = true then drain setup last.seq tail
  else pure inputOpen

/-- Run one group. The result says whether the tail's input is still open. -/
def runGroup (setup : RunSetup σ) (tail : Nat) (inputOpen : Bool) (group : List Command) :
    Run σ Bool := do
  match ← startChain setup false .empty [] group with
  | [] => pure inputOpen
  | first :: rest => do
    let last := (first :: rest).getLast (List.cons_ne_nil first rest)
    link setup (first :: rest)
    beginBridge setup last tail inputOpen
    let status ← await setup first
    joinLinks setup (first :: rest)
    let inputOpen ← endBridge setup last tail inputOpen
    release setup rest
    requireSuccess first status
    pure inputOpen

/-- Run the groups one after the other, up to the first that fails. -/
def runGroups (setup : RunSetup σ) (tail : Nat) (inputOpen : Bool) :
    List (List Command) → Run σ Unit
  | [] => pure ()
  | group :: rest => do
    let inputOpen ← runGroup setup tail inputOpen group
    runGroups setup tail inputOpen rest

/-- Run a tail that groups feed. -/
def runFed (setup : RunSetup σ) (plan : PipePlan) : Run σ Unit := do
  let processes ← startChain setup true .pipe [] plan.tail
  match processes with
  | [] => pure ()
  | head :: _ => do
    link setup processes
    let outcome ← attempt (runGroups setup head.seq true plan.groups)
    wire setup (.close head.seq)
    release setup processes
    joinLinks setup processes
    resume outcome

/-- Run a tail on its own. -/
def runAlone (setup : RunSetup σ) (plan : PipePlan) : Run σ Unit := do
  match ← startChain setup true .empty [] plan.tail with
  | [] => pure ()
  | first :: rest => do
    link setup (first :: rest)
    let status ← await setup first
    release setup rest
    joinLinks setup (first :: rest)
    requireSuccess first status

/-- Report the commands of a pipe that is not run. -/
def reportAll : List Command → Run σ Unit
  | [] => pure ()
  | c :: rest => do
    record (.skipped c .pipe)
    reportAll rest

theorem result_reportAll (cmds : List Command) (s : RunState σ) :
    (reportAll cmds : Run σ Unit).result s =
      (.ok (), { s with events := s.events ++ cmds.map (.skipped · .pipe) }) := by
  induction cmds generalizing s with
  | nil => simp [reportAll]
  | cons c rest ih =>
    rw [reportAll, result_bind, result_record]
    simp only [ih, List.append_assoc, List.map_cons, List.cons_append, List.nil_append]

/-- Run a pipe. With an empty tail there is nothing to do. -/
def runPipe (setup : RunSetup σ) (plan : PipePlan) : Run σ Unit := do
  if plan.tail.isEmpty then pure ()
  else if plan.groups.any (·.isEmpty) then fail (.emptyCycleGroup plan.name.render)
  else if setup.dryRun then reportAll (plan.groups.flatten ++ plan.tail)
  else if plan.groups.isEmpty then runAlone setup plan
  else runFed setup plan

end Run

end MediaPipeline
