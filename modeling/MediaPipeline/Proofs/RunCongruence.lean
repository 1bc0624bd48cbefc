import MediaPipeline.Run.Engine

/-!
# Relations between runs

Two runs of the same steps that differ in their machines, or in whether they start
anything, do the same except where a command or a pipe is run. A relation between parts
of runs that is kept by everything else that steps are made of therefore relates whole
runs as soon as it relates their commands and their pipes; `Run.Congruence.interpret`
says so, by one induction for all such relations and whatever is done with commands and
pipes.
-/

namespace MediaPipeline

namespace Run

/-- Run steps in a scope, when it is given what comes of a command and of a pipe. -/
def interpret {σ : Type} (command : CommandTemplate → Scope → Run σ Unit)
    (pipe : PipeTemplate → Scope → Run σ Unit) (scope : Scope) : Steps → Run σ Unit
  | .done => pure ()
  | .command c rest => do
    step c.name scope (command c scope)
    interpret command pipe scope rest
  | .eachSegment name body rest => do
    record (.entered name scope)
    forEach (fun id => interpret command pipe (scope.withSegment id) body) (← store).segments
    interpret command pipe scope rest
  | .eachSequence name types body rest => do
    record (.entered name scope)
    forEach (fun p => interpret command pipe (scope.enterSequence p.1 p.2) body)
      ((← store).sequencesOf types)
    interpret command pipe scope rest
  | .pipe p rest => do
    step p.name scope (pipe p scope)
    interpret command pipe scope rest
  | .assign a rest => do
    step a.name scope (runAssign a scope)
    interpret command pipe scope rest
  | .branch name condition yes no rest => do
    let taken ← step name scope (do ofExcept (condition.eval (← store) scope))
    if taken then interpret command pipe scope yes else interpret command pipe scope no
    interpret command pipe scope rest
  | .loop head body rest => do
    let range ← step head.name scope (loopRange head scope)
    forIndices head.var (interpret command pipe scope body) range.length range.first
    interpret command pipe scope rest
  | .audioMap m rest => do
    step m.name scope (runAudioMap m scope)
    interpret command pipe scope rest

/-- A run runs its commands and plans its pipes. -/
theorem execute_eq_interpret {σ : Type} (setup : RunSetup σ) (steps : Steps) (scope : Scope) :
    execute setup scope steps =
      interpret (runCommand setup) (runPipeStep setup) scope steps := by
  induction steps generalizing scope <;> simp only [execute, interpret, *]

/-- A relation between parts of two runs that is kept by everything that steps are made
of, apart from commands and pipes. -/
structure Congruence {σ τ : Type} (P : (α : Type) → Run σ α → Run τ α → Prop) : Prop where
  pure : ∀ {α : Type} (a : α), P α (pure a) (pure a)
  fail : ∀ {α : Type} (cause : Cause), P α (fail cause) (fail cause)
  store : P Store store store
  onStore : ∀ {α : Type} (act : Template.StoreM α), P α (onStore act) (onStore act)
  modifyStore : ∀ f : Store → Store, P Unit (modifyStore f) (modifyStore f)
  entered : ∀ (operation : OperationName) (scope : Scope),
    P Unit (record (.entered operation scope)) (record (.entered operation scope))
  placed : ∀ {α : Type} {d : Run σ α} {a : Run τ α} (operation : OperationName) (scope : Scope),
    P α d a → P α (placed operation scope d) (placed operation scope a)
  bind : ∀ {α β : Type} {d : Run σ α} {a : Run τ α} {f : α → Run σ β} {g : α → Run τ β},
    P α d a → (∀ x, P β (f x) (g x)) → P β (d >>= f) (a >>= g)

namespace Congruence

variable {σ τ : Type} {P : (α : Type) → Run σ α → Run τ α → Prop} {left : RunSetup σ}
  {right : RunSetup τ} (h : Congruence P)

include h

theorem ofExcept {α : Type} (r : Except Cause α) : P α (ofExcept r) (ofExcept r) := by
  cases r with
  | ok a => exact h.pure a
  | error cause => exact h.fail cause

/-! ## Steps that run nothing -/

theorem integer (t : Template) (scope : Scope) : P Int (integer scope t) (integer scope t) := by
  refine h.bind (h.onStore _) fun value => ?_
  cases Text.int? value.toList with
  | some n => exact h.pure n
  | none => exact h.fail _

theorem loopFirst (head : LoopTemplate) (scope : Scope) :
    P Int (loopFirst head scope) (loopFirst head scope) := by
  unfold Run.loopFirst
  cases head.first with
  | none => exact h.pure 0
  | some t => exact h.integer t scope

theorem loopRange (head : LoopTemplate) (scope : Scope) :
    P Template.IndexRange (loopRange head scope) (loopRange head scope) := by
  refine h.bind (h.loopFirst head scope) fun first => ?_
  cases head.bound with
  | last t => exact h.bind (h.integer t scope) fun _ => h.pure _
  | count t =>
    refine h.bind (h.integer t scope) fun count => ?_
    by_cases hneg : count < 0
    · rw [if_pos hneg, if_pos hneg]
      exact h.fail _
    · rw [if_neg hneg, if_neg hneg]
      cases Template.IndexRange.counted? first count with
      | some range => exact h.pure range
      | none => exact h.fail _

theorem runAssign (a : AssignTemplate) (scope : Scope) :
    P Unit (runAssign a scope) (runAssign a scope) := by
  refine h.bind h.store fun s => h.bind (h.ofExcept _) fun allowed => ?_
  cases allowed with
  | false => exact h.pure ()
  | true =>
    refine h.bind (h.onStore _) fun value => h.bind h.store fun s => ?_
    cases s.addParameter a.target.kind scope a.parameter ⟨value, a.cleanup⟩ with
    | ok s => exact h.modifyStore _
    | error missing => exact h.fail _

theorem runAudioMap (m : AudioMapTemplate) (scope : Scope) :
    P Unit (runAudioMap m scope) (runAudioMap m scope) := by
  refine h.bind h.store fun s => h.bind (h.ofExcept _) fun _ => h.bind h.store fun s =>
    h.bind (h.ofExcept _) fun tracks => h.bind (h.onStore _) fun name => ?_
  cases ChannelLayout.ofName? name with
  | none => exact h.fail _
  | some layout => exact h.bind (h.ofExcept _) fun pan => h.modifyStore _

theorem forEach {α : Type} {f : α → Run σ Unit} {g : α → Run τ Unit}
    (hfg : ∀ x, P Unit (f x) (g x)) (xs : List α) : P Unit (forEach f xs) (forEach g xs) := by
  induction xs with
  | nil => exact h.pure ()
  | cons x rest ih => exact h.bind (hfg x) fun _ => ih

theorem forIndices {d : Run σ Unit} {a : Run τ Unit} (hda : P Unit d a) (var : String)
    (n : Nat) (i : Int) : P Unit (forIndices var d n i) (forIndices var a n i) := by
  induction n generalizing i with
  | zero => exact h.pure ()
  | succ n ih => exact h.bind (h.modifyStore _) fun _ => h.bind hda fun _ => ih (i + 1)

theorem step {α : Type} {d : Run σ α} {a : Run τ α} (hda : P α d a) (name : OperationName)
    (scope : Scope) : P α (step name scope d) (step name scope a) :=
  h.bind (h.entered name scope) fun _ => h.placed name scope hda

/-! ## Planning -/

theorem resolveStages (hw : left.workspace = right.workspace) (scope : Scope)
    (stages : List CommandTemplate) :
    P (List Command) (resolveStages left scope stages) (resolveStages right scope stages) := by
  induction stages with
  | nil => exact h.pure []
  | cons stage rest ih =>
    unfold Run.resolveStages
    rw [hw]
    exact h.bind (h.entered _ _) fun _ => h.bind (h.placed _ _ (h.onStore _)) fun _ =>
      h.bind ih fun _ => h.pure _

theorem resolveGroups (hw : left.workspace = right.workspace) (stages : List CommandTemplate)
    (scopes : List Scope) :
    P (List (List Command)) (resolveGroups left stages scopes)
      (resolveGroups right stages scopes) := by
  induction scopes with
  | nil => exact h.pure []
  | cons scope rest ih =>
    exact h.bind (h.resolveStages hw scope stages) fun _ => h.bind ih fun _ => h.pure _

theorem resolveCycles (hw : left.workspace = right.workspace) (scope : Scope)
    (cycles : List CycleTemplate) :
    P (List (List Command)) (resolveCycles left scope cycles)
      (resolveCycles right scope cycles) := by
  induction cycles with
  | nil => exact h.pure []
  | cons c rest ih =>
    exact h.bind h.store fun s => h.bind (h.resolveGroups hw _ _) fun _ => h.bind ih fun _ =>
      h.pure _

theorem planPipe (hw : left.workspace = right.workspace) (p : PipeTemplate) (scope : Scope) :
    P (Option PipePlan) (planPipe left p scope) (planPipe right p scope) := by
  refine h.bind h.store fun s => h.bind (h.ofExcept _) fun allowed => ?_
  cases allowed with
  | false => exact h.pure none
  | true =>
    exact h.bind (h.resolveStages hw scope _) fun _ => h.bind (h.resolveCycles hw scope _) fun _ =>
      h.pure _

/-! ## Runs -/

theorem runCommand (hw : left.workspace = right.workspace)
    (hcommand : ∀ c, P Unit (once left c) (once right c)) (c : CommandTemplate) (scope : Scope) :
    P Unit (runCommand left c scope) (runCommand right c scope) := by
  unfold Run.runCommand
  rw [hw]
  refine h.bind (h.onStore _) fun command => ?_
  cases command with
  | none => exact h.pure ()
  | some command => exact hcommand command

theorem runPipeStep (hw : left.workspace = right.workspace)
    (hpipe : ∀ plan, P Unit (runPipe left plan) (runPipe right plan)) (p : PipeTemplate)
    (scope : Scope) : P Unit (runPipeStep left p scope) (runPipeStep right p scope) := by
  refine h.bind (h.planPipe hw p scope) fun plan => ?_
  cases plan with
  | none => exact h.pure ()
  | some plan => exact hpipe plan

/-- The induction is on the steps; a case for each kind of step. -/
theorem interpret {command : CommandTemplate → Scope → Run σ Unit}
    {command' : CommandTemplate → Scope → Run τ Unit} {pipe : PipeTemplate → Scope → Run σ Unit}
    {pipe' : PipeTemplate → Scope → Run τ Unit}
    (hcommand : ∀ c scope, P Unit (command c scope) (command' c scope))
    (hpipe : ∀ p scope, P Unit (pipe p scope) (pipe' p scope)) (steps : Steps)
    (scope : Scope) :
    P Unit (interpret command pipe scope steps) (interpret command' pipe' scope steps) := by
  induction steps generalizing scope with
  | done => exact h.pure ()
  | command c rest ih => exact h.bind (h.step (hcommand c scope) _ _) fun _ => ih scope
  | eachSegment name body rest ihb ihr =>
    exact h.bind (h.entered _ _) fun _ => h.bind h.store fun s =>
      h.bind (h.forEach (fun id => ihb (scope.withSegment id)) _) fun _ => ihr scope
  | eachSequence name types body rest ihb ihr =>
    exact h.bind (h.entered _ _) fun _ => h.bind h.store fun s =>
      h.bind (h.forEach (fun (p : SequenceType × SequenceId) =>
        ihb (scope.enterSequence p.1 p.2)) _) fun _ => ihr scope
  | pipe p rest ih => exact h.bind (h.step (hpipe p scope) _ _) fun _ => ih scope
  | assign a rest ih => exact h.bind (h.step (h.runAssign a scope) _ _) fun _ => ih scope
  | branch name condition yes no rest ihy ihn ihr =>
    refine h.bind (h.step (h.bind h.store fun s => h.ofExcept _) _ _) fun taken => ?_
    cases taken with
    | true => exact h.bind (ihy scope) fun _ => ihr scope
    | false => exact h.bind (ihn scope) fun _ => ihr scope
  | loop head body rest ihb ihr =>
    exact h.bind (h.step (h.loopRange head scope) _ _) fun range =>
      h.bind (h.forIndices (ihb scope) _ _ _) fun _ => ihr scope
  | audioMap m rest ih => exact h.bind (h.step (h.runAudioMap m scope) _ _) fun _ => ih scope

theorem execute (hw : left.workspace = right.workspace)
    (hcommand : ∀ c, P Unit (once left c) (once right c))
    (hpipe : ∀ plan, P Unit (runPipe left plan) (runPipe right plan)) (steps : Steps)
    (scope : Scope) : P Unit (execute left scope steps) (execute right scope steps) := by
  rw [execute_eq_interpret, execute_eq_interpret]
  exact h.interpret (h.runCommand hw hcommand) (h.runPipeStep hw hpipe) steps scope

end Congruence

/-! ## Effects -/

variable {σ α : Type}

/-- Every run of a part leads from a state to one that is related to it. -/
def Within (R : RunState σ → RunState σ → Prop) (act : Run σ α) : Prop :=
  ∀ s, R s (act.result s).2

/-- What a part of a run may do to the state: at least write to the store and record the
steps that it enters, and one thing after the other. -/
structure Effect (R : RunState σ → RunState σ → Prop) : Prop where
  write : ∀ s store, R s { s with store := store }
  enter : ∀ s operation scope, R s { s with events := s.events ++ [.entered operation scope] }
  trans : ∀ {s t u}, R s t → R t u → R s u

namespace Effect

variable {β : Type} {R : RunState σ → RunState σ → Prop} (h : Effect R)

include h

theorem refl (s : RunState σ) : R s s := h.write s s.store

theorem pure (a : α) : Within R (pure a : Run σ α) := h.refl

theorem throw (f : Failure) : Within R (throw f : Run σ α) := h.refl

theorem bind {act : Run σ α} {f : α → Run σ β} (hact : Within R act) (hf : ∀ x, Within R (f x)) :
    Within R (act >>= f) := by
  intro s
  have hs := hact s
  rw [result_bind]
  rcases hr : act.result s with ⟨e | x, t⟩
  · rw [hr] at hs
    exact hs
  · rw [hr] at hs
    exact h.trans hs (hf x t)

theorem tryCatch {act : Run σ α} {handle : Failure → Run σ α} (hact : Within R act)
    (hhandle : ∀ f, Within R (handle f)) : Within R (tryCatch act handle) := by
  intro s
  have hs := hact s
  rw [result_tryCatch]
  rcases hr : act.result s with ⟨e | x, t⟩
  · rw [hr] at hs
    exact h.trans hs (hhandle e t)
  · rw [hr] at hs
    exact hs

/-- An effect is kept by everything that steps are made of. -/
theorem congruence : Congruence fun α (act _ : Run σ α) => Within R act where
  pure := h.pure
  fail cause := h.throw (.plain cause)
  store := h.refl
  onStore act s := by
    rw [result_onStore]
    exact h.write s _
  modifyStore f s := h.write s (f s.store)
  entered operation scope s := h.enter s operation scope
  placed operation scope hact s := by
    rw [result_placed]
    exact hact s
  bind := h.bind

/-- Steps have an effect that commands and pipes have. -/
theorem execute {setup : RunSetup σ} (hcommand : ∀ c, Within R (once setup c))
    (hpipe : ∀ plan, Within R (runPipe setup plan)) (steps : Steps) (scope : Scope) :
    Within R (Run.execute setup scope steps) :=
  h.congruence.execute rfl hcommand hpipe steps scope

end Effect

end Run

/-! ## Effects of processes -/

/-- Whether an event is about processes that are started already, or about a command that
is not started at all. -/
def Event.isAside : Event → Bool
  | .skipped .. | .finished .. | .killed .. | .wired .. | .drained .. => true
  | _ => false

namespace Run

/-- What commands and pipes may do to the state: beside what every step may do they may
start processes, do something about those that are started, and report commands. -/
structure ProcessEffect {σ : Type} (setup : RunSetup σ)
    (R : RunState σ → RunState σ → Prop) : Prop extends Effect R where
  start : ∀ c strategy input redirect, Within R (start setup c strategy input redirect)
  await : ∀ p, Within R (await setup p)
  kill : ∀ p, Within R (kill setup p)
  wire : ∀ action, Within R (wire setup action)
  drain : ∀ source target, Within R (drain setup source target)
  skip : ∀ c strategy, Within R (record (.skipped c strategy))

/-- An effect that does not look at the machine, nor at what is recorded about processes
that are started already. -/
theorem ProcessEffect.of_blind {σ : Type} {setup : RunSetup σ}
    {R : RunState σ → RunState σ → Prop} (h : Effect R)
    (start : ∀ c strategy input redirect, Within R (Run.start setup c strategy input redirect))
    (machine : ∀ s m, R s { s with machine := m })
    (aside : ∀ s e, e.isAside = true → R s { s with events := s.events ++ [e] }) :
    ProcessEffect setup R where
  toEffect := h
  start := start
  await _ := h.bind (fun s => machine s _) fun _ =>
    h.bind (fun s => aside s _ rfl) fun _ => h.pure _
  kill _ := h.bind (fun s => machine s _) fun _ s => aside s _ rfl
  wire _ := h.bind (fun s => machine s _) fun _ s => aside s _ rfl
  drain _ _ := h.bind (fun s => machine s _) fun _ =>
    h.bind (fun s => aside s _ rfl) fun _ => h.pure _
  skip _ _ s := aside s _ rfl

namespace ProcessEffect

variable {σ α β : Type} {setup : RunSetup σ} {R : RunState σ → RunState σ → Prop}
  (h : ProcessEffect setup R)

include h

theorem requireSuccess (p : LiveProcess) (status : Ending) :
    Within R (requireSuccess p status : Run σ Unit) := by
  cases status with
  | unknown e => exact h.throw _
  | known status =>
    simp only [Run.requireSuccess]
    split
    · exact h.pure ()
    · exact h.throw _

theorem once (c : Command) : Within R (once setup c) := by
  unfold Run.once
  cases setup.dryRun with
  | true => exact h.skip c .once
  | false =>
    exact h.bind (h.start c _ _ _) fun p => h.bind (h.await p) fun status =>
      h.requireSuccess p status

/-! ### Chains -/

theorem killAll (live : List LiveProcess) : Within R (killAll setup live) := by
  induction live with
  | nil => exact h.pure ()
  | cons p rest ih => exact h.bind (h.kill p) fun _ => ih

theorem startChain (ends : Bool) (input : ProcessInput) (live : List LiveProcess)
    (cmds : List Command) : Within R (startChain setup ends input live cmds) := by
  induction cmds generalizing input live with
  | nil => exact h.pure live
  | cons c rest ih =>
    have hstart : Within R (orKill setup live
        (Run.start setup c .pipe input (Redirect.forStage c (ends && rest.isEmpty)))) :=
      h.tryCatch (h.start c _ _ _) fun f => h.bind (h.killAll live) fun _ => h.throw f
    exact h.bind hstart fun p => ih .pipe (live ++ [p])

theorem link (ps : List LiveProcess) : Within R (link setup ps) := by
  induction ps with
  | nil => exact h.pure ()
  | cons p rest ih =>
    cases rest with
    | nil => exact h.pure ()
    | cons q rest => exact h.bind (h.wire _) fun _ => ih

theorem joinLinks (ps : List LiveProcess) : Within R (joinLinks setup ps) := by
  induction ps with
  | nil => exact h.pure ()
  | cons p rest ih =>
    cases rest with
    | nil => exact h.pure ()
    | cons q rest =>
      simp only [Run.joinLinks]
      split
      · exact h.bind (h.wire _) fun _ => ih
      · exact ih

theorem release (ps : List LiveProcess) : Within R (release setup ps) := by
  induction ps with
  | nil => exact h.pure ()
  | cons p rest ih => exact h.bind (h.await p) fun _ => ih

/-! ### Pipes -/

theorem beginBridge (last : LiveProcess) (tail : Nat) (inputOpen : Bool) :
    Within R (beginBridge setup last tail inputOpen) := by
  unfold Run.beginBridge
  split
  · exact h.wire _
  · exact h.pure ()

theorem endBridge (last : LiveProcess) (tail : Nat) (inputOpen : Bool) :
    Within R (endBridge setup last tail inputOpen) := by
  unfold Run.endBridge
  split
  · exact h.drain _ tail
  · exact h.pure inputOpen

theorem runGroup (tail : Nat) (inputOpen : Bool) (group : List Command) :
    Within R (runGroup setup tail inputOpen group) := by
  refine h.bind (h.startChain false .empty [] group) fun processes => ?_
  cases processes with
  | nil => exact h.pure inputOpen
  | cons first rest =>
    exact h.bind (h.link _) fun _ => h.bind (h.beginBridge _ tail inputOpen) fun _ =>
      h.bind (h.await first) fun status => h.bind (h.joinLinks _) fun _ =>
        h.bind (h.endBridge _ tail inputOpen) fun _ => h.bind (h.release rest) fun _ =>
          h.bind (h.requireSuccess first status) fun _ => h.pure _

theorem runGroups (tail : Nat) (inputOpen : Bool) (groups : List (List Command)) :
    Within R (runGroups setup tail inputOpen groups) := by
  induction groups generalizing inputOpen with
  | nil => exact h.pure ()
  | cons group rest ih => exact h.bind (h.runGroup tail inputOpen group) fun left => ih left

theorem runFed (plan : PipePlan) : Within R (runFed setup plan) := by
  refine h.bind (h.startChain true .pipe [] plan.tail) fun processes => ?_
  cases processes with
  | nil => exact h.pure ()
  | cons head rest =>
    have hgroups : Within R (attempt (Run.runGroups setup head.seq true plan.groups)) :=
      h.tryCatch (h.bind (h.runGroups head.seq true plan.groups) fun _ => h.pure _) fun _ => h.pure _
    refine h.bind (h.link _) fun _ => h.bind hgroups fun outcome => h.bind (h.wire _) fun _ =>
      h.bind (h.release _) fun _ => h.bind (h.joinLinks _) fun _ => ?_
    cases outcome with
    | ok a => exact h.pure a
    | error f => exact h.throw f

theorem runAlone (plan : PipePlan) : Within R (runAlone setup plan) := by
  refine h.bind (h.startChain true .empty [] plan.tail) fun processes => ?_
  cases processes with
  | nil => exact h.pure ()
  | cons first rest =>
    exact h.bind (h.link _) fun _ => h.bind (h.await first) fun status =>
      h.bind (h.release rest) fun _ => h.bind (h.joinLinks _) fun _ =>
        h.requireSuccess first status

theorem reportAll (cmds : List Command) : Within R (reportAll cmds) := by
  induction cmds with
  | nil => exact h.pure ()
  | cons c rest ih => exact h.bind (h.skip c .pipe) fun _ => ih

theorem runPipe (plan : PipePlan) : Within R (runPipe setup plan) := by
  unfold Run.runPipe
  split
  · exact h.pure ()
  · split
    · exact h.throw _
    · split
      · exact h.reportAll _
      · split
        · exact h.runAlone plan
        · exact h.runFed plan

/-- Steps have every effect that may be had on the state by starting processes and by what
is done about those that are started. -/
theorem steps (steps : Steps) (scope : Scope) : Within R (execute setup scope steps) :=
  h.execute h.once h.runPipe steps scope

end ProcessEffect

end Run

end MediaPipeline
