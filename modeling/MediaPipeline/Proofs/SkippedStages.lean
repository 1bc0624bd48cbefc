import MediaPipeline.Proofs.IterationOrder

/-!
# Skipped stages

A stage of a pipe is skipped if its guard is false when its turn comes, after the stages before
it have written to the store. `ChainResolves` says what becomes of the stages of a chain one after
the other, and planning a pipe does just that (`result_planTurns`). To skip a stage is
then the same as not to declare it: the commands of the others and what they leave in the store
are the same without it (`planPipe_leavesOut`). A group that has no stage left is left out as
well, so that no plan has an empty group.
-/

namespace MediaPipeline

/-! ## What becomes of stages -/

/-- A stage that had its turn, with its command unless it was skipped. -/
structure Tried where
  stage : CommandTemplate
  command : Option Command

namespace Tried

/-- The stages as they are declared. -/
def declared (ts : List Tried) : List CommandTemplate := ts.map (·.stage)

/-- The commands of the stages that were not skipped. -/
def commands (ts : List Tried) : List Command := ts.filterMap (·.command)

/-- The stages of groups as they are declared, with the scopes of the groups. -/
def turns (groups : List (List Tried × Scope)) : List (List CommandTemplate × Scope) :=
  groups.map fun group => (declared group.1, group.2)

/-- The commands of the groups that have a stage left. -/
def plans (groups : List (List Tried × Scope)) : List (List Command) :=
  (groups.map fun group => commands group.1).filter (!·.isEmpty)

@[simp] theorem declared_nil : declared [] = [] := rfl

@[simp] theorem declared_cons (t : Tried) (ts : List Tried) :
    declared (t :: ts) = t.stage :: declared ts := rfl

@[simp] theorem commands_nil : commands [] = [] := rfl

@[simp] theorem commands_cons (t : Tried) (ts : List Tried) :
    commands (t :: ts) = t.command.toList ++ commands ts := by
  rw [commands, List.filterMap_cons]
  cases t.command <;> rfl

@[simp] theorem turns_nil : turns [] = [] := rfl

@[simp] theorem turns_cons (ts : List Tried) (scope : Scope) (groups : List (List Tried × Scope)) :
    turns ((ts, scope) :: groups) = (declared ts, scope) :: turns groups := rfl

@[simp] theorem plans_nil : plans [] = [] := rfl

@[simp] theorem plans_cons (ts : List Tried) (scope : Scope) (groups : List (List Tried × Scope)) :
    plans ((ts, scope) :: groups) =
      if (commands ts).isEmpty then plans groups else commands ts :: plans groups := by
  rw [plans, List.map_cons, List.filter_cons]
  cases hc : (commands ts).isEmpty <;> simp [plans]

theorem nil_notMem_plans (groups : List (List Tried × Scope)) : [] ∉ plans groups := by
  simp [plans]

end Tried

open Tried

/-- A command without its guard. -/
def CommandTemplate.unguarded (c : CommandTemplate) : CommandTemplate := { c with guard := none }

/-- What becomes of stages in a scope, one after the other: from one store to another. -/
inductive ChainResolves (w : Workspace) (scope : Scope) : Store → List Tried → Store → Prop where
  | done {s : Store} : ChainResolves w scope s [] s
  /-- A guard that is false skips its stage, and the store stays as it is. -/
  | skipped {s t : Store} {c : CommandTemplate} {ts : List Tried}
      (hguard : guardAllows s scope c.guard = .ok false) (h : ChainResolves w scope s ts t) :
      ChainResolves w scope s (⟨c, none⟩ :: ts) t
  /-- A stage whose guard is true is resolved like one that has no guard. -/
  | kept {s t u : Store} {c : CommandTemplate} {command : Command} {ts : List Tried}
      (hguard : guardAllows s scope c.guard = .ok true)
      (hresolve : (c.unguarded.resolve w scope).result s = (.ok (some command), t))
      (h : ChainResolves w scope t ts u) : ChainResolves w scope s (⟨c, some command⟩ :: ts) u

/-- What becomes of the stages of groups, one group after the other. -/
inductive GroupsResolve (w : Workspace) : Store → List (List Tried × Scope) → Store → Prop where
  | done {s : Store} : GroupsResolve w s [] s
  | next {s t u : Store} {ts : List Tried} {scope : Scope} {groups : List (List Tried × Scope)}
      (hgroup : ChainResolves w scope s ts t) (h : GroupsResolve w t groups u) :
      GroupsResolve w s ((ts, scope) :: groups) u

/-! ## Leaving out what is skipped -/

/-- Some of the stages that were skipped are left out, and no other stage is. -/
inductive LeavesOut : List Tried → List Tried → Prop where
  | nil : LeavesOut [] []
  | skip (c : CommandTemplate) {ts rest : List Tried} (h : LeavesOut ts rest) :
      LeavesOut (⟨c, none⟩ :: ts) rest
  | keep (t : Tried) {ts rest : List Tried} (h : LeavesOut ts rest) :
      LeavesOut (t :: ts) (t :: rest)

/-- In each of some groups stages that were skipped are left out. -/
def LeavesOutEach : List (List Tried × Scope) → List (List Tried × Scope) → Prop :=
  List.Forall₂ fun group rest => LeavesOut group.1 rest.1 ∧ rest.2 = group.2

namespace LeavesOut

variable {w : Workspace} {scope : Scope} {s t : Store} {ts rest : List Tried}

theorem commands_eq (h : LeavesOut ts rest) : commands rest = commands ts := by
  induction h with
  | nil => rfl
  | skip c h ih => exact ih
  | keep t h ih => rw [commands_cons, commands_cons, ih]

/-- What is left has its turns in the same stores: a stage that was skipped wrote nothing. -/
theorem resolves (h : LeavesOut ts rest) (hts : ChainResolves w scope s ts t) :
    ChainResolves w scope s rest t := by
  induction h generalizing s with
  | nil => exact hts
  | skip c h ih =>
    cases hts with
    | skipped hguard hts => exact ih hts
  | keep t h ih =>
    cases hts with
    | skipped hguard hts => exact .skipped hguard (ih hts)
    | kept hguard hresolve hts => exact .kept hguard hresolve (ih hts)

end LeavesOut

namespace LeavesOutEach

variable {w : Workspace} {s t : Store} {groups rest : List (List Tried × Scope)}

theorem plans_eq (h : LeavesOutEach groups rest) : plans rest = plans groups := by
  have hmap : rest.map (fun group => commands group.1) =
      groups.map fun group => commands group.1 := by
    induction h with
    | nil => rfl
    | cons hgroup _ ih => rw [List.map_cons, List.map_cons, hgroup.1.commands_eq, ih]
  rw [plans, plans, hmap]

theorem resolves (h : LeavesOutEach groups rest) (hgroups : GroupsResolve w s groups t) :
    GroupsResolve w s rest t := by
  induction hgroups generalizing rest with
  | done =>
    cases h
    exact .done
  | next hgroup _ ih =>
    cases h with
    | @cons _ b _ _ hb hrest =>
      obtain ⟨ts, here⟩ := b
      obtain ⟨hleaves, rfl⟩ := hb
      exact .next (hleaves.resolves hgroup) (ih hrest)

end LeavesOutEach

/-! ## Resolving stages -/

/-- A command is skipped and the store stays as it is, or it is resolved without its guard. -/
theorem CommandTemplate.result_resolve_iff {c : CommandTemplate} {w : Workspace} {scope : Scope}
    {s t : Store} {command : Option Command} :
    (c.resolve w scope).result s = (.ok command, t) ↔
      (guardAllows s scope c.guard = .ok false ∧ command = none ∧ t = s) ∨
      (guardAllows s scope c.guard = .ok true ∧ ∃ resolved, command = some resolved ∧
        (c.unguarded.resolve w scope).result s = (.ok (some resolved), t)) := by
  -- Without its guard a command resolves like one whose guard has let it through.
  have hunguarded : (c.unguarded.resolve w scope).result s =
      (do
        let argv ← c.template.resolveArgv scope
        let output ← resolveOutput w scope c.output
        pure (some ⟨c.name, argv, output⟩) : Template.StoreM (Option Command)).result s :=
    Template.StoreM.result_read ..
  rw [hunguarded, resolve, Template.StoreM.result_read]
  cases guardAllows s scope c.guard with
  | error cause => simp
  | ok allowed =>
    cases allowed with
    | false => simp [eq_comm]
    | true =>
      simp only [if_true, Template.StoreM.result_bind, Template.StoreM.result_pure]
      rcases (c.template.resolveArgv scope).result s with ⟨e | argv, u⟩
      · simp
      · dsimp only
        rcases (resolveOutput w scope c.output).result u with ⟨e | output, v⟩
        · simp
        · simp [eq_comm]

/-- Another store, and more steps that were entered. -/
def RunState.planned {σ : Type} (s : RunState σ) (store : Store) (entered : List Event) :
    RunState σ := { s with store := store, events := s.events ++ entered }

theorem RunState.planned_planned {σ : Type} (s : RunState σ) (t u : Store) (es fs : List Event) :
    (s.planned t es).planned u fs = s.planned u (es ++ fs) := by
  rw [planned, planned, planned, List.append_assoc]

namespace Run

variable {σ : Type} {setup : RunSetup σ} {scope : Scope} {s t : RunState σ}

/-- The stages of a chain are entered, whatever becomes of them. -/
def entries (scope : Scope) (stages : List CommandTemplate) : List Event :=
  stages.map fun c => .entered c.name scope

/-- The first stage of a chain is resolved, and then the others are. -/
theorem result_resolveStages_cons {c : CommandTemplate} {rest : List CommandTemplate}
    {commands : List Command} :
    (resolveStages setup scope (c :: rest)).result s = (.ok commands, t) ↔
      ∃ command u more, (c.resolve setup.workspace scope).result s.store = (.ok command, u) ∧
        (resolveStages setup scope rest).result (s.planned u [.entered c.name scope]) =
          (.ok more, t) ∧ commands = command.toList ++ more := by
  have hstage (command : Option Command) (v : RunState σ) :
      (placed c.name scope (onStore (c.resolve setup.workspace scope))).result
          { s with events := s.events ++ [.entered c.name scope] } = (.ok command, v) ↔
        ∃ u, (c.resolve setup.workspace scope).result s.store = (.ok command, u) ∧
          v = s.planned u [.entered c.name scope] := by
    rw [result_placed, result_onStore, ← Template.StoreM.result]
    rcases (c.resolve setup.workspace scope).result s.store with ⟨e | found, u⟩
    · simp [Except.mapError]
    · simp [Except.mapError, RunState.planned, eq_comm]
  rw [resolveStages, result_bind_ok]
  simp only [result_record, result_bind_ok, result_pure]
  constructor
  · rintro ⟨_, _, ⟨⟩, command, v, hc, more, _, hrest, ⟨⟩⟩
    obtain ⟨u, hresolve, rfl⟩ := (hstage command v).mp hc
    exact ⟨command, u, more, hresolve, hrest, rfl⟩
  · rintro ⟨command, u, more, hresolve, hrest, rfl⟩
    exact ⟨_, _, rfl, command, _, (hstage command _).mpr ⟨u, hresolve, rfl⟩, more, t, hrest, rfl⟩

/-- Stages are resolved to the commands that come of them. The induction is on their turns. -/
theorem result_resolveStages {ts : List Tried} {store u : Store}
    (h : ChainResolves setup.workspace scope store ts u) (hs : s.store = store) :
    (resolveStages setup scope (declared ts)).result s =
      (.ok (commands ts), s.planned u (entries scope (declared ts))) := by
  induction h generalizing s with
  | done =>
    subst hs
    simp [resolveStages, RunState.planned, entries]
  | skipped hguard _ ih =>
    rw [declared_cons, commands_cons]
    refine result_resolveStages_cons.mpr ⟨none, _, _,
      CommandTemplate.result_resolve_iff.mpr (.inl ⟨hs ▸ hguard, rfl, rfl⟩), ?_, rfl⟩
    rw [ih (s := s.planned s.store _) hs, RunState.planned_planned]
    rfl
  | kept hguard hresolve _ ih =>
    rw [declared_cons, commands_cons]
    refine result_resolveStages_cons.mpr ⟨some _, _, _,
      CommandTemplate.result_resolve_iff.mpr (.inr ⟨hs ▸ hguard, _, rfl, hs ▸ hresolve⟩), ?_, rfl⟩
    rw [ih rfl, RunState.planned_planned]
    rfl

/-- If stages are resolved, each of them had its turn. The induction is on the stages. -/
theorem chainResolves_of_result {stages : List CommandTemplate} {cmds : List Command}
    (h : (resolveStages setup scope stages).result s = (.ok cmds, t)) :
    ∃ ts, declared ts = stages ∧ commands ts = cmds ∧
      ChainResolves setup.workspace scope s.store ts t.store := by
  induction stages generalizing s cmds with
  | nil =>
    cases h
    exact ⟨[], rfl, rfl, .done⟩
  | cons c rest ih =>
    obtain ⟨command, u, more, hc, hrest, rfl⟩ := result_resolveStages_cons.mp h
    obtain ⟨ts, rfl, rfl, hts⟩ := ih hrest
    obtain ⟨hguard, rfl, rfl⟩ | ⟨hguard, command, rfl, hresolve⟩ :=
      CommandTemplate.result_resolve_iff.mp hc
    · exact ⟨⟨c, none⟩ :: ts, rfl, commands_cons .., .skipped hguard hts⟩
    · exact ⟨⟨c, some command⟩ :: ts, rfl, commands_cons .., .kept hguard hresolve hts⟩

/-- The events of the stages of groups. -/
def groupEntries (turns : List (List CommandTemplate × Scope)) : List Event :=
  turns.flatMap fun turn => entries turn.2 turn.1

theorem result_resolveTurns {groups : List (List Tried × Scope)} {store u : Store}
    (h : GroupsResolve setup.workspace store groups u) (hs : s.store = store) :
    (resolveTurns setup (turns groups)).result s =
      (.ok (plans groups), s.planned u (groupEntries (turns groups))) := by
  induction h generalizing s with
  | done =>
    subst hs
    simp [resolveTurns, RunState.planned, groupEntries]
  | next hgroup _ ih =>
    rw [turns_cons, resolveTurns, result_bind, result_resolveStages hgroup hs]
    dsimp only
    rw [result_bind, ih rfl, RunState.planned_planned, plans_cons]
    rfl

theorem groupsResolve_of_result {stages : List (List CommandTemplate × Scope)}
    {found : List (List Command)} (h : (resolveTurns setup stages).result s = (.ok found, t)) :
    ∃ groups, turns groups = stages ∧ plans groups = found ∧
      GroupsResolve setup.workspace s.store groups t.store := by
  induction stages generalizing s found with
  | nil =>
    cases h
    exact ⟨[], rfl, rfl, .done⟩
  | cons turn rest ih =>
    obtain ⟨stages, here⟩ := turn
    obtain ⟨group, u, hgroup, h⟩ := result_bind_ok.mp h
    obtain ⟨more, v, hmore, h⟩ := result_bind_ok.mp h
    cases h
    obtain ⟨ts, rfl, rfl, hts⟩ := chainResolves_of_result hgroup
    obtain ⟨groups, rfl, rfl, hgroups⟩ := ih hmore
    exact ⟨(ts, here) :: groups, rfl, plans_cons .., .next hts hgroups⟩

/-! ## Plans -/

/-- The stages of cycles with the scopes that they are resolved in: cycle by cycle, and each
of them scope by scope. -/
def scopedStages (s : Store) (scope : Scope) (cycles : List CycleTemplate) :
    List (List CommandTemplate × Scope) :=
  cycles.flatMap fun c => (cycleScopes s scope c).map fun here => (c.stages, here)

theorem scopedStages_eq (s : Store) (scope : Scope) (cycles : List CycleTemplate) :
    scopedStages s scope cycles = cycleTurns s.registry scope cycles := by
  simp only [scopedStages, cycleTurns, cycleScopes_eq, List.map_map, Function.comp_def]

theorem result_planPipe_eq (setup : RunSetup σ) (p : PipeTemplate) (scope : Scope)
    (s : RunState σ) :
    (planPipe setup p scope).result s =
      (planTurns setup p scope (scopedStages s.store scope p.cycles)).result s := by
  rw [scopedStages_eq]
  exact result_planPipe setup p scope rfl

theorem result_planTurns_iff {p : PipeTemplate} {stages : List (List CommandTemplate × Scope)}
    {plan : PipePlan} :
    (planTurns setup p scope stages).result s = (.ok (some plan), t) ↔
      guardAllows s.store scope p.guard = .ok true ∧ ∃ tail u groups,
        (resolveStages setup scope p.tail).result s = (.ok tail, u) ∧
        (resolveTurns setup stages).result u = (.ok groups, t) ∧ plan = ⟨p.name, groups, tail⟩ := by
  rw [planTurns, result_bind, result_store]
  dsimp only
  rw [result_bind, result_ofExcept]
  cases guardAllows s.store scope p.guard with
  | error cause => simp [Except.mapError]
  | ok allowed =>
    cases allowed with
    | false => simp [Except.mapError]
    | true =>
      simp only [Except.mapError, if_true, result_bind_ok, result_pure, true_and]
      constructor
      · rintro ⟨tail, u, htail, groups, v, hgroups, ⟨⟩⟩
        exact ⟨tail, u, groups, htail, hgroups, rfl⟩
      · rintro ⟨tail, u, groups, htail, hgroups, rfl⟩
        exact ⟨tail, u, htail, groups, t, hgroups, rfl⟩

/-- A pipe is planned as its stages have their turns. -/
theorem result_planTurns {p : PipeTemplate} {tail : List Tried} {groups : List (List Tried × Scope)}
    {u v : Store} (hguard : guardAllows s.store scope p.guard = .ok true)
    (htail : ChainResolves setup.workspace scope s.store tail u)
    (hgroups : GroupsResolve setup.workspace u groups v) :
    (planTurns setup { p with tail := declared tail } scope (turns groups)).result s =
      (.ok (some ⟨p.name, plans groups, commands tail⟩),
        s.planned v (entries scope (declared tail) ++ groupEntries (turns groups))) := by
  refine result_planTurns_iff.mpr ⟨hguard, commands tail, _, plans groups,
    result_resolveStages htail rfl, ?_, rfl⟩
  rw [result_resolveTurns hgroups rfl, RunState.planned_planned]

/-- A plan without empty groups fails because of a process only. -/
theorem isOfProcess_of_runPipe {plan : PipePlan} (hplan : [] ∉ plan.groups) {f : Failure}
    (hf : ((runPipe setup plan).result s).1 = .error f) : f.IsOfProcess := by
  refine runPipe_cases (P := fun act => (act.result s).1 = .error f → f.IsOfProcess) setup plan
    ?nothing ?emptyGroup ?reported ?traced hf
  case nothing => nofun
  case emptyGroup => exact fun hempty => absurd hempty hplan
  case reported =>
    intro _ hf
    rw [result_reportAll] at hf
    cases hf
  case traced =>
    intro _ htraced hf
    obtain ⟨r, k, es, h, htrace⟩ := htraced s
    exact htrace.isOfProcess (h.outcome.symm.trans hf)

/-! ## The main result -/

/-- A plan has the stages that are declared and not skipped, in order: those of the tail, and
those of each cycle in each of its scopes, if any of them is left. Whichever of the skipped
ones are not declared, the plan is the same and so is what is left behind, but for the record
of the stages that were entered. And the plan can be run: it has no empty group. -/
theorem planPipe_leavesOut (setup : RunSetup σ) {p : PipeTemplate} {scope : Scope}
    {s t : RunState σ} {plan : PipePlan}
    (h : (planPipe setup p scope).result s = (.ok (some plan), t)) :
    ∃ tail groups,
      declared tail = p.tail ∧ turns groups = scopedStages s.store scope p.cycles ∧
      (∃ u, ChainResolves setup.workspace scope s.store tail u ∧
        GroupsResolve setup.workspace u groups t.store) ∧
      plan = ⟨p.name, plans groups, commands tail⟩ ∧
      (∀ rest others, LeavesOut tail rest → LeavesOutEach groups others → ∃ events,
        (planTurns setup { p with tail := declared rest } scope (turns others)).result s =
          (.ok (some plan), { t with events := events }) ∧
        ∀ cycles, scopedStages s.store scope cycles = turns others →
          (planPipe setup { p with tail := declared rest, cycles := cycles } scope).result s =
            (.ok (some plan), { t with events := events })) ∧
      ∀ {τ : Type} (other : RunSetup τ) (u : RunState τ) (f : Failure),
        ((runPipe other plan).result u).1 = .error f →
          ∀ pipe, f.rootCause ≠ .emptyCycleGroup pipe := by
  rw [result_planPipe_eq] at h
  obtain ⟨hguard, _, u, _, hstages, hcycles, rfl⟩ := result_planTurns_iff.mp h
  obtain ⟨tail, hdeclared, rfl, htail⟩ := chainResolves_of_result hstages
  obtain ⟨groups, hturns, rfl, hgroups⟩ := groupsResolve_of_result hcycles
  -- Planning enters stages and writes to the store, and does nothing else.
  have hend (es : List Event) : s.planned t.store es = { t with events := s.events ++ es } := by
    have hplanned := result_planTurns hguard htail hgroups
    rw [hdeclared, hturns, h] at hplanned
    rw [(Prod.mk.inj hplanned).2]
    rfl
  refine ⟨tail, groups, hdeclared, hturns, ⟨u.store, htail, hgroups⟩, rfl, ?_, ?_⟩
  · intro rest others hrest hothers
    have hplanned := result_planTurns hguard (hrest.resolves htail) (hothers.resolves hgroups)
    rw [hrest.commands_eq, hothers.plans_eq, hend] at hplanned
    refine ⟨_, hplanned, fun cycles hcycles => ?_⟩
    rw [result_planPipe_eq, hcycles]
    exact hplanned
  · intro τ other v f hf pipe
    have hprocess := isOfProcess_of_runPipe (nil_notMem_plans groups) hf
    cases hprocess <;> nofun

/-- Two segments, and a counter that begins with zero. -/
def countingStore : Store :=
  ((Store.empty.addSegment ⟨⟨1⟩⟩).addSegment ⟨⟨2⟩⟩).setDynamic "i" "0"

/-- A stage with a template of its own. -/
def sampleStage (id : String) (tree : Template.Block) (guard : Option Guard) : CommandTemplate :=
  ⟨⟨id, "sample"⟩, ⟨id, tree⟩, none, guard⟩

/-- A stage for as long as the counter is zero. -/
def earlyStage : CommandTemplate :=
  sampleStage "early" (.text ['e'] .done) (some ⟨"%\x7bdynamic.i\x7d == 0",
    .compare [.reference ⟨.dynamic, none, "i", "dynamic.i".toList⟩] .equal [.char '0']⟩)

/-- A stage that leaves the counter at one. -/
def countStage : CommandTemplate :=
  sampleStage "count" (.text ['c'] (.loop ⟨"i", none, .last [.char '1']⟩ (.text ['x'] .done) .done))
    none

/-- For each segment two stages, the second of which ends the time of the first. -/
def countingPipe : PipeTemplate where
  name := ⟨"mix", "sample"⟩
  guard := none
  cycles := [⟨.eachSegment, [], [earlyStage, countStage]⟩, ⟨.once, [], [earlyStage]⟩]
  tail := [sampleStage "join" (.text ['j'] .done) none]

/-- In the second segment the first stage is skipped; the other cycle has no stage left. -/
theorem planPipe_leavesOut_counting :
    let s : RunState Unit := ⟨countingStore, firstSeq, (), []⟩
    let r := (planPipe (sampleSetup [] []) countingPipe .global).result s
    let early : Command := ⟨⟨"early", "sample"⟩, ["e"], none⟩
    let count : Command := ⟨⟨"count", "sample"⟩, ["cxx"], none⟩
    let plan : PipePlan :=
      ⟨⟨"mix", "sample"⟩, [[early, count], [count]], [⟨⟨"join", "sample"⟩, ["j"], none⟩]⟩
    r.1 = .ok (some plan) ∧
    ∃ tail groups,
      declared tail = countingPipe.tail ∧
      turns groups = scopedStages countingStore .global countingPipe.cycles ∧
      (∃ u, ChainResolves (sampleSetup [] []).workspace .global countingStore tail u ∧
        GroupsResolve (sampleSetup [] []).workspace u groups r.2.store) ∧
      plan = ⟨⟨"mix", "sample"⟩, plans groups, commands tail⟩ ∧
      (∀ rest others, LeavesOut tail rest → LeavesOutEach groups others → ∃ events,
        (planTurns (sampleSetup [] []) { countingPipe with tail := declared rest } .global
          (turns others)).result s = (.ok (some plan), { r.2 with events := events }) ∧
        ∀ cycles, scopedStages countingStore .global cycles = turns others →
          (planPipe (sampleSetup [] []) { countingPipe with
            tail := declared rest, cycles := cycles } .global).result s =
            (.ok (some plan), { r.2 with events := events })) ∧
      ∀ {τ : Type} (other : RunSetup τ) (u : RunState τ) (f : Failure),
        ((runPipe other plan).result u).1 = .error f →
          ∀ pipe, f.rootCause ≠ .emptyCycleGroup pipe := by
  intro s r early count plan
  have hplan : r.1 = .ok (some plan) := by decide +kernel
  have hr : r = (.ok (some plan), r.2) := by
    rw [← hplan]
  exact ⟨hplan, planPipe_leavesOut (sampleSetup [] []) hr⟩

end Run

end MediaPipeline
