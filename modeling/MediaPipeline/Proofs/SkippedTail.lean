import MediaPipeline.Proofs.RunCongruence
import MediaPipeline.Proofs.RunCourse
import MediaPipeline.Proofs.SkippedStages

/-!
# Pipes whose tail is skipped

A pipe whose tail is skipped as a whole runs nothing. Its cycles are planned before that is
noticed, so that it fails if one of their stages cannot be resolved, and the loops in their
templates write to the store. The main result, `execute_skippedTail`, says when such a pipe
does nothing.
-/

namespace MediaPipeline

open Tried

/-! ## Chains that are skipped -/

theorem declared_skipped (stages : List CommandTemplate) :
    declared (stages.map (⟨·, none⟩)) = stages := by
  induction stages with
  | nil => rfl
  | cons c rest ih => rw [List.map_cons, declared_cons, ih]

theorem commands_skipped (stages : List CommandTemplate) :
    commands (stages.map (⟨·, none⟩)) = [] := by
  simp [commands]

namespace ChainResolves

variable {w : Workspace} {scope : Scope} {s t : Store} {ts : List Tried} {I : Store → Prop}

/-- Stages that are all skipped, from a store to itself. -/
theorem of_skipped {stages : List CommandTemplate}
    (h : ∀ c ∈ stages, guardAllows s scope c.guard = .ok false) :
    ChainResolves w scope s (stages.map (⟨·, none⟩)) s := by
  induction stages with
  | nil => exact .done
  | cons c rest ih =>
    obtain ⟨hc, hrest⟩ := List.forall_mem_cons.mp h
    exact .skipped hc (ih hrest)

/-- What outlasts the loops of stages. -/
theorem keeps (h : ChainResolves w scope s ts t)
    (hwrites : ∀ name ∈ stageWrites (declared ts), ∀ v value, I v → I (v.setDynamic name value))
    (hs : I s) : I t := by
  induction h with
  | done => exact hs
  | skipped _ _ ih =>
    rw [declared_cons, stageWrites, List.flatMap_cons] at hwrites
    exact ih (List.forall_mem_append.mp hwrites).2 hs
  | @kept s t u c command ts _ hresolve _ ih =>
    rw [declared_cons, stageWrites, List.flatMap_cons] at hwrites
    obtain ⟨hc, hrest⟩ := List.forall_mem_append.mp hwrites
    -- The guard of a command writes nothing, so that it writes the same without it.
    have ht : I ((c.unguarded.resolve w scope).result s).2 :=
      (Run.resolve_upholds_writes (c := c.unguarded) hc w s hs).1
    rw [hresolve] at ht
    exact ih hrest ht

end ChainResolves

theorem GroupsResolve.keeps {w : Workspace} {s t : Store} {groups : List (List Tried × Scope)}
    {I : Store → Prop} (h : GroupsResolve w s groups t)
    (hwrites : ∀ stages ∈ (turns groups).map Prod.fst, ∀ name ∈ stageWrites stages,
      ∀ v value, I v → I (v.setDynamic name value))
    (hs : I s) : I t := by
  induction h with
  | done => exact hs
  | next hgroup _ ih =>
    rw [turns_cons, List.map_cons] at hwrites
    obtain ⟨hfirst, hrest⟩ := List.forall_mem_cons.mp hwrites
    exact ih hrest (hgroup.keeps hfirst hs)

namespace Run

variable {σ : Type} {s t : RunState σ} {p : PipeTemplate} {scope : Scope}

/-! ## What planning does -/

/-- The store is another one, and steps were entered; nothing else was done. -/
def OnlyPlans (s t : RunState σ) : Prop :=
  ∃ entered, t = s.planned t.store entered ∧ ∀ e ∈ entered, ∃ name here, e = .entered name here

theorem onlyPlans_effect : Effect (OnlyPlans (σ := σ)) where
  write s store := ⟨[], by simp [RunState.planned], nofun⟩
  enter s operation scope := ⟨[.entered operation scope], rfl,
    List.forall_mem_singleton.mpr ⟨operation, scope, rfl⟩⟩
  trans := by
    rintro s t u ⟨es, ht, hes⟩ ⟨fs, hu, hfs⟩
    refine ⟨es ++ fs, ?_, List.forall_mem_append.mpr ⟨hes, hfs⟩⟩
    rw [← RunState.planned_planned s t.store, ← ht]
    exact hu

/-- The cycles are planned, and leave a certain store behind, just if that is where their
stages lead. -/
theorem resolveCycles_leads_iff (setup : RunSetup σ) (scope : Scope) (cycles : List CycleTemplate)
    (s : RunState σ) (u : Store) :
    let r := (resolveCycles setup scope cycles).result s
    (r.1.map (fun _ => ()) = .ok () ∧ r.2.store = u) ↔
      ∃ groups, turns groups = scopedStages s.store scope cycles ∧
        GroupsResolve setup.workspace s.store groups u := by
  rw [scopedStages_eq, result_resolveCycles setup scope cycles rfl]
  constructor
  · rintro ⟨hok, rfl⟩
    obtain ⟨found, hfound, -⟩ := map_eq_ok.mp hok
    obtain ⟨groups, hturns, -, hgroups⟩ := groupsResolve_of_result (Prod.ext hfound rfl)
    exact ⟨groups, hturns, hgroups⟩
  · rintro ⟨groups, hturns, hgroups⟩
    rw [← hturns, result_resolveTurns hgroups rfl]
    exact ⟨rfl, rfl⟩

/-- Without loops the stages of cycles lead back to the store that they began with. -/
theorem store_eq_of_loopless {w : Workspace} {cycles : List CycleTemplate} {u v : Store}
    {groups : List (List Tried × Scope)} (h : GroupsResolve w u groups v)
    (hturns : turns groups = scopedStages u scope cycles)
    (hloopless : ∀ c ∈ cycles, stageWrites c.stages = []) : v = u := by
  refine h.keeps (I := fun v => v = u) (fun stages hmem name hname => ?_) rfl
  rw [hturns, scopedStages, List.map_flatMap, List.mem_flatMap] at hmem
  obtain ⟨c, hc, hmem⟩ := hmem
  rw [List.map_map, List.mem_map] at hmem
  obtain ⟨here, _, rfl⟩ := hmem
  rw [Function.comp_apply, hloopless c hc] at hname
  cases hname

/-! ## Pipes without a tail -/

section SkippedTail

variable (setup : RunSetup σ) (hguard : guardAllows s.store scope p.guard = .ok true)
  (htail : ∀ c ∈ p.tail, guardAllows s.store scope c.guard = .ok false)

include hguard htail

/-- What is left of the step is to plan the cycles. -/
theorem result_runPipeStep_skippedTail :
    (runPipeStep setup p scope).result s =
      let r := (resolveCycles setup scope p.cycles).result
        (s.planned s.store (entries scope p.tail))
      (r.1.map fun _ => (), r.2) := by
  have hstages : (resolveStages setup scope p.tail).result s =
      (.ok [], s.planned s.store (entries scope p.tail)) := by
    have hskipped : (resolveStages setup scope (declared (p.tail.map (⟨·, none⟩)))).result s = _ :=
      result_resolveStages (.of_skipped htail) rfl
    rwa [declared_skipped, commands_skipped] at hskipped
  rw [result_runPipeStep, result_bind, result_bind, result_store]
  dsimp only
  rw [result_ofExcept, hguard]
  simp only [Except.mapError, if_true, pipeBody]
  rw [result_bind, hstages]
  dsimp only
  rw [result_bind]
  rcases (resolveCycles setup scope p.cycles).result _ with ⟨f | groups, t⟩
  · rfl
  · rfl

theorem result_execute_skippedTail :
    (execute setup scope (.pipe p .done)).result s =
      let r := (resolveCycles setup scope p.cycles).result
        (s.planned s.store (.entered p.name scope :: entries scope p.tail))
      ((r.1.map fun _ => ()).mapError (·.inOperation p.name scope), r.2) := by
  rw [execute, execute, result_bind_unit, result_step, result_placed,
    result_runPipeStep_skippedTail setup (s := s.entered p.name scope) hguard htail]
  simp only [RunState.entered, RunState.planned, List.append_assoc, List.singleton_append]

end SkippedTail

/-! ## The main result -/

/-- A pipe whose tail is skipped starts nothing: it enters steps and may write to the store.
It succeeds, and leaves a certain store behind, just if that is where the stages of its cycles
lead when each of them has its turn; so it does nothing just if they lead back to the store
that it began with. They do if they can be resolved and have no loops. -/
theorem execute_skippedTail (setup : RunSetup σ) {p : PipeTemplate} {scope : Scope}
    {s : RunState σ} (hguard : guardAllows s.store scope p.guard = .ok true)
    (htail : ∀ c ∈ p.tail, guardAllows s.store scope c.guard = .ok false) :
    let r := (execute setup scope (.pipe p .done)).result s
    OnlyPlans s r.2 ∧
    (∀ u, (r.1 = .ok () ∧ r.2.store = u) ↔
      ∃ groups, turns groups = scopedStages s.store scope p.cycles ∧
        GroupsResolve setup.workspace s.store groups u) ∧
    ((∀ c ∈ p.cycles, stageWrites c.stages = []) → r.1 = .ok () → r.2.store = s.store) := by
  rw [result_execute_skippedTail setup hguard htail]
  obtain ⟨start, hs⟩ : ∃ start : RunState σ,
      start = s.planned s.store (.entered p.name scope :: entries scope p.tail) := ⟨_, rfl⟩
  have hstart : OnlyPlans s start := by
    subst hs
    refine ⟨_, rfl, List.forall_mem_cons.mpr ⟨⟨p.name, scope, rfl⟩, fun e he => ?_⟩⟩
    obtain ⟨c, _, rfl⟩ := List.mem_map.mp he
    exact ⟨c.name, scope, rfl⟩
  have hplans : OnlyPlans start ((resolveCycles setup scope p.cycles).result start).2 :=
    onlyPlans_effect.congruence.resolveCycles rfl scope p.cycles start
  have hleads := resolveCycles_leads_iff setup scope p.cycles start
  rw [show start.store = s.store from hs ▸ rfl] at hleads
  rw [← hs]
  dsimp only at hleads ⊢
  generalize (resolveCycles setup scope p.cycles).result _ = r at hplans hleads ⊢
  have hok : (r.1.map fun _ => ()).mapError (·.inOperation p.name scope) = .ok () ↔
      r.1.map (fun _ => ()) = .ok () := by
    cases r.1 <;> simp [Except.map, Except.mapError]
  rw [hok]
  refine ⟨onlyPlans_effect.trans hstart hplans, hleads, fun hloopless hr => ?_⟩
  obtain ⟨groups, hturns, hgroups⟩ := (hleads r.2.store).mp ⟨hr, rfl⟩
  exact store_eq_of_loopless hgroups hturns hloopless

/-- A pipe whose tail is skipped. -/
def taillessPipe (cycles : List CycleTemplate) : PipeTemplate where
  name := ⟨"mix", "sample"⟩
  guard := none
  cycles := cycles
  tail :=
    let no : Guard := ⟨"no", .flag false [.char 'n', .char 'o']⟩
    [sampleStage "write" (.text ['w'] .done) (some no)]

theorem taillessPipe_skipped (cycles : List CycleTemplate) (s : Store) (scope : Scope) :
    ∀ c ∈ (taillessPipe cycles).tail, guardAllows s scope c.guard = .ok false :=
  List.forall_mem_singleton.mpr rfl

/-- For each segment a stage that can be resolved. -/
def readingCycle : CycleTemplate :=
  ⟨.eachSegment, [], [sampleStage "read" (.text ['r'] .done) none]⟩

/-- This one does nothing. -/
theorem execute_skippedTail_reading :
    let s : RunState Unit := ⟨countingStore, firstSeq, (), []⟩
    let p := taillessPipe [readingCycle]
    let r := (execute (sampleSetup [] []) .global (.pipe p .done)).result s
    guardAllows countingStore .global p.guard = .ok true ∧
    (∀ c ∈ p.tail, guardAllows countingStore .global c.guard = .ok false) ∧
    r.1 = .ok () ∧
    OnlyPlans s r.2 ∧
    (∀ u, (r.1 = .ok () ∧ r.2.store = u) ↔
      ∃ groups, turns groups = scopedStages countingStore .global p.cycles ∧
        GroupsResolve (sampleSetup [] []).workspace countingStore groups u) ∧
    ((∀ c ∈ p.cycles, stageWrites c.stages = []) → r.1 = .ok () →
      r.2.store = countingStore) :=
  ⟨rfl, taillessPipe_skipped _ _ _, by decide +kernel,
    execute_skippedTail (sampleSetup [] []) rfl (taillessPipe_skipped _ _ _)⟩

/-- A stage that reads a parameter that is not set. -/
def unsetStage : CommandTemplate :=
  sampleStage "read" (.reference ⟨.dynamic, none, "take", "dynamic.take".toList⟩ .done) none

/-- A stage that reads a parameter that is not set makes the pipe fail, and a loop writes to
the store, although all of the tail is skipped. -/
theorem skippedTail_runs_on :
    let s : RunState Unit := ⟨countingStore, firstSeq, (), []⟩
    let p (c : CommandTemplate) := taillessPipe [⟨.once, [], [c]⟩]
    let r (c : CommandTemplate) :=
      (execute (sampleSetup [] []) .global (.pipe (p c) .done)).result s
    (∀ c, guardAllows s.store .global (p c).guard = .ok true ∧
      ∀ stage ∈ (p c).tail, guardAllows s.store .global stage.guard = .ok false) ∧
    (r unsetStage).1 = .error (.within ⟨"read", "sample"⟩ .global
      (.paramNotFound "%\x7bdynamic.take\x7d" (.unbound .missingParameter))) ∧
    (r countStage).1 = .ok () ∧ (r countStage).2.store ≠ s.store := by
  refine ⟨fun c => ⟨rfl, taillessPipe_skipped _ _ _⟩, by decide +kernel, by decide +kernel,
    fun hstore => ?_⟩
  have hcounter := congrArg (fun s : Store => s.dynamic.get? "i") hstore
  revert hcounter
  decide +kernel

end Run

end MediaPipeline
