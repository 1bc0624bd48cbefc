import MediaPipeline.Proofs.EvaluationGuarantees
import MediaPipeline.Proofs.StoreInvariant

/-!
# What a run may write

A run reads all of its store and writes little of it. `Steps.writes` lists the dynamic
parameters that some steps may write: the variables of their loops and of the loops in their
templates, what they assign, and where they put channel mappings. A property of stores that
is ended neither by a write to one of these nor by a write to internal parameters holds at
the end of a run if it holds at the beginning, whether the run succeeds or not
(`execute_keeps`).
-/

namespace MediaPipeline

/-! ## What is written -/

/-- The dynamic parameters that a command may write. -/
def CommandTemplate.writes (c : CommandTemplate) : List String :=
  c.template.tree.loopVariables ++ c.output.toList.flatMap (·.tree.loopVariables)

/-- The dynamic parameters that stages may write. -/
def stageWrites (stages : List CommandTemplate) : List String := stages.flatMap (·.writes)

/-- The dynamic parameters that a pipe may write. -/
def PipeTemplate.writes (p : PipeTemplate) : List String :=
  stageWrites p.tail ++ p.cycles.flatMap fun c => stageWrites c.stages

/-- The dynamic parameters that an assignment may write. -/
def AssignTemplate.writes (a : AssignTemplate) : List String :=
  a.value.tree.loopVariables ++ match a.target with
    | .dynamic => [a.parameter]
    | .tmp => []

/-- The dynamic parameters that are written to find the bounds of a loop. -/
def LoopTemplate.boundWrites (head : LoopTemplate) : List String :=
  head.first.toList.flatMap (·.tree.loopVariables) ++ head.bound.template.tree.loopVariables

/-- The dynamic parameters that a channel mapping may write. -/
def AudioMapTemplate.writes (m : AudioMapTemplate) : List String :=
  m.parameter :: m.layout.tree.loopVariables

/-- The dynamic parameters that steps may write. -/
def Steps.writes : Steps → List String
  | .done => []
  | .command c rest => c.writes ++ rest.writes
  | .eachSegment _ body rest => body.writes ++ rest.writes
  | .eachSequence _ _ body rest => body.writes ++ rest.writes
  | .pipe p rest => p.writes ++ rest.writes
  | .assign a rest => a.writes ++ rest.writes
  | .branch _ _ yes no rest => yes.writes ++ no.writes ++ rest.writes
  | .loop head body rest => head.var :: (head.boundWrites ++ body.writes ++ rest.writes)
  | .audioMap m rest => m.writes ++ rest.writes

/-! ## What outlasts writes -/

/-- A property of stores is ended neither by writes to some dynamic parameters nor by writes
to internal ones. -/
structure Outlasts (I : Store → Prop) (names : List String) : Prop where
  dynamic : ∀ name ∈ names, ∀ s param, I s → I { s with dynamic := s.dynamic.insert name param }
  tmp : ∀ name s param, I s → I { s with tmp := s.tmp.insert name param }

namespace Outlasts

variable {I : Store → Prop} {names more : List String}

theorem mono (h : Outlasts I names) (hsub : ∀ name ∈ more, name ∈ names) : Outlasts I more where
  dynamic name hname := h.dynamic name (hsub name hname)
  tmp := h.tmp

theorem left (h : Outlasts I (names ++ more)) : Outlasts I names :=
  h.mono fun _ hname => List.mem_append_left more hname

theorem right (h : Outlasts I (names ++ more)) : Outlasts I more :=
  h.mono fun _ hname => List.mem_append_right names hname

theorem setDynamic (h : Outlasts I names) {name : String} (hname : name ∈ names) (s : Store)
    (value : String) (hs : I s) : I (s.setDynamic name value) :=
  h.dynamic name hname s (.keep value) hs

end Outlasts

/-! ## Consistent stores -/

/-- The dynamic and the internal parameters are found where they are listed. -/
structure Store.Consistent (s : Store) : Prop where
  dynamic : s.dynamic.Consistent
  tmp : s.tmp.Consistent

theorem Store.consistent_run (calls : List Store.Call) : (empty.run calls).Consistent where
  dynamic := ((run_represented_from .empty .empty calls).2.records .dynamic _
    List.mem_cons_self).consistent
  tmp := ((run_represented_from .empty .empty calls).2.records .tmp _
    List.mem_cons_self).consistent

theorem outlasts_consistent (names : List String) : Outlasts Store.Consistent names where
  dynamic name _ _ param hs := ⟨hs.dynamic.insert name param, hs.tmp⟩
  tmp name _ param hs := ⟨hs.dynamic, hs.tmp.insert name param⟩

namespace Run

variable {σ α β : Type} {I : Store → Prop} {scope : Scope}

/-- A part of a run keeps a property of the store, whether it succeeds or not. -/
def Keeps (I : Store → Prop) (act : Run σ α) : Prop :=
  ∀ s, I s.store → I (act.result s).2.store

namespace Keeps

theorem pure (a : α) : Keeps I (pure a : Run σ α) := fun _ hs => hs

theorem fail (cause : Cause) : Keeps I (fail cause : Run σ α) := fun _ hs => hs

theorem record (e : Event) : Keeps I (record e : Run σ Unit) := fun _ hs => hs

theorem of_upholds {act : Run σ α} (h : act.Upholds I fun _ => True) : Keeps I act :=
  fun s hs => (h s hs).1

theorem bind {act : Run σ α} {f : α → Run σ β} (hact : Keeps I act) (hf : ∀ a, Keeps I (f a)) :
    Keeps I (act >>= f) := by
  intro s hs
  have ht := hact s hs
  rw [result_bind]
  rcases hr : act.result s with ⟨e | a, t⟩ <;> rw [hr] at ht
  · exact ht
  · exact hf a t ht

/-- A look at the store. -/
theorem inspect {f : Store → Run σ α} (h : ∀ s, Keeps I (f s)) :
    Keeps I (do f (← store) : Run σ α) := by
  intro s hs
  rw [result_bind, result_store]
  exact h s.store s hs

theorem ofExcept (r : Except Cause α) : Keeps I (ofExcept r : Run σ α) := by
  cases r with
  | ok a => exact pure a
  | error cause => exact fail cause

theorem modifyStore {f : Store → Store} (h : ∀ s, I s → I (f s)) :
    Keeps I (modifyStore f : Run σ Unit) := fun s hs => h s.store hs

theorem placed {act : Run σ α} (h : Keeps I act) (operation : OperationName) (scope : Scope) :
    Keeps I (placed operation scope act) := by
  intro s hs
  rw [result_placed]
  exact h s hs

theorem step {act : Run σ α} (h : Keeps I act) (name : OperationName) (scope : Scope) :
    Keeps I (step name scope act) :=
  (record _).bind fun _ => h.placed name scope

theorem forEach {f : α → Run σ Unit} (h : ∀ a, Keeps I (f a)) (as : List α) :
    Keeps I (forEach f as) := by
  induction as with
  | nil => exact pure ()
  | cons a rest ih => exact (h a).bind fun _ => ih

end Keeps

/-! ## Templates and commands -/

theorem reading_any (s : Store) (scope : Scope) : Template.Reading (fun _ => True) s scope where
  reference _ _ _ := trivial
  other _ _ := trivial

theorem render_keeps {t : Template} (h : Outlasts I t.tree.loopVariables) :
    (t.render scope).Upholds I fun _ => True :=
  Template.render_upholds (fun s _ => reading_any s scope) fun _ hname s value hs =>
    h.setDynamic hname s value hs

/-- A command writes the variables of its loops only. -/
theorem resolve_upholds_writes {c : CommandTemplate}
    (h : ∀ name ∈ c.writes, ∀ s value, I s → I (s.setDynamic name value)) (w : Workspace) :
    (c.resolve w scope).Upholds I fun _ => True := by
  obtain ⟨htemplate, hwrites⟩ := List.forall_mem_append.mp h
  have hargv : (c.template.resolveArgv scope).Upholds I fun _ => True :=
    Template.resolveArgv_upholds (fun s _ => reading_any s scope) (fun _ _ => trivial) htemplate
  have houtput : (CommandTemplate.resolveOutput w scope c.output).Upholds I fun _ => True := by
    cases hc : c.output with
    | none => exact .pure none
    | some t =>
      rw [hc] at hwrites
      refine .bind (Template.render_upholds (t := t) (fun s _ => reading_any s scope)
        (by simpa using hwrites)) fun text => ?_
      split
      · exact .throw trivial
      · exact .pure _
  refine .read (fun s _ => (reading_any s scope).guard c.guard) fun allowed => ?_
  cases allowed with
  | false => exact .pure none
  | true => exact hargv.bind fun _ => houtput.bind fun _ => .pure _

theorem resolve_keeps {c : CommandTemplate} (h : Outlasts I c.writes) (w : Workspace) :
    (c.resolve w scope).Upholds I fun _ => True :=
  resolve_upholds_writes (fun _ hname s value hs => h.setDynamic hname s value hs) w

theorem onStore_keeps {act : Template.StoreM α} (h : act.Upholds I fun _ => True) :
    Keeps I (onStore act : Run σ α) :=
  .of_upholds (.onStore h)

theorem runCommand_keeps (setup : RunSetup σ) {c : CommandTemplate} (h : Outlasts I c.writes) :
    Keeps I (runCommand setup c scope) := by
  refine (onStore_keeps (resolve_keeps h setup.workspace)).bind fun command => ?_
  cases command with
  | none => exact .pure ()
  | some command => exact .of_upholds (once_upholds (fun _ _ => trivial) setup command)

theorem runAssign_keeps {a : AssignTemplate} (h : Outlasts I a.writes) :
    Keeps I (runAssign a scope : Run σ Unit) := by
  refine .inspect fun s => (Keeps.ofExcept _).bind fun allowed => ?_
  cases allowed with
  | false => exact .pure ()
  | true =>
    refine (onStore_keeps (render_keeps h.left)).bind fun value => ?_
    -- The look at the store and the write belong together: what is written is what was read.
    intro s hs
    rw [result_bind, result_store]
    have hwrites := h.right
    cases htarget : a.target with
    | dynamic =>
      rw [htarget] at hwrites
      exact hwrites.dynamic a.parameter List.mem_cons_self s.store _ hs
    | tmp => exact h.tmp a.parameter s.store _ hs

theorem runAudioMap_keeps {m : AudioMapTemplate} (h : Outlasts I m.writes) :
    Keeps I (runAudioMap m scope : Run σ Unit) := by
  have hrender : (m.layout.render scope).Upholds I fun _ => True :=
    render_keeps (h.mono fun _ hname => List.mem_cons_of_mem _ hname)
  refine .inspect fun s => (Keeps.ofExcept _).bind fun _ => .inspect fun s =>
    (Keeps.ofExcept _).bind fun tracks => (onStore_keeps hrender).bind fun name => ?_
  cases ChannelLayout.ofName? name with
  | none => exact .fail _
  | some layout =>
    exact (Keeps.ofExcept _).bind fun pan =>
      .modifyStore fun s hs => h.setDynamic List.mem_cons_self s pan hs

/-! ## Pipes -/

theorem resolveStages_keeps (setup : RunSetup σ) {stages : List CommandTemplate}
    (h : Outlasts I (stageWrites stages)) : Keeps I (resolveStages setup scope stages) := by
  induction stages with
  | nil => exact .pure []
  | cons c rest ih =>
    rw [stageWrites, List.flatMap_cons] at h
    exact (Keeps.record _).bind fun _ =>
      ((onStore_keeps (resolve_keeps h.left setup.workspace)).placed _ _).bind fun _ =>
        (ih h.right).bind fun _ => .pure _

theorem resolveGroups_keeps (setup : RunSetup σ) {stages : List CommandTemplate}
    (h : Outlasts I (stageWrites stages)) (scopes : List Scope) :
    Keeps I (resolveGroups setup stages scopes) := by
  induction scopes with
  | nil => exact .pure []
  | cons here rest ih =>
    exact (resolveStages_keeps setup h).bind fun _ => ih.bind fun _ => .pure _

theorem resolveCycles_keeps (setup : RunSetup σ) {cycles : List CycleTemplate}
    (h : Outlasts I (cycles.flatMap fun c => stageWrites c.stages)) :
    Keeps I (resolveCycles setup scope cycles) := by
  induction cycles with
  | nil => exact .pure []
  | cons c rest ih =>
    rw [List.flatMap_cons] at h
    exact .inspect fun s => (resolveGroups_keeps setup h.left _).bind fun _ =>
      (ih h.right).bind fun _ => .pure _

theorem runPipeStep_keeps (setup : RunSetup σ) {p : PipeTemplate} (h : Outlasts I p.writes) :
    Keeps I (runPipeStep setup p scope) := by
  have hplan : Keeps I (planPipe setup p scope) := by
    refine .inspect fun s => (Keeps.ofExcept _).bind fun allowed => ?_
    cases allowed with
    | false => exact .pure none
    | true =>
      exact (resolveStages_keeps setup h.left).bind fun _ =>
        (resolveCycles_keeps setup h.right).bind fun _ => .pure _
  refine hplan.bind fun plan => ?_
  cases plan with
  | none => exact .pure ()
  | some plan => exact .of_upholds (runPipe_upholds (fun _ _ => trivial) setup plan)

/-! ## Loops and steps -/

theorem loopRange_keeps {head : LoopTemplate} (h : Outlasts I head.boundWrites) :
    Keeps I (loopRange head scope : Run σ Template.IndexRange) := by
  have hinteger {t : Template} (ht : Outlasts I t.tree.loopVariables) :
      Keeps I (integer scope t : Run σ Int) := by
    refine (onStore_keeps (render_keeps ht)).bind fun value => ?_
    cases Text.int? value.toList with
    | some n => exact .pure n
    | none => exact .fail _
  have hfirst : Keeps I (loopFirst head scope : Run σ Int) := by
    have hwrites := h.left
    unfold loopFirst
    cases hf : head.first with
    | none => exact .pure 0
    | some t =>
      rw [hf] at hwrites
      exact hinteger (by simpa using hwrites)
  have hbound := hinteger h.right
  refine hfirst.bind fun first => ?_
  cases hb : head.bound with
  | last t =>
    rw [hb] at hbound
    exact Keeps.bind hbound fun _ => .pure _
  | count t =>
    rw [hb] at hbound
    refine Keeps.bind hbound fun count => ?_
    split
    · exact .fail _
    · cases Template.IndexRange.counted? first count with
      | some range => exact .pure range
      | none => exact .fail _

theorem forIndices_keeps {var : String} {act : Run σ Unit} (hact : Keeps I act)
    (hvar : ∀ s value, I s → I (s.setDynamic var value)) (n : Nat) (i : Int) :
    Keeps I (forIndices var act n i) := by
  induction n generalizing i with
  | zero => exact .pure ()
  | succ n ih =>
    exact (Keeps.modifyStore fun s hs => hvar s _ hs).bind fun _ => hact.bind fun _ => ih (i + 1)

/-- A run keeps what outlasts its writes. The induction is on the steps; a case for each kind
of step. -/
theorem execute_keeps (setup : RunSetup σ) {steps : Steps} (h : Outlasts I steps.writes)
    (scope : Scope) : Keeps I (execute setup scope steps) := by
  induction steps generalizing scope with
  | done => exact .pure ()
  | command c rest ih =>
    exact ((runCommand_keeps setup h.left).step _ _).bind fun _ => ih h.right scope
  | eachSegment name body rest ihb ihr =>
    exact (Keeps.record _).bind fun _ => .inspect fun s =>
      (Keeps.forEach (fun id => ihb h.left (scope.withSegment id)) _).bind fun _ => ihr h.right scope
  | eachSequence name types body rest ihb ihr =>
    exact (Keeps.record _).bind fun _ => .inspect fun s =>
      (Keeps.forEach (fun (p : SequenceType × SequenceId) =>
        ihb h.left (scope.enterSequence p.1 p.2)) _).bind fun _ => ihr h.right scope
  | pipe p rest ih =>
    exact ((runPipeStep_keeps setup h.left).step _ _).bind fun _ => ih h.right scope
  | assign a rest ih => exact ((runAssign_keeps h.left).step _ _).bind fun _ => ih h.right scope
  | branch name condition yes no rest ihy ihn ihr =>
    have hcondition : Keeps I (do ofExcept (condition.eval (← store) scope) : Run σ Bool) :=
      .inspect fun s => .ofExcept _
    refine (hcondition.step name scope).bind fun taken => ?_
    cases taken with
    | true => exact (ihy h.left.left scope).bind fun _ => ihr h.right scope
    | false => exact (ihn h.left.right scope).bind fun _ => ihr h.right scope
  | loop head body rest ihb ihr =>
    have htail := h.mono fun _ hname => List.mem_cons_of_mem _ hname
    have hloop (range : Template.IndexRange) :
        Keeps I (forIndices head.var (execute setup scope body) range.length range.first) :=
      forIndices_keeps (ihb htail.left.right scope)
        (fun s value hs => h.setDynamic List.mem_cons_self s value hs) _ _
    exact ((loopRange_keeps htail.left.left).step _ _).bind fun range =>
      (hloop range).bind fun _ => ihr htail.right scope
  | audioMap m rest ih => exact ((runAudioMap_keeps h.left).step _ _).bind fun _ => ih h.right scope

end Run

end MediaPipeline
