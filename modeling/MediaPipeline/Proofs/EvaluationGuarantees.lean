import MediaPipeline.Proofs.PipeTrace
import MediaPipeline.Proofs.TemplateResolution
import MediaPipeline.Run.Engine

/-!
# What evaluations guarantee

An evaluation reads the store through references and writes it at its leaves. Whatever is
true of the store and kept by those writes is therefore kept by the whole evaluation, and
whatever is true of each cause that a reference fails with, and of each cause that has
nothing to do with references, is true of every cause that the evaluation fails with.
`Upholds` says both at once. It is proved first of templates and then of all that a step
of a pipeline does on its own; that no such step places its failure itself is part of it.
-/

namespace MediaPipeline

/-- The reason that a reference has no binding, if that is what went wrong. -/
def Cause.reason? : Cause → Option NotFoundReason
  | .paramNotFound _ (.unbound reason) => some reason
  | .paramNotFound _ (.unsetIndex missing) => some missing.reason
  | _ => none

/-- A failure is of some kind. -/
def FailsWith {ε α : Type} (Q : ε → Prop) (x : Except ε α) : Prop :=
  ∀ c, x = .error c → Q c

namespace FailsWith

variable {ε ε' α β : Type} {Q : ε → Prop}

theorem ok (a : α) : FailsWith Q (.ok a) := by
  intro e he
  cases he

theorem error {e : ε} (h : Q e) : FailsWith Q (.error e : Except ε α) := by
  rintro _ ⟨⟩
  exact h

theorem bind {x : Except ε α} {f : α → Except ε β} (hx : FailsWith Q x)
    (hf : ∀ a, x = .ok a → FailsWith Q (f a)) : FailsWith Q (x >>= f) := by
  cases x with
  | error e => exact error (hx e rfl)
  | ok a => exact hf a rfl

theorem map {x : Except ε α} (hx : FailsWith Q x) (f : α → β) : FailsWith Q (x.map f) := by
  cases x with
  | error e => exact error (hx e rfl)
  | ok a => exact ok (f a)

theorem mapError {R : ε' → Prop} {x : Except ε α} {f : ε → ε'} (hx : FailsWith Q x)
    (hf : ∀ e, Q e → R (f e)) : FailsWith R (x.mapError f) := by
  cases x with
  | error e => exact error (hf e (hx e rfl))
  | ok a => exact ok a

theorem forM {f : α → Except ε PUnit} {l : List α} (hf : ∀ a ∈ l, FailsWith Q (f a)) :
    FailsWith Q (l.forM f) := by
  induction l with
  | nil => exact ok _
  | cons a l ih =>
    exact (hf a List.mem_cons_self).bind fun _ _ =>
      ih fun b hb => hf b (List.mem_cons_of_mem _ hb)

theorem mapM {f : α → Except ε β} {l : List α} (hf : ∀ a ∈ l, FailsWith Q (f a)) :
    FailsWith Q (l.mapM f) := by
  induction l with
  | nil => exact ok _
  | cons a l ih =>
    rw [List.mapM_cons]
    exact (hf a List.mem_cons_self).bind fun _ _ =>
      (ih fun b hb => hf b (List.mem_cons_of_mem _ hb)).bind fun _ _ => ok _

theorem foldlM {f : β → α → Except ε β} (hf : ∀ b a, FailsWith Q (f b a)) (b : β) (l : List α) :
    FailsWith Q (l.foldlM f b) := by
  induction l generalizing b with
  | nil => exact ok b
  | cons a l ih =>
    rw [List.foldlM_cons]
    exact (hf b a).bind fun c _ => ih c

end FailsWith

/-! ## Templates -/

namespace Template

section Reading

variable {Q : Cause → Prop} {s : Store} {scope : Scope}

/-- A word fails as its references do. -/
theorem failsWith_word (h : ∀ r, FailsWith Q (resolve s scope r)) (w : Word) :
    FailsWith Q (w.eval s scope) := by
  induction w with
  | nil => exact .ok []
  | cons a w ih =>
    cases a with
    | char c => exact ih.bind fun _ _ => .ok _
    | reference r => exact (h r).bind fun _ _ => ih.bind fun _ _ => .ok _

/-- References fail with causes of a kind, and so does what has nothing to do with them. -/
structure Reading (Q : Cause → Prop) (s : Store) (scope : Scope) : Prop where
  reference : ∀ r, FailsWith Q (resolve s scope r)
  other : ∀ c, c.reason? = none → Q c

namespace Reading

variable (h : Reading Q s scope)

include h

theorem word (w : Word) : FailsWith Q (w.eval s scope) := failsWith_word h.reference w

theorem condition (c : Condition) (source : String) : FailsWith Q (c.eval s scope source) := by
  cases c with
  | flag negated w =>
    refine (h.word w).bind fun value _ => ?_
    dsimp only
    split
    · exact .ok _
    · exact .error (h.other _ rfl)
  | compare left comparison right =>
    exact (h.word left).bind fun _ _ => (h.word right).bind fun _ _ => .ok _

theorem bound (source argument : String) (w : Word) :
    FailsWith Q (boundValue s scope source argument w) := by
  refine (h.word w).bind fun value _ => ?_
  cases Text.int? (Text.trim value) with
  | some n => exact .ok n
  | none => exact .error (h.other _ rfl)

theorem range (head : LoopHead) (source : String) : FailsWith Q (head.range s scope source) := by
  obtain ⟨var, first, bound⟩ := head
  have hfirst : FailsWith Q (startValue s scope source first) := by
    cases first with
    | none => exact .ok 0
    | some w => exact h.bound source "from" w
  cases bound with
  | last w =>
    rw [range_last]
    exact hfirst.bind fun _ _ => (h.bound source "to" w).map _
  | count w =>
    rw [range_count]
    refine hfirst.bind fun first _ => (h.bound source "count" w).bind fun count _ => ?_
    split
    · exact .error (h.other _ rfl)
    · cases IndexRange.counted? first count with
      | some range => exact .ok range
      | none => exact .error (h.other _ rfl)

theorem guard (g : Option Guard) : FailsWith Q (guardAllows s scope g) := by
  cases g with
  | none => exact .ok true
  | some g => exact h.condition g.condition g.source

end Reading

end Reading

/-- A computation keeps a property of the store, and fails with causes of a kind. -/
def StoreM.Upholds {α : Type} (I : Store → Prop) (Q : Cause → Prop) (act : StoreM α) : Prop :=
  ∀ s, I s → I (act.result s).2 ∧ FailsWith Q (act.result s).1

namespace StoreM.Upholds

variable {α β : Type} {I : Store → Prop} {Q : Cause → Prop}

theorem pure (a : α) : Upholds I Q (pure a : StoreM α) := fun _ hs => ⟨hs, .ok a⟩

theorem throw {c : Cause} (h : Q c) : Upholds I Q (throw c : StoreM α) := fun _ hs =>
  ⟨hs, .error h⟩

theorem bind {act : StoreM α} {f : α → StoreM β} (hact : act.Upholds I Q)
    (hf : ∀ a, (f a).Upholds I Q) : (act >>= f).Upholds I Q := by
  intro s hs
  obtain ⟨ht, hfail⟩ := hact s hs
  rw [result_bind]
  rcases hr : act.result s with ⟨c | a, t⟩ <;> rw [hr] at ht hfail
  · exact ⟨ht, .error (hfail c rfl)⟩
  · exact hf a t ht

theorem read {read : Store → Except Cause α} {f : α → StoreM β}
    (hread : ∀ s, I s → FailsWith Q (read s)) (hf : ∀ a, (f a).Upholds I Q) :
    Upholds I Q (do let a ← read (← get); f a) := by
  intro s hs
  rw [result_read]
  cases hr : read s with
  | error c => exact ⟨hs, .error (hread s hs c hr)⟩
  | ok a => exact hf a s hs

theorem modify {f : Store → Store} (hf : ∀ s, I s → I (f s)) :
    Upholds I Q (modify f : StoreM PUnit) := fun s hs => ⟨hf s hs, .ok _⟩

theorem forIndices {act : StoreM (List α)} {var : String} (hact : act.Upholds I Q)
    (hvar : ∀ s value, I s → I (s.setDynamic var value)) (n : Nat) (i : Int) :
    (forIndices var act n i).Upholds I Q := by
  induction n generalizing i with
  | zero => exact pure []
  | succ n ih =>
    exact (modify fun s hs => hvar s _ hs).bind fun _ => hact.bind fun _ =>
      (ih (i + 1)).bind fun _ => pure _

end StoreM.Upholds

section Evaluation

variable {I : Store → Prop} {Q : Cause → Prop} {scope : Scope}
  (hread : ∀ s, I s → Reading Q s scope) (hother : ∀ c, c.reason? = none → Q c)

include hread in
/-- A block writes the variables of its loops, and nothing else. The induction is on the
tree. -/
theorem Block.eval_upholds {b : Block} (source : String)
    (hwrite : ∀ var ∈ b.loopVariables, ∀ s value, I s → I (s.setDynamic var value)) :
    (b.eval scope source).Upholds I Q := by
  induction b with
  | done => exact .pure []
  | text cs rest ih => exact (ih hwrite).bind fun _ => .pure _
  | reference r rest ih =>
    exact .read (fun s hs => (hread s hs).reference r) fun _ => (ih hwrite).bind fun _ => .pure _
  | loop head body rest ihb ihr =>
    obtain ⟨hvar, hboth⟩ := List.forall_mem_cons.mp hwrite
    obtain ⟨hbody, hrest⟩ := List.forall_mem_append.mp hboth
    exact .read (fun s hs => (hread s hs).range head source) fun range =>
      ((ihb hbody).forIndices hvar _ _).bind fun _ => (ihr hrest).bind fun _ => .pure _
  | branch condition yes no rest ihy ihn ihr =>
    obtain ⟨hboth, hrest⟩ := List.forall_mem_append.mp hwrite
    obtain ⟨hyes, hno⟩ := List.forall_mem_append.mp hboth
    refine .read (fun s hs => (hread s hs).condition condition source) fun taken => ?_
    cases taken with
    | true => exact (ihy hyes).bind fun _ => (ihr hrest).bind fun _ => .pure _
    | false => exact (ihn hno).bind fun _ => (ihr hrest).bind fun _ => .pure _

variable {t : Template}
  (hwrite : ∀ var ∈ t.tree.loopVariables, ∀ s value, I s → I (s.setDynamic var value))

include hread hwrite

theorem render_upholds : (t.render scope).Upholds I Q :=
  (Block.eval_upholds hread t.source hwrite).bind fun _ => .pure _

include hother

theorem resolveArgv_upholds : (t.resolveArgv scope).Upholds I Q := by
  refine (Block.eval_upholds hread t.source hwrite).bind fun chunks => ?_
  match splitArguments chunks with
  | .error fault => exact .throw (hother _ rfl)
  | .ok [] => exact .throw (hother _ rfl)
  | .ok (a :: argv) => exact .pure _

end Evaluation

end Template

/-! ## Pipes -/

/-- A failure that has no place yet, and nothing to do with references. -/
def Failure.IsTrouble (f : Failure) : Prop := ∃ c, f = .plain c ∧ c.reason? = none

/-- A process could not be started or waited for, or ended without success. -/
inductive Failure.IsOfProcess : Failure → Prop where
  | spawn (program operation : String) (e : OsError) :
      IsOfProcess (.plain (.spawn program operation e))
  | ended (program operation : String) (status : ExitStatus) :
      IsOfProcess (.plain (.processFailed program operation status))
  | lost (e : OsError) : IsOfProcess (.plain (.system e))

theorem Failure.IsOfProcess.isTrouble {f : Failure} (h : f.IsOfProcess) : f.IsTrouble := by
  cases h with
  | spawn program operation e => exact ⟨_, rfl, rfl⟩
  | ended program operation status => exact ⟨_, rfl, rfl⟩
  | lost e => exact ⟨_, rfl, rfl⟩

theorem LiveProcess.spawnFailure_isOfProcess (p : LiveProcess) (e : OsError) :
    (p.spawnFailure e).IsOfProcess := .spawn ..

theorem LiveProcess.isOfProcess_of_verdict {p : LiveProcess} {status : Ending} {f : Failure}
    (h : p.verdict status = .error f) : f.IsOfProcess := by
  cases status with
  | unknown e =>
    cases h
    exact .lost e
  | known status =>
    simp only [LiveProcess.verdict] at h
    split at h
    · cases h
    · cases h
      exact .ended ..

theorem GroupTrace.isOfProcess {tail n : Nat} {inputOpen : Bool} {group : List Command}
    {es : List Event} {r : Except Failure Bool} {f : Failure}
    (h : GroupTrace tail n inputOpen group es r) (hr : r = .error f) : f.IsOfProcess := by
  cases h with
  | @refused _ p _ e _ =>
    cases hr
    exact p.spawnFailure_isOfProcess e
  | @ended first _ status _ _ _ _ _ =>
    cases hv : first.verdict status with
    | ok u =>
      rw [hv] at hr
      cases hr
    | error g =>
      rw [hv] at hr
      cases hr
      exact LiveProcess.isOfProcess_of_verdict hv

theorem GroupsTrace.isOfProcess {tail n : Nat} {inputOpen : Bool} {groups : List (List Command)}
    {es : List Event} {r : Except Failure Unit} {f : Failure}
    (h : GroupsTrace tail n inputOpen groups es r) (hr : r = .error f) : f.IsOfProcess := by
  induction h with
  | done => cases hr
  | failed hg =>
    cases hr
    exact hg.isOfProcess rfl
  | next _ _ ih => exact ih hr

theorem PipeTrace.isOfProcess {plan : PipePlan} {n : Nat} {es : List Event}
    {r : Except Failure Unit} {f : Failure} (h : PipeTrace plan n es r) (hr : r = .error f) :
    f.IsOfProcess := by
  cases h with
  | @refused _ p _ e _ =>
    cases hr
    exact p.spawnFailure_isOfProcess e
  | alone _ _ _ => exact LiveProcess.isOfProcess_of_verdict hr
  | fed _ _ _ hes => exact hes.isOfProcess hr

/-! ## Steps -/

/-- What holds of evaluations in a scope: the invariant does not speak of dynamic and
internal parameters, references and channel counts fail with causes of a kind, and so does
all that has nothing to do with references. -/
structure Discipline (I : Store → Prop) (Q : Cause → Prop) (scope : Scope) : Prop where
  flat : ∀ s dynamic tmp, I s → I { s with dynamic := dynamic, tmp := tmp }
  reference : ∀ s, I s → ∀ r, FailsWith Q (Template.resolve s scope r)
  channels : ∀ s, I s → ∀ id ∈ s.sequenceIds .audio, FailsWith Q (channelCount s id)
  other : ∀ c, c.reason? = none → Q c

namespace Run

variable {σ α β : Type} {I : Store → Prop} {Q : Cause → Prop}

/-- A part of a run keeps a property of the store, and fails with causes of a kind that
have no place yet. -/
def Upholds (I : Store → Prop) (Q : Cause → Prop) (act : Run σ α) : Prop :=
  ∀ s, I s.store → I (act.result s).2.store ∧
    ∀ f, (act.result s).1 = .error f → ∃ c, f = .plain c ∧ Q c

namespace Upholds

theorem pure (a : α) : Upholds I Q (pure a : Run σ α) := fun _ hs => ⟨hs, fun f hf => by cases hf⟩

theorem fail {c : Cause} (h : Q c) : Upholds I Q (fail c : Run σ α) := fun _ hs =>
  ⟨hs, fun f hf => by
    cases hf
    exact ⟨c, rfl, h⟩⟩

theorem bind {act : Run σ α} {f : α → Run σ β} (hact : act.Upholds I Q)
    (hf : ∀ a, (f a).Upholds I Q) : (act >>= f).Upholds I Q := by
  intro s hs
  obtain ⟨ht, hfail⟩ := hact s hs
  rw [result_bind]
  rcases hr : act.result s with ⟨e | a, t⟩ <;> rw [hr] at ht hfail
  · exact ⟨ht, fun f hf => by
      cases hf
      exact hfail e rfl⟩
  · exact hf a t ht

theorem record (e : Event) : Upholds I Q (record e : Run σ Unit) := fun _ hs =>
  ⟨hs, fun f hf => by cases hf⟩

theorem ofExcept {r : Except Cause α} (h : FailsWith Q r) : Upholds I Q (ofExcept r : Run σ α) := by
  cases r with
  | ok a => exact pure a
  | error c => exact fail (h c rfl)

/-- A look at the store. -/
theorem inspect {read : Store → Except Cause α} (hread : ∀ s, I s → FailsWith Q (read s)) :
    Upholds I Q (do Run.ofExcept (read (← store)) : Run σ α) := by
  intro s hs
  rw [result_bind, result_store]
  exact ofExcept (hread s.store hs) s hs

/-- A value read from the store. -/
theorem read {read : Store → Except Cause α} {f : α → Run σ β}
    (hread : ∀ s, I s → FailsWith Q (read s)) (hf : ∀ a, (f a).Upholds I Q) :
    Upholds I Q (do let a ← Run.ofExcept (read (← store)); f a) := by
  intro s hs
  have h := (ofExcept (hread s.store hs)).bind hf s hs
  rwa [result_bind, result_store]

theorem onStore {act : Template.StoreM α} (h : act.Upholds I Q) :
    Upholds I Q (onStore act : Run σ α) := by
  intro s hs
  obtain ⟨ht, hfail⟩ := h s.store hs
  rw [result_onStore]
  refine ⟨ht, fun f hf => ?_⟩
  cases hr : (act.result s.store).1 with
  | ok a =>
    rw [show (act.run.run s.store).1 = .ok a from hr] at hf
    cases hf
  | error c =>
    rw [show (act.run.run s.store).1 = .error c from hr] at hf
    cases hf
    exact ⟨c, rfl, hfail c hr⟩

theorem modifyStore {f : Store → Store} (hf : ∀ s, I s → I (f s)) :
    Upholds I Q (modifyStore f : Run σ Unit) := fun s hs =>
  ⟨hf s.store hs, fun f hf => by cases hf⟩

/-- A part that leaves the store, and fails because of the machine only. -/
theorem of_yields (hother : ∀ c, c.reason? = none → Q c) {act : Run σ α}
    (h : ∀ s, ∃ r k es, act.Yields s r k es ∧ ∀ f, r = .error f → f.IsTrouble) :
    act.Upholds I Q := by
  intro s hs
  obtain ⟨r, k, es, hact, hr⟩ := h s
  refine ⟨hact.store.symm ▸ hs, fun f hf => ?_⟩
  obtain ⟨c, hc, hnone⟩ := hr f (hact.outcome.symm.trans hf)
  exact ⟨c, hc, hother c hnone⟩

end Upholds

section Machine

variable (hother : ∀ c, c.reason? = none → Q c)

include hother

theorem once_upholds (setup : RunSetup σ) (c : Command) : (once setup c).Upholds I Q := by
  unfold once
  split
  · exact .record _
  · refine .bind (.of_yields hother fun s => ?_) fun p => ?_
    · obtain h | ⟨e, h⟩ := start_yields setup c .once .empty (Redirect.forStage c true) s rfl
      · exact ⟨_, _, _, h, fun f hf => by cases hf⟩
      · refine ⟨_, _, _, h, fun f hf => ?_⟩
        cases hf
        exact (LiveProcess.spawnFailure_isOfProcess _ e).isTrouble
    · refine .bind (.of_yields hother fun s => ?_) fun status => .of_yields hother fun s => ?_
      · obtain ⟨status, h⟩ := await_yields setup p s
        exact ⟨_, _, _, h, fun f hf => by cases hf⟩
      · exact ⟨_, _, _, requireSuccess_yields p status s,
          fun f hf => (LiveProcess.isOfProcess_of_verdict hf).isTrouble⟩

theorem runPipe_upholds (setup : RunSetup σ) (plan : PipePlan) :
    (runPipe setup plan).Upholds I Q := by
  apply runPipe_cases setup plan
  case nothing => exact .pure ()
  case emptyGroup => exact fun _ => .fail (hother _ rfl)
  case reported =>
    intro _ s hs
    rw [result_reportAll]
    exact ⟨hs, fun f hf => by cases hf⟩
  case traced =>
    intro _ htraced
    refine .of_yields hother fun s => ?_
    obtain ⟨r, k, es, h, htrace⟩ := htraced s
    exact ⟨r, k, es, h, fun f hf => (htrace.isOfProcess hf).isTrouble⟩

end Machine

section Steps

variable {scope : Scope} (h : Discipline I Q scope)

include h

theorem reading_of_discipline (s : Store) (hs : I s) : Template.Reading Q s scope :=
  ⟨h.reference s hs, h.other⟩

theorem render_upholds (t : Template) : (t.render scope).Upholds I Q :=
  Template.render_upholds (reading_of_discipline h) fun _ _ s _ hs => h.flat s _ s.tmp hs

theorem resolve_upholds (w : Workspace) (c : CommandTemplate) : (c.resolve w scope).Upholds I Q := by
  have hargv : (c.template.resolveArgv scope).Upholds I Q :=
    Template.resolveArgv_upholds (reading_of_discipline h) h.other
      fun _ _ s _ hs => h.flat s _ s.tmp hs
  have houtput : (CommandTemplate.resolveOutput w scope c.output).Upholds I Q := by
    cases c.output with
    | none => exact .pure none
    | some t =>
      refine (render_upholds h t).bind fun text => ?_
      split
      · exact .throw (h.other _ rfl)
      · exact .pure _
  refine .read (fun s hs => (reading_of_discipline h s hs).guard c.guard) fun allowed => ?_
  cases allowed with
  | false => exact .pure none
  | true => exact hargv.bind fun _ => houtput.bind fun _ => .pure _

theorem runCommand_upholds (setup : RunSetup σ) (c : CommandTemplate) :
    (runCommand setup c scope).Upholds I Q := by
  refine (Upholds.onStore (resolve_upholds h setup.workspace c)).bind fun command => ?_
  cases command with
  | none => exact .pure ()
  | some command => exact once_upholds h.other setup command

theorem integer_upholds (t : Template) : (integer scope t : Run σ Int).Upholds I Q := by
  refine (Upholds.onStore (render_upholds h t)).bind fun value => ?_
  cases Text.int? value.toList with
  | some n => exact .pure n
  | none => exact .fail (h.other _ rfl)

theorem loopRange_upholds (head : LoopTemplate) :
    (loopRange head scope : Run σ Template.IndexRange).Upholds I Q := by
  have hfirst : (loopFirst head scope : Run σ Int).Upholds I Q := by
    unfold loopFirst
    cases head.first with
    | none => exact .pure 0
    | some t => exact integer_upholds h t
  refine hfirst.bind fun first => ?_
  cases head.bound with
  | last t => exact (integer_upholds h t).bind fun _ => .pure _
  | count t =>
    refine (integer_upholds h t).bind fun count => ?_
    split
    · exact .fail (h.other _ rfl)
    · cases Template.IndexRange.counted? first count with
      | some range => exact .pure range
      | none => exact .fail (h.other _ rfl)

/-- An assignment writes a dynamic or an internal parameter and cannot be refused. -/
theorem addParameter_upholds (target : AssignTarget) (name : String) (param : Param) :
    Upholds I Q (do
      match (← store).addParameter target.kind scope name param with
      | .ok s => modifyStore fun _ => s
      | .error missing => fail missing.toCause : Run σ Unit) := by
  intro s hs
  rw [result_bind, result_store]
  cases target with
  | dynamic => exact ⟨h.flat s.store _ s.store.tmp hs, fun f hf => by cases hf⟩
  | tmp => exact ⟨h.flat s.store s.store.dynamic _ hs, fun f hf => by cases hf⟩

theorem runAssign_upholds (a : AssignTemplate) : (runAssign a scope : Run σ Unit).Upholds I Q := by
  refine .read (fun s hs => (reading_of_discipline h s hs).guard a.guard) fun allowed => ?_
  cases allowed with
  | false => exact .pure ()
  | true =>
    exact (Upholds.onStore (render_upholds h a.value)).bind fun value =>
      addParameter_upholds h a.target a.parameter ⟨value, a.cleanup⟩

theorem condition_upholds (g : Guard) :
    (do ofExcept (g.eval (← store) scope) : Run σ Bool).Upholds I Q :=
  .inspect fun s hs => (reading_of_discipline h s hs).condition g.condition g.source

theorem guard_upholds (g : Option Guard) :
    (do ofExcept (guardAllows (← store) scope g) : Run σ Bool).Upholds I Q :=
  .inspect fun s hs => (reading_of_discipline h s hs).guard g

include h in
theorem mergedChannel_failsWith (tracks : List Nat) (track channel : Nat) :
    FailsWith Q (mergedChannel tracks track channel) := by
  have hadd (a b : Nat) : FailsWith Q (addSizes a b) := by
    unfold addSizes
    split
    · exact .ok _
    · exact .error (h.other _ rfl)
  refine (FailsWith.foldlM hadd 0 _).bind fun offset _ => (hadd offset channel).bind fun next _ => ?_
  cases next with
  | zero => exact .error (h.other _ rfl)
  | succ n => exact .ok n

include h in
/-- A mapping that does not fit, or whose sums are too large, has nothing to do with
references. -/
theorem panParameter_failsWith (tracks : List Nat) (layout : ChannelLayout)
    (mapping : List OutputChannel) : FailsWith Q (panParameter tracks layout mapping) := by
  have hentry (position : Nat) (entry : OutputChannel) :
      FailsWith Q (positionText tracks position entry) := by
    cases entry with
    | silence => exact .ok _
    | source track channel =>
      rw [positionText]
      cases (if track = 0 then none else tracks[track - 1]? : Option Nat) with
      | none => exact .error (h.other (.config (.noSuchTrack track tracks.length)) rfl)
      | some available =>
        by_cases hchannel : channel ≤ available
        · simp only [if_pos hchannel]
          exact (mergedChannel_failsWith h tracks track channel).bind fun _ _ => .ok _
        · simp only [if_neg hchannel]
          exact .error (h.other _ rfl)
  have hentries (position : Nat) : FailsWith Q (positionTexts tracks position mapping) := by
    induction mapping generalizing position with
    | nil => exact .ok []
    | cons entry rest ih =>
      exact (hentry position entry).bind fun _ _ => (ih (position + 1)).bind fun _ _ => .ok _
  unfold panParameter
  split
  · exact .error (h.other _ rfl)
  · exact (hentries 0).bind fun _ _ => .ok _

theorem runAudioMap_upholds (m : AudioMapTemplate) :
    (runAudioMap m scope : Run σ Unit).Upholds I Q := by
  refine .read (fun s _ => .forM fun id _ => ?_) fun _ =>
    .read (fun s hs => .mapM fun id hid => h.channels s hs id hid) fun tracks =>
      (Upholds.onStore (render_upholds h m.layout)).bind fun name => ?_
  · unfold Store.checkHomogeneous
    split
    · exact .ok ()
    · split
      · exact .error (h.other _ rfl)
      · exact .ok ()
  · cases ChannelLayout.ofName? name with
    | none => exact .fail (h.other _ rfl)
    | some layout =>
      exact (Upholds.ofExcept (panParameter_failsWith h tracks layout _)).bind fun pan =>
        .modifyStore fun s hs => h.flat s _ s.tmp hs

end Steps

end Run

end MediaPipeline
