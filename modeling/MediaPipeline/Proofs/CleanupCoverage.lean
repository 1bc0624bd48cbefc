import MediaPipeline.Proofs.DryRunDisk
import MediaPipeline.Proofs.RunCourse
import MediaPipeline.Proofs.RunFrame

/-!
# What a clean-up covers

A clean-up looks at the parameters as they are at the end of a run and removes the files that
they name under a policy that applies. So a file that was named on the way is gone then, or
its removal has failed, or the parameter that named it was given another value or another
policy by a later step. The main result is `pipeline_cleanup_covers`;
`pipeline_cleanup_misses_replaced` is a run of the last kind.
-/

namespace MediaPipeline

/-! ## Removals -/

/-- What a path leads to is gone once it was removed, also if it could not be found, and its
removal puts nothing anywhere. -/
structure Host.Removes {σ : Type} (host : Host σ) (p : Path) : Prop where
  removed : ∀ s, (host.remove p s).1 = .ok () → host.isPresent p (host.remove p s).2 = false
  missing : ∀ s, (host.remove p s).1 = .error .notFound →
    host.isPresent p (host.remove p s).2 = false
  only : ∀ q s, host.isPresent q (host.remove p s).2 = true → host.isPresent q s = true

/-- A computer removes what the paths lead to that end in a name. -/
theorem Machine.Computer.removes {p : Path} (hp : Disk.EndsInName p.text) : host.Removes p where
  removed _ _ := Disk.gone_of_remove hp
  missing _ _ := Disk.gone_of_remove hp
  only _ c h := Disk.isPresent_of_kept (Disk.kept_of_remove c.world.disk c.cwd p.text) h

namespace Cleanup

variable {σ : Type} {host : Host σ}

/-- Whether a removal counts as failed. -/
def isFailed : Except OsError Unit → Bool
  | .ok () => false
  | .error e => e ≠ .notFound

/-- What comes of removing paths one after the other. -/
def outcomes (host : Host σ) : List Path → σ → List (Path × Except OsError Unit)
  | [], _ => []
  | p :: rest, s =>
    let r := host.remove p s
    (p, r.1) :: outcomes host rest r.2

theorem failed_count (report : CleanupReport) (r : Except OsError Unit) :
    (count report r).failed = report.failed + if isFailed r then 1 else 0 := by
  cases r with
  | ok u => rfl
  | error e => cases e <;> rfl

/-- The report counts the removals that failed. -/
theorem failed_removeAll (host : Host σ) (paths : List Path) (report : CleanupReport) (s : σ) :
    (removeAll host paths report s).1.failed =
      report.failed + (outcomes host paths s).countP (isFailed ·.2) := by
  induction paths generalizing report s with
  | nil => rfl
  | cons p rest ih =>
    rw [removeAll, outcomes, ih, failed_count, List.countP_cons, Nat.add_assoc]
    exact congrArg (report.failed + ·) (Nat.add_comm _ _)

theorem isPresent_of_removeAll {paths : List Path} (h : ∀ p ∈ paths, host.Removes p)
    (report : CleanupReport) {q : Path} {s : σ}
    (hq : host.isPresent q (removeAll host paths report s).2 = true) :
    host.isPresent q s = true := by
  induction paths generalizing report s with
  | nil => exact hq
  | cons p rest ih =>
    obtain ⟨hfirst, hrest⟩ := List.forall_mem_cons.mp h
    exact hfirst.only q s (ih hrest _ hq)

/-- Every path is gone in the end, or its removal has failed. -/
theorem gone_or_failed {paths : List Path} (h : ∀ p ∈ paths, host.Removes p) {p : Path}
    (hp : p ∈ paths) (report : CleanupReport) (s : σ) :
    host.isPresent p (removeAll host paths report s).2 = false ∨
      ∃ r, (p, r) ∈ outcomes host paths s ∧ isFailed r = true := by
  induction paths generalizing report s with
  | nil => cases hp
  | cons q rest ih =>
    obtain ⟨hfirst, hrest⟩ := List.forall_mem_cons.mp h
    rw [removeAll, outcomes]
    obtain rfl | hp := List.mem_cons.mp hp
    · -- What is gone after its own removal stays away.
      have hstays (hgone : host.isPresent p (host.remove p s).2 = false) :
          host.isPresent p (removeAll host rest (count report (host.remove p s).1)
            (host.remove p s).2).2 = false := by
        refine Bool.eq_false_iff.mpr fun hpresent => ?_
        rw [isPresent_of_removeAll hrest _ hpresent] at hgone
        cases hgone
      rcases hr : (host.remove p s).1 with e | u
      · by_cases he : e = .notFound
        · rw [← hr]
          exact .inl (hstays (hfirst.missing s (he ▸ hr)))
        · exact .inr ⟨_, List.mem_cons_self, by simp [isFailed, he]⟩
      · rw [← hr]
        exact .inl (hstays (hfirst.removed s hr))
    · obtain hgone | ⟨r, hr, hfailed⟩ :=
        ih hrest hp (count report (host.remove q s).1) (host.remove q s).2
      · exact .inl hgone
      · exact .inr ⟨r, List.mem_cons_of_mem _ hr, hfailed⟩

end Cleanup

/-! ## Parameters that assignments write -/

/-- The parameters that an assignment writes to. -/
def AssignTarget.params (target : AssignTarget) (s : Store) : ParamMap :=
  match target with
  | .dynamic => s.dynamic
  | .tmp => s.tmp

theorem Store.Consistent.params {s : Store} (h : s.Consistent) (target : AssignTarget) :
    (target.params s).Consistent := by
  cases target with
  | dynamic => exact h.dynamic
  | tmp => exact h.tmp

/-- The clean-up removes what a parameter names under a policy that applies. -/
theorem Cleanup.mem_paths {s : Store} (hs : s.Consistent) {target : AssignTarget} {name value : String}
    {policy : CleanupPolicy} (hparam : (target.params s).get? name = some ⟨value, policy⟩)
    {failed : Bool} (happlies : policy.applies failed = true) (hvalue : Text.trimmed value ≠ "")
    (w : Workspace) : w.resolve ⟨Text.trimmed value⟩ ∈ paths s w failed := by
  have hlisted := (hs.params target).get?_eq_some.mp hparam
  have hmem : (name, (⟨value, policy⟩ : Param)) ∈
      s.allParameters .dynamic ++ s.allParameters .tmp := by
    cases target with
    | dynamic => exact List.mem_append_left _ hlisted
    | tmp => exact List.mem_append_right _ hlisted
  exact List.mem_filterMap.mpr ⟨_, hmem, by simp [happlies, hvalue]⟩

namespace Run

variable {σ : Type} {setup : RunSetup σ} {ws us us' : List Work} {s t u : RunState σ}
  {vs vs' : List (Visit σ)}

/-! ## The rest of a course -/

/-- The state after something is done about a piece of work. -/
def Next.state : Next σ → RunState σ
  | .move _ s => s
  | .visit v => v.after

/-- A course comes to an end: nothing is left to do, or the next visit fails. The last state
is the one after that visit. -/
inductive Halts (setup : RunSetup σ) : List Work → RunState σ → RunState σ → Prop
  | done (s : RunState σ) : Halts setup [] s s
  | failed {w : Work} {ws : List Work} {s : RunState σ} {v : Visit σ} {f : Failure}
      (hw : w.next setup s = .visit v) (hv : v.outcome = .error f) : Halts setup (w :: ws) s v.after

theorem Completes.halts {r : Except Failure Unit} (h : Completes setup ws s vs r u) :
    ∃ vs' us t, Course setup ws s vs' us t ∧ Halts setup us t u := by
  cases h with
  | done h => exact ⟨_, _, _, h, .done _⟩
  | failed h hv =>
    obtain ⟨w, us, t, hc, hw⟩ := h
    obtain ⟨c, hc', -⟩ := hv
    exact ⟨_, _, _, hc, .failed hw hc'⟩

/-- What is done next is determined: a course to the end begins with the same move. -/
theorem Course.of_move {w : Work} {new : List Work} (hw : w.next setup s = .move new t)
    (g : Course setup (w :: ws) s vs us u) {last : RunState σ} (hend : Halts setup us u last) :
    Course setup (new ++ ws) t vs us u := by
  cases g with
  | here =>
    -- At the end only a visit is left.
    cases hend with
    | failed hv _ =>
      rw [hw] at hv
      cases hv
  | move hw' g =>
    rw [hw] at hw'
    cases hw'
    exact g
  | visit hw' _ _ =>
    rw [hw] at hw'
    cases hw'

/-- A course to the end begins with the same visit, and goes on if the visit succeeds. -/
theorem Course.of_visit {w : Work} {new : List Work} {v : Visit σ}
    (hw : w.next setup s = .visit v) (hv : v.outcome = .ok new)
    (g : Course setup (w :: ws) s vs us u) {last : RunState σ} (hend : Halts setup us u last) :
    ∃ more, Course setup (new ++ ws) v.after more us u := by
  cases g with
  | here =>
    -- The last visit has failed.
    cases hend with
    | failed hw' hv' =>
      rw [hw] at hw'
      cases hw'
      rw [hv] at hv'
      cases hv'
  | move hw' _ =>
    rw [hw] at hw'
    cases hw'
  | visit hw' hv' g =>
    rw [hw] at hw'
    cases hw'
    rw [hv] at hv'
    cases hv'
    exact ⟨_, g⟩

/-- A course to the end goes through every other course from the same work. -/
theorem Course.rest (h : Course setup ws s vs us t) (g : Course setup ws s vs' us' u)
    {last : RunState σ} (hend : Halts setup us' u last) :
    ∃ more, Course setup us t more us' u := by
  induction h generalizing vs' with
  | here => exact ⟨_, g⟩
  | move hw _ ih => exact ih (g.of_move hw hend)
  | visit hw hv _ ih =>
    obtain ⟨_, g⟩ := g.of_visit hw hv hend
    exact ih g

/-- A later step ends a property of the store. -/
def EndsLater (setup : RunSetup σ) (P : Store → Prop) (ws : List Work) (s : RunState σ) : Prop :=
  ∃ vs w us t, Course setup ws s vs (w :: us) t ∧ P t.store ∧ ¬ P (w.next setup t).state.store

theorem EndsLater.here {P : Store → Prop} {w : Work} (hs : P s.store)
    (h : ¬ P (w.next setup s).state.store) : EndsLater setup P (w :: ws) s :=
  ⟨[], w, ws, s, .here _ _, hs, h⟩

theorem EndsLater.after {P : Store → Prop} (hc : Course setup ws s vs us t)
    (h : EndsLater setup P us t) : EndsLater setup P ws s := by
  obtain ⟨vs', w, us', t', hc', hends⟩ := h
  exact ⟨vs ++ vs', w, us', t', hc.trans hc', hends⟩

/-- A property of the store holds at the end of a course, or some step ends it. -/
theorem Course.holds_or_ends {P : Store → Prop} (h : Course setup ws s vs us t) {last : RunState σ}
    (hend : Halts setup us t last) (hs : P s.store) :
    P last.store ∨ EndsLater setup P ws s := by
  have hstep (w : Work) (ws : List Work) {s : RunState σ} (hs : P s.store) :
      P (w.next setup s).state.store ∨ EndsLater setup P (w :: ws) s :=
    (Classical.em _).imp_right fun h => .here hs h
  induction h with
  | here =>
    cases hend with
    | done => exact .inl hs
    | @failed w ws _ _ _ hw _ =>
      have h := hstep w ws hs
      rwa [hw] at h
  | @move w ws _ _ _ _ _ _ hw hc ih =>
    obtain ht | hends := hstep w ws hs
    · rw [hw] at ht
      exact (ih hend ht).imp_right (.after (.move hw (.here _ _)))
    · exact .inr hends
  | @visit w ws _ _ _ _ _ _ hw hv hc ih =>
    obtain ht | hends := hstep w ws hs
    · rw [hw] at ht
      exact (ih hend ht).imp_right (.after (.visit hw hv (.here _ _)))
    · exact .inr hends

/-! ## Properties that nothing ends -/

/-- A property of stores that no write ends holds after each piece of work. A case for each
kind of work, and for each kind of step. -/
theorem Work.next_keeps {I : Store → Prop} (h : ∀ names, Outlasts I names) (setup : RunSetup σ)
    (w : Work) {s : RunState σ} (hs : I s.store) : I (w.next setup s).state.store := by
  have hresolve (c : CommandTemplate) (scope : Scope) :
      Keeps I (onStore (c.resolve setup.workspace scope) : Run σ (Option Command)) :=
    onStore_keeps (resolve_keeps (h _) setup.workspace)
  cases w with
  | steps scope steps =>
    cases steps with
    | done => exact hs
    | command c rest => exact runCommand_keeps setup (h _) (s.entered c.name scope) hs
    | eachSegment name body rest => exact hs
    | eachSequence name types body rest => exact hs
    | pipe p rest => exact Keeps.inspect (fun _ => .ofExcept _) (s.entered p.name scope) hs
    | assign a rest => exact runAssign_keeps (h _) (s.entered a.name scope) hs
    | branch name condition yes no rest =>
      exact Keeps.inspect (fun _ => .ofExcept _) (s.entered name scope) hs
    | loop head body rest => exact loopRange_keeps (h _) (s.entered head.name scope) hs
    | audioMap m rest => exact runAudioMap_keeps (h _) (s.entered m.name scope) hs
  | rounds var scope body n i =>
    cases n with
    | zero => exact hs
    | succ n => exact (h [var]).setDynamic List.mem_cons_self _ _ hs
  | tail p scope resolved left =>
    cases left with
    | nil => exact hs
    | cons c left => exact hresolve c scope (s.entered c.name scope) hs
  | cycles p =>
    obtain ⟨pipe, scope, resolved, made, cycles⟩ := p
    cases cycles with
    | nil => exact Keeps.of_upholds (runPipe_upholds (fun _ _ => trivial) setup _) s hs
    | cons c left => exact hs
  | groups p stages scopes => cases scopes <;> exact hs
  | group p stages scopes here resolved left =>
    cases left with
    | nil => exact hs
    | cons c left => exact hresolve c here (s.entered c.name here) hs

theorem Course.keeps {I : Store → Prop} (hI : ∀ names, Outlasts I names)
    (h : Course setup ws s vs us t) (hs : I s.store) : I t.store := by
  induction h with
  | here => exact hs
  | @move w _ _ _ _ _ _ _ hw _ ih =>
    have ht := w.next_keeps hI setup hs
    rw [hw] at ht
    exact ih ht
  | @visit w _ _ _ _ _ _ _ hw _ _ ih =>
    have ht := w.next_keeps hI setup hs
    rw [hw] at ht
    exact ih ht

/-! ## Assignments -/

/-- An assignment that its guard lets through puts the text of its template under its policy. -/
theorem runAssign_assigns {scope : Scope} {a : AssignTemplate} {value : String}
    (hs : s.store.Consistent) (hguard : guardAllows s.store scope a.guard = .ok true)
    (hvalue : ((a.value.render scope).result s.store).1 = .ok value) :
    ((runAssign a scope).result s).1 = .ok () ∧
      (a.target.params ((runAssign a scope).result s).2.store).get? a.parameter =
        some ⟨value, a.cleanup⟩ := by
  have hkeeps : ((a.value.render scope).result s.store).2.Consistent :=
    (render_keeps (outlasts_consistent a.value.tree.loopVariables) s.store hs).1
  have hrender : (onStore (a.value.render scope)).result s =
      (.ok value, { s with store := ((a.value.render scope).result s.store).2 }) := by
    rw [result_onStore]
    rw [Template.StoreM.result] at hvalue ⊢
    rw [hvalue]
    rfl
  unfold runAssign
  rw [result_bind, result_store]
  dsimp only
  rw [result_bind, result_ofExcept, hguard]
  simp only [Except.mapError, if_true]
  rw [result_bind, hrender]
  dsimp only
  rw [result_bind, result_store]
  cases a.target with
  | dynamic => exact ⟨rfl, hkeeps.dynamic.get?_insert_self _ _⟩
  | tmp => exact ⟨rfl, hkeeps.tmp.get?_insert_self _ _⟩

/-! ## The main result -/

/-- In a run of an accepted pipeline that is cleaned up after, consider any assignment that is
made, in any scope and as often as it is made, of a text that is not blank and under a policy
that applies to the outcome of the run. The file that it names is gone at the end, or its
removal has failed and is counted as failed, or a later step gave the parameter another value
or policy, and at the end it has another one. -/
theorem pipeline_cleanup_covers (setup : RunSetup σ) (p : Pipeline) {steps : Steps}
    (hsteps : p.compile = .ok steps) (calls : List Store.Call) (s : RunState σ)
    (hs : s.store = Store.empty.run calls) {vs : List (Visit σ)} {scope : Scope}
    {a : AssignTemplate} {rest : Steps} {ws : List Work} {t : RunState σ}
    (hreach : Course setup [.steps .global steps] { s with next := firstSeq } vs
      (.steps scope (.assign a rest) :: ws) t)
    (hguard : guardAllows t.store scope a.guard = .ok true) {value : String}
    (hvalue : ((a.value.render scope).result t.store).1 = .ok value)
    (hblank : Text.trimmed value ≠ "")
    (happlies : a.cleanup.applies (!((pipeline setup true p).result s).1.isOk) = true)
    (hhost : ∀ q ∈ removals setup true p s, setup.host.Removes q) :
    let r := (pipeline setup true p).result s
    let run := (execute setup .global steps).result { s with next := firstSeq }
    let outcomes := Cleanup.outcomes setup.host (removals setup true p s) run.2.machine
    let path := setup.workspace.resolve ⟨Text.trimmed value⟩
    let unchanged : Store → Prop := fun s =>
      (a.target.params s).get? a.parameter = some ⟨value, a.cleanup⟩
    (∃ report, r.2.events = run.2.events ++ [.cleaned report] ∧
      report.failed = outcomes.countP (Cleanup.isFailed ·.2)) ∧
    (setup.host.isPresent path r.2.machine = false ∨
      (∃ outcome, (path, outcome) ∈ outcomes ∧ Cleanup.isFailed outcome = true) ∨
      (¬ unchanged run.2.store ∧
        EndsLater setup unchanged (.steps scope rest :: ws)
          ((runAssign a scope).result (t.entered a.name scope)).2)) := by
  intro r run outcomes path unchanged
  have hr : (pipeline setup true p).result s =
      (run.1, ((cleanUp setup !run.1.isOk).result run.2).2) := by
    rw [result_pipeline, hsteps]
    rfl
  have hpaths : removals setup true p s =
      Cleanup.paths run.2.store setup.workspace !run.1.isOk := by
    rw [removals, hsteps]
    rfl
  rw [hr] at happlies
  have hstart : s.store.Consistent := hs ▸ Store.consistent_run calls
  refine ⟨⟨(Cleanup.perform setup.host run.2.store setup.workspace (!run.1.isOk) run.2.machine).1,
    congrArg (·.2.events) hr, ?_⟩, ?_⟩
  · rw [Cleanup.perform, Cleanup.failed_removeAll, ← hpaths]
    exact Nat.zero_add _
  -- The assignment is made, and after it the run goes on to its end.
  have ht : t.store.Consistent := hreach.keeps outlasts_consistent hstart
  obtain ⟨hok, hholds⟩ := runAssign_assigns (s := t.entered a.name scope) ht hguard hvalue
  have hvisit : (Visit.of a.name scope (runAssign a scope) (fun _ => [.steps scope rest])
      (t.entered a.name scope)).outcome = .ok [.steps scope rest] := by
    simp [Visit.of, hok, Except.map]
  have hassigned := hreach.trans (.visit rfl hvisit (.here _ _))
  obtain ⟨_, hcompletes⟩ := execute_completes setup steps .global { s with next := firstSeq }
  obtain ⟨_, _, _, hcourse, hhalts⟩ := hcompletes.halts
  obtain ⟨_, hmore⟩ := hassigned.rest hcourse hhalts
  by_cases hlast : unchanged run.2.store
  · -- The parameter still is as it was assigned when the clean-up looks at it.
    have hconsistent : run.2.store.Consistent :=
      execute_keeps setup (outlasts_consistent _) .global { s with next := firstSeq } hstart
    have hpath := Cleanup.mem_paths hconsistent hlast happlies hblank setup.workspace
    rw [← hpaths] at hpath
    have hcleaned : r.2.machine = (Cleanup.removeAll setup.host (removals setup true p s)
        ⟨0, 0, 0⟩ run.2.machine).2 := by
      rw [show r = _ from hr, hpaths]
      rfl
    rw [hcleaned]
    exact (Cleanup.gone_or_failed hhost hpath _ _).imp_right .inl
  · have hends := (hmore.holds_or_ends (P := unchanged) hhalts hholds).resolve_left hlast
    exact .inr (.inr ⟨hlast, hends⟩)

/-! ## A parameter that is assigned twice -/

open Machine

/-- An assignment of a file that goes at the end. -/
def takeDecl (value : String) : AssignDecl := ⟨"take", value, .dynamic, .deleteOnExit, none⟩

/-- The assignment of a file as it is compiled. -/
def takeTemplate (value : String) : AssignTemplate :=
  ⟨⟨"take", "retake"⟩, "take", ⟨value, .text value.toList .done⟩, .dynamic, .deleteOnExit, none⟩

/-- Two files are assigned to one parameter, one after the other. -/
def retake : Pipeline :=
  ⟨"retake", .assign (takeDecl "first.tmp") (.assign (takeDecl "second.tmp") .done)⟩

/-- A computer that holds both files. -/
def retakeState : RunState Computer where
  store := .empty
  next := firstSeq
  machine := ⟨⟨⟨[(["work"], .directory), (["work", "first.tmp"], .file 0 .empty false),
    (["work", "second.tmp"], .file 1 .empty false)], 2⟩, #[]⟩, [], [], 1000, 0⟩
  events := []

/-- A run in the directory of the files. -/
def retakeSetup : RunSetup Computer := ⟨Computer.host, .inDirectory ⟨"/work"⟩ none, false⟩

/-- The state when the second file is assigned. -/
def retakeMiddle : RunState Computer :=
  ((runAssign (takeTemplate "first.tmp") .global).result
    (retakeState.entered ⟨"take", "retake"⟩ .global)).2

/-- The file that is assigned last is gone. -/
theorem pipeline_cleanup_covers_last :
    let r := (pipeline retakeSetup true retake).result retakeState
    let run := (execute retakeSetup .global (.assign (takeTemplate "first.tmp")
      (.assign (takeTemplate "second.tmp") .done))).result retakeState
    let outcomes := Cleanup.outcomes Computer.host (removals retakeSetup true retake retakeState)
      run.2.machine
    let path : Path := ⟨"/work/second.tmp"⟩
    let unchanged : Store → Prop := fun s =>
      s.dynamic.get? "take" = some ⟨"second.tmp", .deleteOnExit⟩
    (∃ report, r.2.events = run.2.events ++ [.cleaned report] ∧
      report.failed = outcomes.countP (Cleanup.isFailed ·.2)) ∧
    (Computer.host.isPresent path r.2.machine = false ∨
      (∃ outcome, (path, outcome) ∈ outcomes ∧ Cleanup.isFailed outcome = true) ∨
      (¬ unchanged run.2.store ∧
        EndsLater retakeSetup unchanged [.steps .global .done]
          ((runAssign (takeTemplate "second.tmp") .global).result
            (retakeMiddle.entered ⟨"take", "retake"⟩ .global)).2)) := by
  have hpaths : removals retakeSetup true retake retakeState = [⟨"/work/second.tmp"⟩] := by
    decide +kernel
  have hreach : Course retakeSetup
      [.steps .global (.assign (takeTemplate "first.tmp") (.assign (takeTemplate "second.tmp") .done))]
      retakeState [_] [.steps .global (.assign (takeTemplate "second.tmp") .done)] retakeMiddle :=
    .visit rfl rfl (.here _ _)
  have hvalue : (((takeTemplate "second.tmp").value.render .global).result retakeMiddle.store).1 =
      .ok "second.tmp" := by
    decide +kernel
  have hhost : ∀ q ∈ removals retakeSetup true retake retakeState, retakeSetup.host.Removes q := by
    rw [hpaths]
    exact List.forall_mem_singleton.mpr
      (Computer.removes ⟨"second.tmp", by decide +kernel, by decide, by decide, by decide⟩)
  have hcovers := pipeline_cleanup_covers retakeSetup retake (by decide +kernel) [] retakeState rfl
    hreach rfl hvalue (by decide +kernel) rfl hhost
  exact hcovers

/-- The file that was assigned first stays where it is, though its assignment was made under a
policy that always applies and no removal has failed. -/
theorem pipeline_cleanup_misses_replaced :
    let r := (pipeline retakeSetup true retake).result retakeState
    let first := takeTemplate "first.tmp"
    ∃ rest, retake.compile = .ok (.assign first rest) ∧
    Course retakeSetup [.steps .global (.assign first rest)] retakeState []
      [.steps .global (.assign first rest)] retakeState ∧
    guardAllows retakeState.store .global first.guard = .ok true ∧
    ((first.value.render .global).result retakeState.store).1 = .ok "first.tmp" ∧
    first.cleanup.applies (!r.1.isOk) = true ∧
    Computer.host.isPresent (retakeSetup.workspace.resolve ⟨"first.tmp"⟩) r.2.machine = true ∧
    r.2.events.getLast? = some (.cleaned ⟨1, 0, 0⟩) :=
  ⟨.assign (takeTemplate "second.tmp") .done, by decide +kernel, .here _ _, rfl, by decide +kernel,
    by decide +kernel, by decide +kernel, by decide +kernel⟩

end Run

end MediaPipeline
