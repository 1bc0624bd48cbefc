import MediaPipeline.Proofs.PipeLifecycle
import MediaPipeline.Proofs.RunListing

/-!
# A dry run predicts the run

A dry run resolves every command and reports it instead of starting it. Against a run
in which all goes well, it comes to the same result and the same store, and it reports
the commands that the other starts, in the same order, except inside a pipe: there the
groups are reported before the tail, but the tail is started first.

Both runs are compared with `Pipeline.parts`, what a run of the pipeline comes to.
`Run.Realizes` relates a part of a listing to the same part of a run, and is closed under
all that runs are made of; what is read off the record of the run is a parameter, so that
one argument serves both runs. `pipeline_predicted` is the main result.
-/

namespace MediaPipeline

/-! ## What the two runs have in common -/

/-- A point in a run that can be compared: a step that is entered, or a command that is
reported or started. -/
inductive Mark where
  | step (operation : OperationName) (scope : Scope)
  | command (operation : OperationName) (strategy : Strategy) (program : String)
deriving DecidableEq

/-- The mark of a command that is reported. -/
def Command.mark (strategy : Strategy) (c : Command) : Mark :=
  .command c.name strategy c.displayProgram

/-- The mark of a process that is started. -/
def LiveProcess.mark (p : LiveProcess) : Mark := .command p.operation p.strategy p.program

@[simp] theorem mark_process (c : Command) (seq : Nat) (strategy : Strategy)
    (input : ProcessInput) (redirect : Redirect) :
    (c.process seq strategy input redirect).mark = c.mark strategy := by
  rw [LiveProcess.mark, LiveProcess.operation, LiveProcess.program, Command.process, Command.mark]

/-- The steps and the reported commands of a record, in order. -/
def announced (es : List Event) : List Mark :=
  es.filterMap fun
    | .entered operation scope => some (.step operation scope)
    | .skipped c strategy => some (c.mark strategy)
    | _ => none

/-- The steps and the started processes of a record, in order. -/
def begun (es : List Event) : List Mark :=
  es.filterMap fun
    | .entered operation scope => some (.step operation scope)
    | .started p => some p.mark
    | _ => none

@[simp] theorem announced_append (es fs : List Event) :
    announced (es ++ fs) = announced es ++ announced fs := List.filterMap_append ..

@[simp] theorem begun_append (es fs : List Event) : begun (es ++ fs) = begun es ++ begun fs :=
  List.filterMap_append ..

/-- What a dry run reports of a piece. -/
def Part.announced : Part → List Mark
  | .step operation scope => [.step operation scope]
  | .once c => [c.mark .once]
  | .pipe plan => (plan.groups.flatten ++ plan.tail).map (Command.mark .pipe)

/-- What a run starts for a piece. -/
def Part.begun : Part → List Mark
  | .step operation scope => [.step operation scope]
  | .once c => [c.mark .once]
  | .pipe plan => (plan.tail ++ plan.groups.flatten).map (Command.mark .pipe)

/-- Whether an event is no failure: a process could be started, or its end decides
nothing or was successful. -/
def Event.goesWell : Event → Bool
  | .refused .. => false
  | .finished p status => decide (p.input ≠ .empty) || status.isSuccess
  | _ => true

/-- All goes well: every process can be started, and those whose ends decide something
are successful. -/
def Smooth (es : List Event) : Prop := ∀ e ∈ es, e.goesWell = true

instance (es : List Event) : Decidable (Smooth es) :=
  inferInstanceAs (Decidable (∀ e ∈ es, e.goesWell = true))

theorem Smooth.not_refused {es : List Event} (h : Smooth es) {p : LiveProcess} {e : OsError} :
    .refused p e ∉ es := fun hm => Bool.noConfusion (h _ hm)

theorem Smooth.isSuccess {es : List Event} (h : Smooth es) {p : LiveProcess}
    {status : Ending} (hm : .finished p status ∈ es) (hp : p.input = .empty) :
    status.isSuccess = true := by
  simpa [Event.goesWell, hp] using h _ hm

theorem smooth_append {es fs : List Event} : Smooth (es ++ fs) ↔ Smooth es ∧ Smooth fs :=
  List.forall_mem_append

/-! ## Runs and what they come to -/

/-- A way to read a record: what is seen of it, what is to be seen of a piece, and which
records are read at all. -/
structure Reading where
  seen : List Event → List Mark
  shown : Part → List Mark
  Good : List Event → Prop
  seen_append : ∀ es fs, seen (es ++ fs) = seen es ++ seen fs
  good_append : ∀ es fs, Good (es ++ fs) → Good es ∧ Good fs
  seen_entered : ∀ operation scope,
    seen [.entered operation scope] = shown (.step operation scope)
  seen_cleaned : ∀ report, seen [.cleaned report] = []

theorem Reading.seen_nil (r : Reading) : r.seen [] = [] := by
  have h : r.seen [] = r.seen [] ++ r.seen [] := r.seen_append [] []
  exact List.self_eq_append_right.mp h

/-- What a dry run reports, whatever its record is. -/
def Reading.dry : Reading where
  seen := announced
  shown := Part.announced
  Good _ := True
  seen_append := announced_append
  good_append _ _ _ := ⟨trivial, trivial⟩
  seen_entered _ _ := rfl
  seen_cleaned _ := rfl

/-- What a run starts in which all goes well. -/
def Reading.smooth : Reading where
  seen := begun
  shown := Part.begun
  Good := Smooth
  seen_append := begun_append
  good_append _ _ := smooth_append.mp
  seen_entered _ _ := rfl
  seen_cleaned _ := rfl

/-- The listing `d` and the run `a` come to the same, and in the record `es` of the run that
is seen which the listing has noted as `parts`. -/
structure Reading.Matches {τ α : Type} (r : Reading) (parts : List Part)
    (d : Except Failure α × RunState (List Part)) (es : List Event)
    (a : Except Failure α × RunState τ) : Prop where
  outcome : d.1 = a.1
  store : d.2.store = a.2.store
  seen : r.seen es = parts.flatMap r.shown

/-- A part of a run realizes the same part of a listing: from states with the same store they
match, if the record is one that is read. -/
structure Run.Realizes {τ α : Type} (r : Reading) (d : Run (List Part) α) (a : Run τ α) :
    Prop where
  /-- The record of the run only grows. -/
  grows : ∀ t, ∃ es, (a.result t).2.events = t.events ++ es
  same : ∀ s t es, s.store = t.store → (a.result t).2.events = t.events ++ es → r.Good es →
    ∃ parts, (d.result s).2.parts = s.parts ++ parts ∧
      r.Matches parts (d.result s) es (a.result t)

namespace Run.Realizes

variable {τ α β : Type} {r : Reading} {d : Run (List Part) α} {a : Run τ α}

theorem bind {f : α → Run (List Part) β} {g : α → Run τ β} (h : Realizes r d a)
    (hf : ∀ x, Realizes r (f x) (g x)) : Realizes r (d >>= f) (a >>= g) := by
  constructor
  · intro t
    obtain ⟨es, hes⟩ := h.grows t
    rw [result_bind]
    rcases hr : a.result t with ⟨e | x, u⟩
    · exact ⟨es, by rw [← hes, hr]⟩
    · obtain ⟨fs, hfs⟩ := (hf x).grows u
      rw [hr] at hes
      exact ⟨es ++ fs, by rw [hfs, hes, List.append_assoc]⟩
  · intro s t all hst hall hgood
    obtain ⟨es, hes⟩ := h.grows t
    rw [result_bind] at hall ⊢
    rw [result_bind]
    rcases hr : a.result t with ⟨e | x, u⟩
    -- a first part that fails ends both
    · rw [hr] at hall
      obtain ⟨parts, hparts, hm⟩ := h.same s t all hst (by rw [hr]; exact hall) hgood
      rw [hr] at hm
      rw [show d.result s = (.error e, (d.result s).2) from Prod.ext hm.outcome rfl]
      exact ⟨parts, hparts, rfl, hm.store, hm.seen⟩
    · obtain ⟨fs, hfs⟩ := (hf x).grows u
      rw [hr] at hall hes
      -- the whole record is that of the first part and then that of the second
      obtain rfl : all = es ++ fs := by
        refine List.append_cancel_left (hall.symm.trans ?_)
        rw [hfs, hes, List.append_assoc]
      obtain ⟨hge, hgf⟩ := r.good_append es fs hgood
      obtain ⟨parts, hparts, hm⟩ := h.same s t es hst (by rw [hr]; exact hes) hge
      rw [hr] at hm
      obtain ⟨more, hmore, hg⟩ := (hf x).same (d.result s).2 u fs hm.store hfs hgf
      rw [show d.result s = (.ok x, (d.result s).2) from Prod.ext hm.outcome rfl]
      refine ⟨parts ++ more, by rw [hmore, hparts, List.append_assoc], hg.outcome, hg.store, ?_⟩
      rw [r.seen_append, hm.seen, hg.seen, List.flatMap_append]

/-- A part of which both do the same to the store, and leave nothing to be seen. -/
theorem quiet (f : Store → Except Failure α × Store)
    (hd : ∀ s, (d.result s).1 = (f s.store).1 ∧ (d.result s).2.store = (f s.store).2 ∧
      (d.result s).2.parts = s.parts)
    (ha : ∀ t, (a.result t).1 = (f t.store).1 ∧ (a.result t).2.store = (f t.store).2 ∧
      (a.result t).2.events = t.events) :
    Realizes r d a := by
  constructor
  · intro t
    exact ⟨[], by rw [(ha t).2.2, List.append_nil]⟩
  · intro s t es hst hes _
    obtain ⟨hr, hstore, hevents⟩ := ha t
    obtain ⟨hr', hstore', hparts⟩ := hd s
    rw [hevents] at hes
    obtain rfl : es = [] := List.self_eq_append_right.mp hes
    refine ⟨[], by rw [hparts, List.append_nil], ?_, ?_, r.seen_nil⟩
    · rw [hr', hr, hst]
    · rw [hstore', hstore, hst]

theorem pure (x : α) : Realizes r (pure x) (pure x : Run τ α) :=
  quiet (fun s => (.ok x, s)) (fun _ => ⟨rfl, rfl, rfl⟩) fun _ => ⟨rfl, rfl, rfl⟩

theorem fail (cause : Cause) : Realizes r (fail cause) (fail cause : Run τ α) :=
  quiet (fun s => (.error (.plain cause), s)) (fun _ => ⟨rfl, rfl, rfl⟩)
    fun _ => ⟨rfl, rfl, rfl⟩

theorem resume (outcome : Except Failure α) :
    Realizes r (resume outcome) (resume outcome : Run τ α) :=
  quiet (fun s => (outcome, s)) (fun s => by simp) fun s => by simp

theorem store : Realizes r store (store : Run τ Store) :=
  quiet (fun s => (.ok s, s)) (fun _ => ⟨rfl, rfl, rfl⟩) fun _ => ⟨rfl, rfl, rfl⟩

theorem modifyStore (f : Store → Store) :
    Realizes r (modifyStore f) (modifyStore f : Run τ Unit) :=
  quiet (fun s => (.ok (), f s)) (fun _ => ⟨rfl, rfl, rfl⟩) fun _ => ⟨rfl, rfl, rfl⟩

theorem onStore (act : Template.StoreM α) :
    Realizes r (onStore act) (onStore act : Run τ α) :=
  quiet (fun s => ((act.run.run s).1.mapError .plain, (act.run.run s).2))
    (fun s => by simp [RunState.parts]) fun s => by simp

theorem entered (operation : OperationName) (scope : Scope) :
    Realizes r (record (.entered operation scope))
      (record (.entered operation scope) : Run τ Unit) := by
  constructor
  · exact fun t => ⟨[_], rfl⟩
  · intro s t es hst hes _
    obtain rfl : [.entered operation scope] = es := List.append_cancel_left hes
    refine ⟨[.step operation scope], ?_, rfl, hst, ?_⟩
    · simp [RunState.parts, Event.part?]
    · rw [r.seen_entered, List.flatMap_singleton]

theorem placed (operation : OperationName) (scope : Scope) (h : Realizes r d a) :
    Realizes r (placed operation scope d) (placed operation scope a) := by
  constructor
  · intro t
    rw [result_placed]
    exact h.grows t
  · intro s t es hst hes hgood
    rw [result_placed] at hes
    obtain ⟨parts, hparts, hm⟩ := h.same s t es hst hes hgood
    rw [result_placed, result_placed]
    exact ⟨parts, hparts, by rw [hm.outcome], hm.store, hm.seen⟩

/-- The relation is kept by everything that steps are made of. -/
theorem congruence : Congruence fun α (d : Run (List Part) α) (a : Run τ α) => Realizes r d a where
  pure := .pure
  fail := .fail
  store := .store
  onStore := .onStore
  modifyStore := .modifyStore
  entered := .entered
  placed := .placed
  bind := .bind

/-- A piece that is noted, against a part that shows it. -/
theorem note {a : Run τ Unit} (part : Part)
    (h : ∀ t, ∃ es, (a.result t).2.events = t.events ++ es ∧ (r.Good es →
      (a.result t).1 = .ok () ∧ (a.result t).2.store = t.store ∧ r.seen es = r.shown part)) :
    Realizes r (note part) a := by
  constructor
  · intro t
    obtain ⟨es, hes, _⟩ := h t
    exact ⟨es, hes⟩
  · intro s t es hst hes hgood
    obtain ⟨fs, hfs, hshown⟩ := h t
    obtain rfl : fs = es := List.append_cancel_left (hfs.symm.trans hes)
    obtain ⟨hok, hstore, hseen⟩ := hshown hgood
    refine ⟨[part], ?_, hok.symm, hst.trans hstore.symm, ?_⟩
    · exact List.append_nil _
    · rw [hseen, List.flatMap_singleton]

/-- What is done before and afterwards does not matter if the store is kept and nothing of it
is seen. -/
theorem extend {b : Run τ α} (h : Realizes r d a) (hb : ∀ t, ∃ (u : RunState τ) (more : List Event),
    u.store = t.store ∧ u.events = t.events ∧ r.seen more = [] ∧
    (b.result t).1 = (a.result u).1 ∧ (b.result t).2.store = (a.result u).2.store ∧
    (b.result t).2.events = (a.result u).2.events ++ more) : Realizes r d b := by
  constructor
  · intro t
    obtain ⟨u, more, _, hevents, _, _, _, hgrown⟩ := hb t
    obtain ⟨es, hes⟩ := h.grows u
    exact ⟨es ++ more, by rw [hgrown, hes, hevents, List.append_assoc]⟩
  · intro s t all hst hall hgood
    obtain ⟨u, more, hstore, hevents, hmore, houtcome, hkept, hgrown⟩ := hb t
    obtain ⟨es, hes⟩ := h.grows u
    obtain rfl : all = es ++ more := by
      refine List.append_cancel_left (hall.symm.trans ?_)
      rw [hgrown, hes, hevents, List.append_assoc]
    obtain ⟨hge, _⟩ := r.good_append es more hgood
    obtain ⟨parts, hparts, hm⟩ := h.same s u es (hst.trans hstore.symm) hes hge
    refine ⟨parts, hparts, hm.outcome.trans houtcome.symm, hm.store.trans hkept.symm, ?_⟩
    rw [r.seen_append, hmore, List.append_nil, hm.seen]

variable {setup : RunSetup τ}

/-- A run of steps realizes their listing if it realizes the notes of commands and pipes. -/
theorem steps (hcommand : ∀ c, Realizes r (Run.note (.once c)) (once setup c))
    (hpipe : ∀ plan, Realizes r (notePlan plan) (runPipe setup plan)) (steps : Steps)
    (scope : Scope) :
    Realizes r (interpret (noteCommand setup.workspace) (notePipe setup.workspace) scope steps)
      (execute setup scope steps) := by
  rw [execute_eq_interpret]
  refine congruence.interpret (fun c scope => ?_) (fun p scope => ?_) steps scope
  · refine (onStore _).bind fun command => ?_
    cases command with
    | none => exact .pure ()
    | some c => exact hcommand c
  · have hw : (⟨.idle _, setup.workspace, false⟩ : RunSetup (List Part)).workspace =
        setup.workspace := rfl
    refine (congruence.planPipe hw p scope).bind fun plan => ?_
    cases plan with
    | none => exact .pure ()
    | some plan => exact hpipe plan

/-- A run realizes the listing of its pipeline: numbers begin anew, and of the clean-up there
is nothing to be seen. -/
theorem pipeline (hcommand : ∀ c, Realizes r (Run.note (.once c)) (once setup c))
    (hpipe : ∀ plan, Realizes r (notePlan plan) (runPipe setup plan)) (cleanup : Bool)
    (p : Pipeline) :
    Realizes r (listing setup.workspace p) (Run.pipeline setup cleanup p) := by
  cases hp : p.compile with
  | error f =>
    refine quiet (fun s => (.error f, s)) (fun s => ?_) fun t => ?_
    · simp [result_listing, hp]
    · simp [result_pipeline, hp]
  | ok steps =>
    have h : Realizes r _ (Run.pipeline setup cleanup p) :=
      (Realizes.steps hcommand hpipe steps .global).extend fun t => by
        have hrun := result_pipeline setup cleanup p t
        simp only [hp] at hrun
        rw [hrun]
        refine ⟨{ t with next := firstSeq }, ?_⟩
        cases cleanup with
        | false => exact ⟨[], rfl, rfl, r.seen_nil, rfl, rfl, (List.append_nil _).symm⟩
        | true => exact ⟨_, rfl, rfl, r.seen_cleaned _, rfl, rfl, rfl⟩
    exact ⟨h.grows, fun s => by simpa only [result_listing, hp] using h.same s⟩

end Run.Realizes

/-! ## The parts that start processes -/

@[simp] theorem begun_outline (es : List Event) : begun (outline es) = begun es :=
  filterMap_filter_of (fun e he => by cases e <;> first | rfl | cases he) es

theorem Smooth.outline {es : List Event} (h : Smooth es) : Smooth (outline es) := fun e he =>
  h e (List.mem_filter.mp he).1

/-- A piece that is noted, against a part that starts it. -/
theorem Run.Realizes.of_yields {τ : Type} {a : Run τ Unit} (part : Part)
    (h : ∀ t, ∃ r k es, a.Yields t r k es ∧
      (Smooth es → r = .ok () ∧ begun es = part.begun)) :
    Realizes .smooth (Run.note part) a := by
  refine .note part fun t => ?_
  obtain ⟨r, k, es, hy, hgo⟩ := h t
  obtain ⟨new, hnew, rfl⟩ := hy.events
  refine ⟨new, hnew, fun hsm => ?_⟩
  obtain ⟨hr, hb⟩ := hgo hsm.outline
  rw [begun_outline] at hb
  exact ⟨hy.outcome.trans hr, hy.store, hb⟩

/-- A piece that is noted, against a part that only reports it. -/
theorem Run.Realizes.of_report {τ : Type} {a : Run τ Unit} (part : Part) (ds : List Event)
    (h : ∀ t, a.result t = (.ok (), { t with events := t.events ++ ds }))
    (hds : announced ds = part.announced) : Realizes .dry (Run.note part) a :=
  .note part fun t => ⟨ds, by rw [h], fun _ => ⟨by rw [h], by rw [h], hds⟩⟩

namespace Run

variable {τ : Type} {setup : RunSetup τ}

theorem once_reported (hd : setup.dryRun = true) (c : Command) :
    Realizes .dry (note (.once c)) (once setup c) := by
  refine .of_report (.once c) [.skipped c .once] (fun t => ?_) rfl
  rw [once, if_pos hd]
  rfl

theorem once_started (hd : setup.dryRun = false) (c : Command) :
    Realizes .smooth (note (.once c)) (once setup c) := by
  refine .of_yields (.once c) fun t => ?_
  rw [once, if_neg (by simp [hd])]
  generalize hp : c.process t.next .once .empty (Redirect.forStage c true) = p
  have hin : p.input = .empty := by rw [← hp, Command.process]
  have hmark : p.mark = c.mark .once := by rw [← hp, mark_process]
  obtain hs | ⟨e, hs⟩ := start_yields setup c .once .empty _ t hp
  · refine hs.then_exists fun u _ => ?_
    obtain ⟨status, hw⟩ := await_yields setup p u
    refine hw.then_exists fun v _ => ⟨_, _, _, requireSuccess_yields p status v, fun hsm => ?_⟩
    have hok : status.isSuccess = true := hsm.isSuccess (by simp) hin
    exact ⟨p.verdict_of_isSuccess hok, congrArg (fun m => [m]) hmark⟩
  · exact ⟨_, _, _, hs.bind_error, fun hsm =>
      absurd (List.mem_singleton_self _) hsm.not_refused⟩

end Run

/-! ## Pipes -/

theorem map_mark_chain (ends : Bool) (input : ProcessInput) (n : Nat) (cmds : List Command) :
    (chain ends input n cmds).map (·.mark) = cmds.map (Command.mark .pipe) := by
  induction cmds generalizing input n with
  | nil => rfl
  | cons c rest ih =>
    rw [chain, List.map_cons, mark_process, ih, List.map_cons]

theorem map_mark_groupChains (n : Nat) (groups : List (List Command)) :
    (groupChains n groups).flatten.map (·.mark) = groups.flatten.map (Command.mark .pipe) := by
  induction groups generalizing n with
  | nil => rfl
  | cons group rest ih =>
    rw [groupChains, List.flatten_cons, List.map_append, map_mark_chain, ih, List.flatten_cons,
      List.map_append]

theorem input_of_chain {ends : Bool} {input : ProcessInput} {n : Nat} {cmds : List Command}
    {p : LiveProcess} {rest : List LiveProcess} (h : chain ends input n cmds = p :: rest) :
    p.input = input := by
  cases cmds with
  | nil => cases h
  | cons c cmds =>
    obtain ⟨rfl, _⟩ := List.cons.inj h
    rfl

/-- The first process of a group reads nothing. -/
theorem input_of_groupChains {n : Nat} {groups : List (List Command)} {p : LiveProcess}
    {rest : List LiveProcess} (h : p :: rest ∈ groupChains n groups) : p.input = .empty := by
  induction groups generalizing n with
  | nil => cases h
  | cons group groups ih =>
    rcases List.mem_cons.mp h with h | h
    · exact input_of_chain h.symm
    · exact ih h

/-- Groups of which all goes well are all started whole, and are successful. -/
theorem GroupsStop.smooth {groups : List (List LiveProcess)}
    {done : List (List (LiveProcess × Ending))} {stop : List Event}
    {r : Except Failure Unit} (h : GroupsStop groups done stop r)
    (hin : ∀ p rest, p :: rest ∈ groups → p.input = .empty)
    (hsm : Smooth (done.flatMap served ++ stop)) :
    r = .ok () ∧ stop = [] ∧ members done = groups.flatten := by
  cases h with
  | completed hg _ => exact ⟨rfl, rfl, by rw [hg, members]⟩
  | @failed earlier p status rest later hg _ hf =>
    have hp : p.input = .empty := hin p (rest.map Prod.fst) (by simp [hg])
    have hm : .finished p status ∈ (earlier ++ [(p, status) :: rest]).flatMap served ++ [] := by
      simp [served]
    rw [hsm.isSuccess hm hp] at hf
    cases hf
  | @refused done before p after later e hg _ =>
    exact absurd (show Event.refused p e ∈ _ by simp [refusal]) hsm.not_refused

/-- A pipe of which all goes well starts all its processes, and is successful. -/
theorem PipeLifecycle.smooth {tail : List LiveProcess} {groups : List (List LiveProcess)}
    {es : List Event} {r : Except Failure Unit} (h : PipeLifecycle tail groups es r)
    (htail : groups = [] → ∀ p rest, tail = p :: rest → p.input = .empty)
    (hin : ∀ p rest, p :: rest ∈ groups → p.input = .empty) (hsm : Smooth es) :
    r = .ok () ∧ started es = tail ++ groups.flatten := by
  cases h with
  | @refused before p after e ht =>
    exact absurd (show Event.refused p e ∈ _ by simp [refusal]) hsm.not_refused
  | @alone p status rest hg ht =>
    have hp : p.input = .empty := htail hg p (rest.map Prod.fst) ht
    have hok : status.isSuccess = true := hsm.isSuccess (p := p) (by simp [served]) hp
    exact ⟨p.verdict_of_isSuccess hok, by simp [hg, ht]⟩
  | @fed done stop r ends hg ht hs =>
    have hmid : Smooth (done.flatMap served ++ stop) := by
      rw [List.append_assoc _ _ stop, smooth_append, smooth_append] at hsm
      exact hsm.1.2
    obtain ⟨hr, hstop, hm⟩ := hs.smooth hin hmid
    exact ⟨hr, by simp [hstop, hm]⟩

/-- Whether an event is that a step is entered. -/
def Event.isStep : Event → Bool
  | .entered .. => true
  | _ => false

/-- Without steps, a record begins what it starts. -/
theorem begun_eq_of_no_step {es : List Event} (h : ∀ e ∈ es, e.isStep = false) :
    begun es = (started es).map (·.mark) := by
  induction es with
  | nil => rfl
  | cons e es ih =>
    obtain ⟨he, hes⟩ := List.forall_mem_cons.mp h
    cases e with
    | entered => cases he
    | started p => exact congrArg (p.mark :: ·) (ih hes)
    | _ => exact ih hes

section NoStep

theorem no_step_map {α : Type} {f : α → Event} (h : ∀ a, (f a).isStep = false) (as : List α) :
    ∀ e ∈ as.map f, e.isStep = false := by
  intro e he
  obtain ⟨a, _, rfl⟩ := List.mem_map.mp he
  exact h a

theorem no_step_refusal (before : List LiveProcess) (p : LiveProcess) (e : OsError) :
    ∀ x ∈ refusal before p e, x.isStep = false := by
  rw [refusal, List.forall_mem_append, List.forall_mem_cons]
  exact ⟨no_step_map (fun _ => rfl) _, rfl, no_step_map (fun _ => rfl) _⟩

theorem no_step_closing (last : LiveProcess) (tail : Nat) (o left : Bool) :
    ∀ x ∈ closing last tail o left, x.isStep = false := by
  unfold closing
  split <;> simp [Event.isStep]

theorem GroupTrace.no_step {tail n : Nat} {o : Bool} {group : List Command} {es : List Event}
    {r : Except Failure Bool} (h : GroupTrace tail n o group es r) :
    ∀ e ∈ es, e.isStep = false := by
  cases h with
  | refused => exact no_step_refusal _ _ _
  | ended =>
    simp only [groupRecord, List.forall_mem_append, List.forall_mem_cons]
    exact ⟨⟨⟨⟨no_step_map (fun _ => rfl) _, no_step_map (fun _ => rfl) _⟩, rfl,
      no_step_map (fun _ => rfl) _⟩, no_step_closing _ _ _ _⟩, no_step_map (fun _ => rfl) _⟩

theorem GroupsTrace.no_step {tail n : Nat} {o : Bool} {groups : List (List Command)}
    {es : List Event} {r : Except Failure Unit} (h : GroupsTrace tail n o groups es r) :
    ∀ e ∈ es, e.isStep = false := by
  induction h with
  | done => exact fun _ h => absurd h List.not_mem_nil
  | failed hg => exact hg.no_step
  | next hg _ ih => exact List.forall_mem_append.mpr ⟨hg.no_step, ih⟩

/-- A pipe enters no steps. -/
theorem PipeTrace.no_step {plan : PipePlan} {n : Nat} {es : List Event}
    {r : Except Failure Unit} (h : PipeTrace plan n es r) : ∀ e ∈ es, e.isStep = false := by
  cases h with
  | refused => exact no_step_refusal _ _ _
  | alone =>
    simp only [List.forall_mem_append, List.forall_mem_cons]
    exact ⟨⟨⟨no_step_map (fun _ => rfl) _, no_step_map (fun _ => rfl) _⟩, rfl,
      no_step_map (fun _ => rfl) _⟩, no_step_map (fun _ => rfl) _⟩
  | fed _ _ _ hes =>
    simp only [List.forall_mem_append, List.forall_mem_cons]
    exact ⟨⟨⟨⟨no_step_map (fun _ => rfl) _, no_step_map (fun _ => rfl) _⟩, hes.no_step⟩, rfl,
      no_step_map (fun _ => rfl) _⟩, no_step_map (fun _ => rfl) _⟩

end NoStep

/-- A pipe of which all goes well starts what a dry run reports, the tail first. -/
theorem PipeTrace.smooth {plan : PipePlan} {n : Nat} {es : List Event}
    {r : Except Failure Unit} (h : PipeTrace plan n es r) (hsm : Smooth es) :
    r = .ok () ∧ begun es = (Part.pipe plan).begun := by
  have hl : Smooth (MediaPipeline.lifecycle es) := fun e he => hsm e (List.mem_filter.mp he).1
  have htail (hg : plan.groupChains n = []) (p : LiveProcess) (rest : List LiveProcess)
      (ht : plan.tailChain n = p :: rest) : p.input = .empty := by
    have hg : plan.groups = [] :=
      Classical.byContradiction fun hne => groupChains_ne_nil hne hg
    rw [input_of_chain ht, PipePlan.headInput, hg]
    rfl
  obtain ⟨hr, hs⟩ := h.lifecycle.smooth htail (fun _ _ => input_of_groupChains) hl
  rw [started_lifecycle] at hs
  refine ⟨hr, ?_⟩
  rw [begun_eq_of_no_step h.no_step, hs, List.map_append, PipePlan.tailChain, map_mark_chain,
    PipePlan.groupChains, map_mark_groupChains, Part.begun, List.map_append]

namespace Run

variable {τ : Type} {setup : RunSetup τ}

theorem announced_skipped (strategy : Strategy) (cmds : List Command) :
    announced (cmds.map (.skipped · strategy)) = cmds.map (Command.mark strategy) := by
  rw [announced, List.filterMap_map]
  exact congrFun (List.filterMap_eq_map (f := Command.mark strategy)) cmds

/-- A pipe that is left out is so in the listing as in the run. -/
theorem Realizes.plan {r : Reading} {plan : PipePlan}
    (h : plan.tail ≠ [] → (∀ group ∈ plan.groups, group ≠ []) →
      Realizes r (Run.note (.pipe plan)) (runPipe setup plan)) :
    Realizes r (notePlan plan) (runPipe setup plan) := by
  unfold notePlan
  by_cases ht : plan.tail.isEmpty = true
  · rw [if_pos ht, runPipe, if_pos ht]
    exact .pure ()
  by_cases hg : plan.groups.any (·.isEmpty) = true
  · rw [if_neg ht, if_pos hg, runPipe, if_neg ht, if_pos hg]
    exact .fail _
  rw [if_neg ht, if_neg hg]
  refine h (by simpa using ht) fun group hmem hnil => hg ?_
  exact List.any_eq_true.mpr ⟨group, hmem, by simp [hnil]⟩

/-- A dry run reports the groups of a pipe, then its tail. -/
theorem runPipe_reported (hd : setup.dryRun = true) (plan : PipePlan) :
    Realizes .dry (notePlan plan) (runPipe setup plan) := by
  refine .plan fun ht hg => ?_
  have hany : plan.groups.any (·.isEmpty) = false := by simpa using hg
  unfold runPipe
  rw [if_neg (by simpa using ht), if_neg (by simp [hany]), if_pos hd]
  exact .of_report (.pipe plan) _ (result_reportAll _) (announced_skipped .pipe _)

/-- A run in which all goes well starts the tail of a pipe, then its groups. -/
theorem runPipe_started (hd : setup.dryRun = false) (plan : PipePlan) :
    Realizes .smooth (notePlan plan) (runPipe setup plan) := by
  refine .plan fun ht hg => .of_yields (.pipe plan) fun t => ?_
  obtain ⟨r, k, es, hy, htr⟩ := runPipe_trace setup plan hd ht hg t
  exact ⟨r, k, es, hy, htr.smooth⟩

end Run

/-! ## The main result -/

/-- A dry run predicts a run of the same pipeline, from the same store and in the same
workspace, in which all goes well: the outcomes and the stores agree. Both enter the steps
and run the commands and pipes that `Pipeline.parts` lists, in the same order; for a pipe the
dry run reports the groups and then the tail, and the other starts the tail and then the
groups. That all goes well is read off a record that can be replayed, so these are the answers
of the machine. -/
theorem pipeline_predicted {σ τ : Type} (dry : RunSetup σ) (real : RunSetup τ)
    (hw : dry.workspace = real.workspace) (hd : dry.dryRun = true) (hr : real.dryRun = false)
    (cleanup : Bool) (p : Pipeline) (s : RunState σ) (t : RunState τ) (hst : s.store = t.store)
    {es : List Event}
    (hes : ((Run.pipeline real cleanup p).result t).2.events = t.events ++ es)
    (hsm : Smooth es) :
    ((Run.pipeline dry cleanup p).result s).1 = ((Run.pipeline real cleanup p).result t).1 ∧
    ((Run.pipeline dry cleanup p).result s).2.store =
      ((Run.pipeline real cleanup p).result t).2.store ∧
    Replay real es t.machine ((Run.pipeline real cleanup p).result t).2.machine ∧
    ∃ ds, ((Run.pipeline dry cleanup p).result s).2.events = s.events ++ ds ∧
      announced ds = (p.parts real.workspace t.store).flatMap Part.announced ∧
      begun es = (p.parts real.workspace t.store).flatMap Part.begun := by
  have hdry := Run.Realizes.pipeline (Run.once_reported hd) (Run.runPipe_reported hd) cleanup p
  have hreal := Run.Realizes.pipeline (Run.once_started hr) (Run.runPipe_started hr) cleanup p
  rw [hw] at hdry
  -- both are compared with the listing that begins with their store
  obtain ⟨ds, hds⟩ := hdry.grows s
  obtain ⟨parts, hparts, hm⟩ :=
    hdry.same ⟨t.store, firstSeq, [], []⟩ s ds hst.symm hds trivial
  obtain ⟨parts', hparts', hm'⟩ := hreal.same ⟨t.store, firstSeq, [], []⟩ t es rfl hes hsm
  have hlist : p.parts real.workspace t.store = parts := hparts
  have hlist' : p.parts real.workspace t.store = parts' := hparts'
  obtain ⟨all, hall, hreplay⟩ := Run.pipeline_replays real cleanup p t
  obtain rfl : all = es := List.append_cancel_left (hall.symm.trans hes)
  refine ⟨hm.outcome.symm.trans hm'.outcome, hm.store.symm.trans hm'.store, hreplay, ds, hds,
    ?_, ?_⟩
  · rw [hlist]
    exact hm.seen
  · rw [hlist']
    exact hm'.seen

/-- A command of its own, and a pipe of two stages. -/
def samplePipeline : Pipeline where
  name := "sample"
  operations :=
    let stage (name template : String) : CommandDecl := ⟨name, template, none, none⟩
    .command (stage "probe" "probe input") <|
      .pipe ⟨"mix", none, [⟨.once, [], [stage "read" "read input"]⟩], [stage "write" "write out"]⟩
        .done

/-- The setup of a run, or of a dry run, on a machine on which all goes well. -/
def smoothSetup (dryRun : Bool) : RunSetup Unit := { sampleSetup [] [] with dryRun := dryRun }

/-- Where a run begins. -/
def sampleState : RunState Unit := ⟨.empty, firstSeq, (), []⟩

theorem sampleState_append (es : List Event) : es = sampleState.events ++ es := rfl

theorem smooth_samplePipeline :
    Smooth ((Run.pipeline (smoothSetup false) false samplePipeline).result
      sampleState).2.events := by
  decide +kernel

/-- The sample can be predicted: a command of its own, and a pipe with one group. -/
theorem pipeline_predicted_sample :
    let d := (Run.pipeline (smoothSetup true) false samplePipeline).result sampleState
    let a := (Run.pipeline (smoothSetup false) false samplePipeline).result sampleState
    let parts := samplePipeline.parts (smoothSetup false).workspace .empty
    announced d.2.events ≠ begun a.2.events ∧ Smooth a.2.events ∧ d.1 = a.1 ∧
    d.2.store = a.2.store ∧
    Replay (smoothSetup false) a.2.events sampleState.machine a.2.machine ∧
    ∃ ds, d.2.events = sampleState.events ++ ds ∧
      announced ds = parts.flatMap Part.announced ∧
      begun a.2.events = parts.flatMap Part.begun :=
  ⟨by decide +kernel, smooth_samplePipeline,
    pipeline_predicted (smoothSetup true) (smoothSetup false) rfl rfl rfl false samplePipeline
      sampleState sampleState rfl (sampleState_append _) smooth_samplePipeline⟩

end MediaPipeline
