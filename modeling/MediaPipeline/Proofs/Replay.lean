import MediaPipeline.Proofs.PipeTrace
import MediaPipeline.Proofs.RunCongruence

/-!
# Records against the machine

A record is written by the run itself, so by itself it says nothing about the machine.
`Replay` reads it against the machine: from the state in which the run began, the machine
is asked for what the events say, one after the other, it gives the answers that were
recorded, and it ends in the state in which the run has left it. In between the machine is
not touched.

`pipeline_replays` is the main result: the record of every run can be replayed, whatever
the machine answers. A status in a record is therefore the answer to a wait for that
process, a connection was made, a killed process was killed.
-/

namespace MediaPipeline

variable {σ : Type}

/-! ## What a record says about the machine -/

/-- What an event says that belongs to no start: the machine was in the first state, was
asked for just this, has answered as recorded, and is in the second state. -/
def RunSetup.Answers (setup : RunSetup σ) : Event → σ → σ → Prop
  | .entered .., m, m' => m' = m
  | .skipped .., m, m' => m' = m
  | .finished p status, m, m' => setup.host.await p.seq m = (status, m')
  | .killed p, m, m' => m' = setup.host.kill p.seq m
  | .wired (.connect source target), m, m' => m' = setup.host.connect source target m
  | .wired (.join source target), m, m' => m' = setup.host.join source target m
  | .wired (.bridge source target), m, m' => m' = setup.host.bridge source target m
  | .wired (.discard source), m, m' => m' = setup.host.discard source m
  | .wired (.close target), m, m' => m' = setup.host.closeInput target m
  | .drained source target inputOpen, m, m' =>
    setup.host.drain source target m = (inputOpen, m')
  | .cleaned report, m, m' => ∃ store failed,
    Cleanup.perform setup.host store setup.workspace failed m = (report, m')
  | _, _, _ => False

/-- The directory of a file is made, if it has one. -/
def Host.MakesParent (host : Host σ) (path : Path) (m m' : σ) : Prop :=
  match path.parent? with
  | some parent => host.createDirs parent m = (.ok (), m')
  | none => m' = m

/-- How the file is opened that takes what `p` prints; its error messages go to `log`. -/
inductive Host.OpensOutput (host : Host σ) (p : LiveProcess) (log : FileHandle) :
    Except OsError ProcessOutput → σ → σ → Prop where
  | pipe {m : σ} (hp : p.redirect = .pipe) : OpensOutput host p log (.ok .pipe) m m
  | log {r : Except OsError FileHandle} {m m' : σ} (hp : p.redirect = .log)
      (hd : host.duplicate log m = (r, m')) : OpensOutput host p log (r.map .file) m m'
  | noParent {path parent : Path} {e : OsError} {m m' : σ} (hp : p.redirect = .file path)
      (hparent : path.parent? = some parent) (hm : host.createDirs parent m = (.error e, m')) :
      OpensOutput host p log (.error e) m m'
  | file {path : Path} {r : Except OsError FileHandle} {m m₁ m' : σ}
      (hp : p.redirect = .file path) (hm : host.MakesParent path m m₁)
      (hf : host.createFile path m₁ = (r, m')) : OpensOutput host p log (r.map .file) m m'

/-- How `p` is started: its log is opened, then the file that takes what it prints, then it
is launched. It is refused as soon as the machine refuses one of these. -/
inductive RunSetup.Starts (setup : RunSetup σ) (p : LiveProcess) :
    List Event → σ → σ → Prop where
  | noLog {e : OsError} {m m' : σ}
      (hl : setup.host.createFile (p.log setup.workspace) m = (.error e, m')) :
      Starts setup p [.refused p e] m m'
  | noOutput {log : FileHandle} {e : OsError} {m m₁ m' : σ}
      (hl : setup.host.createFile (p.log setup.workspace) m = (.ok log, m₁))
      (ho : setup.host.OpensOutput p log (.error e) m₁ m') :
      Starts setup p [.logged p.seq (p.log setup.workspace), .refused p e] m m'
  | notLaunched {log : FileHandle} {output : ProcessOutput} {e : OsError} {m m₁ m₂ m' : σ}
      (hl : setup.host.createFile (p.log setup.workspace) m = (.ok log, m₁))
      (ho : setup.host.OpensOutput p log (.ok output) m₁ m₂)
      (hs : setup.host.launch (p.request setup.workspace output log) m₂ = (.error e, m')) :
      Starts setup p [.logged p.seq (p.log setup.workspace),
        .launched p.command.program p.command.arguments, .refused p e] m m'
  | running {log : FileHandle} {output : ProcessOutput} {m m₁ m₂ m' : σ}
      (hl : setup.host.createFile (p.log setup.workspace) m = (.ok log, m₁))
      (ho : setup.host.OpensOutput p log (.ok output) m₁ m₂)
      (hs : setup.host.launch (p.request setup.workspace output log) m₂ = (.ok (), m')) :
      Starts setup p [.logged p.seq (p.log setup.workspace),
        .launched p.command.program p.command.arguments, .started p] m m'

/-- From the first state the machine is asked for what a record says, and nothing else, gives
the answers that stand in the record, and ends in the second state. -/
inductive Replay (setup : RunSetup σ) : List Event → σ → σ → Prop where
  | nil {m : σ} : Replay setup [] m m
  | event {e : Event} {es : List Event} {m m₁ m' : σ} (ha : setup.Answers e m m₁)
      (h : Replay setup es m₁ m') : Replay setup (e :: es) m m'
  | start {p : LiveProcess} {es fs : List Event} {m m₁ m' : σ} (hs : setup.Starts p es m m₁)
      (h : Replay setup fs m₁ m') : Replay setup (es ++ fs) m m'

namespace Replay

variable {setup : RunSetup σ} {e : Event} {es fs : List Event} {m m₁ m' : σ}

theorem one (ha : setup.Answers e m m') : Replay setup [e] m m' := .event ha .nil

theorem starts {p : LiveProcess} (hs : setup.Starts p es m m') : Replay setup es m m' := by
  simpa using Replay.start hs .nil

theorem append (h : Replay setup es m m₁) (g : Replay setup fs m₁ m') :
    Replay setup (es ++ fs) m m' := by
  induction h with
  | nil => exact g
  | event ha _ ih => exact .event ha (ih g)
  | start hs _ ih =>
    rw [List.append_assoc]
    exact .start hs (ih g)

end Replay

/-! ## What starting comes to -/

namespace Run

variable {α : Type}

/-- The outcome of asking the machine for something without which `p` cannot start. -/
def asked (p : LiveProcess) (r : Except OsError α × σ) (s : RunState σ) :
    Except Failure α × RunState σ :=
  match r with
  | (.ok a, m) => (.ok a, { s with machine := m })
  | (.error e, m) =>
    (.error (p.spawnFailure e), { s with machine := m, events := s.events ++ [.refused p e] })

theorem result_starting (p : LiveProcess) (f : σ → Except OsError α × σ) (s : RunState σ) :
    (starting p f).result s = asked p (f s.machine) s := by
  rw [starting, result_bind, result_machine]
  rcases f s.machine with ⟨_ | _, m⟩ <;> rfl

/-- Asking for a file and using its handle. -/
theorem result_starting_file (p : LiveProcess) (f : σ → Except OsError FileHandle × σ)
    (s : RunState σ) :
    (do let handle ← starting p f; pure (.file handle) : Run σ ProcessOutput).result s =
      asked p ((f s.machine).1.map .file, (f s.machine).2) s := by
  rw [result_bind, result_starting]
  rcases f s.machine with ⟨_ | _, m⟩ <;> rfl

theorem openOutput_opens (setup : RunSetup σ) (p : LiveProcess) (log : FileHandle)
    (s : RunState σ) :
    ∃ r m', setup.host.OpensOutput p log r s.machine m' ∧
      (openOutput setup p log).result s = asked p (r, m') s := by
  unfold openOutput
  rcases hp : p.redirect with _ | path | _
  · exact ⟨.ok .pipe, s.machine, .pipe hp, rfl⟩
  · dsimp only
    rw [result_bind]
    cases hparent : path.parent? with
    | none =>
      have hnone : (makeParent setup p path).result s = (.ok (), s) := by
        rw [makeParent, hparent]
        rfl
      rw [hnone]
      exact ⟨_, _, .file hp (by rw [Host.MakesParent, hparent]) rfl, result_starting_file ..⟩
    | some parent =>
      have hsome : (makeParent setup p path).result s =
          asked p (setup.host.createDirs parent s.machine) s := by
        rw [makeParent, hparent]
        exact result_starting ..
      rw [hsome]
      rcases hdirs : setup.host.createDirs parent s.machine with ⟨e | u, m⟩
      · exact ⟨_, _, .noParent hp hparent hdirs, rfl⟩
      · exact ⟨_, _, .file hp (by rw [Host.MakesParent, hparent]; exact hdirs) rfl,
          result_starting_file ..⟩
  · exact ⟨_, _, .log hp rfl, result_starting_file ..⟩

/-- Between two states the record has grown by something that can be replayed. -/
def Replayed (setup : RunSetup σ) (s t : RunState σ) : Prop :=
  ∃ es, t.events = s.events ++ es ∧ Replay setup es s.machine t.machine

/-- The ways to launch a process are the ways in which the machine can answer. -/
theorem launch_starts (setup : RunSetup σ) (p : LiveProcess) (s : RunState σ) :
    (∃ f t es, (launch setup p).result s = (.error f, t) ∧ t.events = s.events ++ es ∧
      setup.Starts p es s.machine t.machine) ∨
    ∃ t es, (launch setup p).result s = (.ok (), t) ∧ t.events = s.events ++ es ∧
      setup.Starts p (es ++ [.started p]) s.machine t.machine := by
  rw [launch, result_bind, result_starting]
  rcases hlog : setup.host.createFile (p.log setup.workspace) s.machine with ⟨e | log, m₁⟩
  · exact .inl ⟨_, _, _, rfl, rfl, .noLog hlog⟩
  simp only [asked, result_bind, result_record]
  obtain ⟨r, m₂, ho, hr⟩ := openOutput_opens setup p log
    ⟨s.store, s.next, m₁, s.events ++ [.logged p.seq (p.log setup.workspace)]⟩
  rw [hr]
  cases r with
  | error e => exact .inl ⟨_, _, _, rfl, List.append_assoc .., .noOutput hlog ho⟩
  | ok output =>
    simp only [asked, result_starting, List.append_assoc, List.cons_append, List.nil_append]
    rcases hlaunch : setup.host.launch (p.request setup.workspace output log) m₂ with ⟨e | u, m₃⟩
    · exact .inl ⟨_, _, _, rfl, rfl, .notLaunched hlog ho hlaunch⟩
    · exact .inr ⟨_, [_, _], rfl, rfl, .running hlog ho hlaunch⟩

theorem start_replayed (setup : RunSetup σ) (c : Command) (strategy : Strategy)
    (input : ProcessInput) (redirect : Redirect) : Within (Replayed setup) (start setup c strategy input redirect) := by
  intro s
  unfold start
  rw [result_bind, result_takeNumber]
  dsimp only
  generalize c.process s.next strategy input redirect = p
  obtain ⟨f, t, es, hl, he, hs⟩ | ⟨t, es, hl, he, hs⟩ :=
    launch_starts setup p { s with next := s.next + 1 }
  · rw [result_bind, hl]
    exact ⟨es, he, .starts hs⟩
  · rw [result_bind, hl]
    refine ⟨es ++ [.started p], ?_, .starts hs⟩
    rw [← List.append_assoc, ← he]
    rfl

theorem Replayed.of_event {setup : RunSetup σ} {e : Event} {s t : RunState σ}
    (he : t.events = s.events ++ [e])
    (ha : setup.Answers e s.machine t.machine) : Replayed setup s t := ⟨[e], he, .one ha⟩

/-- Whatever a run does, its record can be replayed. -/
theorem replayed_effect (setup : RunSetup σ) : ProcessEffect setup (Replayed setup) where
  write s store := ⟨[], by simp, .nil⟩
  enter s operation scope := .of_event rfl rfl
  trans := fun ⟨es, ht, hes⟩ ⟨fs, hu, hfs⟩ =>
    ⟨es ++ fs, by rw [hu, ht, List.append_assoc], hes.append hfs⟩
  start := start_replayed setup
  await p s := .of_event (e := .finished p (setup.host.await p.seq s.machine).1) rfl rfl
  kill p s := .of_event (e := .killed p) rfl rfl
  wire action s := .of_event (e := .wired action) rfl (by cases action <;> rfl)
  drain source target s :=
    .of_event (e := .drained source target (setup.host.drain source target s.machine).1) rfl rfl
  skip c strategy s := .of_event (e := .skipped c strategy) rfl rfl

/-- The record of a pipe can be replayed. -/
theorem runPipe_replays (setup : RunSetup σ) (plan : PipePlan) (s : RunState σ) :
    Replayed setup s ((runPipe setup plan).result s).2 := (replayed_effect setup).runPipe plan s

/-- What a pipe leaves in the record goes one of the ways of a pipe, and can be replayed. -/
theorem runPipe_recorded (setup : RunSetup σ) (plan : PipePlan) (hd : setup.dryRun = false)
    (ht : plan.tail ≠ []) (hg : ∀ group ∈ plan.groups, group ≠ []) (s : RunState σ) :
    ∃ es, ((runPipe setup plan).result s).2.events = s.events ++ es ∧
      Replay setup es s.machine ((runPipe setup plan).result s).2.machine ∧
      PipeTrace plan s.next (outline es) ((runPipe setup plan).result s).1 := by
  obtain ⟨es, hes, hreplay⟩ := runPipe_replays setup plan s
  obtain ⟨r, k, outlined, hy, htr⟩ := runPipe_trace setup plan hd ht hg s
  obtain ⟨new, hnew, rfl⟩ := hy.events
  obtain rfl : new = es := List.append_cancel_left (hnew.symm.trans hes)
  rw [← hy.outcome] at htr
  exact ⟨new, hnew, hreplay, htr⟩

/-- The record of a run can be replayed, the clean-up included. -/
theorem pipeline_replays (setup : RunSetup σ) (cleanup : Bool) (p : Pipeline) (s : RunState σ) :
    Replayed setup s ((pipeline setup cleanup p).result s).2 := by
  have h := replayed_effect setup
  rw [result_pipeline]
  cases p.compile with
  | error f => exact h.refl s
  | ok steps =>
    dsimp only
    have hrun : Replayed setup s
        ((execute setup .global steps).result { s with next := firstSeq }).2 :=
      h.steps steps .global { s with next := firstSeq }
    cases cleanup with
    | false => exact hrun
    | true => exact h.trans hrun (.of_event rfl ⟨_, _, rfl⟩)

end Run

end MediaPipeline
