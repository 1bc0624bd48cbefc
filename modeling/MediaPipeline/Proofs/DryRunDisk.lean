import MediaPipeline.Job.Conversion
import MediaPipeline.Machine.Computer
import MediaPipeline.Proofs.DiskChanges
import MediaPipeline.Proofs.RunCongruence

/-!
# What a dry run leaves behind

A dry run starts nothing, and until it is cleaned up after it does not touch the machine
either: all that a conversion does to a computer then is to make the directories of its
workspace and, at the end, to remove what the clean-up is asked to remove. The clean-up
does not ask whether the run was a dry one. So the disk keeps all that it held exactly if
none of the paths that the clean-up goes through leads to anything that was there before.
-/

namespace MediaPipeline

/-- Whether an event only says what a run does or would do. -/
def Event.isReport : Event → Bool
  | .entered .. | .skipped .. | .cleaned _ => true
  | _ => false

/-! ## The machine under a dry run -/

namespace Run

variable {σ : Type} {setup : RunSetup σ}

/-- The machine stays as it is, and the record grows by reports. -/
def Reports (s t : RunState σ) : Prop :=
  t.machine = s.machine ∧
    ∃ es, t.events = s.events ++ es ∧ ∀ e ∈ es, e.isReport = true

theorem reports_effect : Effect (Reports (σ := σ)) where
  write s store := ⟨rfl, [], (List.append_nil _).symm, by simp⟩
  enter s operation scope := ⟨rfl, [_], rfl, by simp [Event.isReport]⟩
  trans := by
    rintro s t u ⟨hm, es, hes, hr⟩ ⟨hm', fs, hfs, hr'⟩
    refine ⟨hm'.trans hm, es ++ fs, ?_, ?_⟩
    · rw [hfs, hes, List.append_assoc]
    · intro e he
      exact (List.mem_append.mp he).elim (hr e) (hr' e)

theorem once_reports (hd : setup.dryRun = true) (c : Command) :
    Within Reports (once setup c) := by
  intro s
  unfold once
  rw [if_pos hd, result_record]
  exact ⟨rfl, [_], rfl, by simp [Event.isReport]⟩

theorem runPipe_reports (hd : setup.dryRun = true) (plan : PipePlan) :
    Within Reports (runPipe setup plan) := by
  intro s
  unfold runPipe
  by_cases ht : plan.tail.isEmpty = true
  · rw [if_pos ht]
    exact reports_effect.write s s.store
  rw [if_neg ht]
  by_cases hg : plan.groups.any (·.isEmpty) = true
  · rw [if_pos hg]
    exact reports_effect.write s s.store
  rw [if_neg hg, if_pos hd, result_reportAll]
  refine ⟨rfl, _, rfl, fun e he => ?_⟩
  obtain ⟨c, _, rfl⟩ := List.mem_map.mp he
  rfl

theorem execute_reports (hd : setup.dryRun = true) (steps : Steps) (scope : Scope) :
    Within Reports (execute setup scope steps) :=
  reports_effect.execute (once_reports hd) (runPipe_reports hd) steps scope

/-- The paths that the clean-up after a pipeline is asked to remove, in order. -/
def removals (setup : RunSetup σ) (cleanup : Bool) (p : Pipeline) (s : RunState σ) :
    List Path :=
  match p.compile with
  | .error _ => []
  | .ok steps =>
    let r := (execute setup .global steps).result { s with next := firstSeq }
    if cleanup then Cleanup.paths r.2.store setup.workspace !r.1.isOk else []

/-- Nothing happens to the machine in a dry run but the removals at its end. -/
theorem pipeline_dry (hd : setup.dryRun = true) (cleanup : Bool) (p : Pipeline)
    (s : RunState σ) :
    ((pipeline setup cleanup p).result s).2.machine =
        (Cleanup.removeAll setup.host (removals setup cleanup p s) ⟨0, 0, 0⟩ s.machine).2 ∧
      ∃ es, ((pipeline setup cleanup p).result s).2.events = s.events ++ es ∧
        ∀ e ∈ es, e.isReport = true := by
  rw [result_pipeline]
  unfold removals
  cases p.compile with
  | error f => exact ⟨rfl, [], (List.append_nil _).symm, by simp⟩
  | ok steps =>
    obtain ⟨hm, es, hes, hr⟩ := execute_reports hd steps .global { s with next := firstSeq }
    dsimp only at hm hes ⊢
    generalize (execute setup .global steps).result { s with next := firstSeq } = r at hm hes ⊢
    cases cleanup with
    | false => exact ⟨hm, es, hes, hr⟩
    | true =>
      rw [if_pos rfl, if_pos rfl, result_cleanUp, hes, ← hm]
      dsimp only
      rw [List.append_assoc]
      refine ⟨rfl, _, rfl, fun e he => ?_⟩
      rcases List.mem_append.mp he with he | he
      · exact hr e he
      · rw [List.mem_singleton.mp he]
        rfl

end Run

namespace Conversion

variable {σ : Type}

/-- Loading a conversion sets up the store and does nothing else. -/
theorem result_load (host : Host σ) (c : Conversion) (s : RunState σ) :
    ∃ store, ((c.load host).result s).2 = { s with store := store } := by
  unfold load
  rw [Job.result_bind, Job.result_inspect]
  rcases Pipeline.load host s.machine c.pipeline with f | p
  · exact ⟨_, rfl⟩
  dsimp only
  rw [Job.result_bind, Job.result_during, Job.result_ofRun, Run.result_resume]
  rcases p.validate with f | _
  · exact ⟨_, rfl⟩
  dsimp only [Except.mapError]
  rw [Job.result_bind, Job.result_inspect]
  rcases Package.load host s.machine c.package with f | package
  · exact ⟨_, rfl⟩
  dsimp only
  rw [Job.result_bind, Job.result_inspect]
  rcases package.toStore with f | store
  · exact ⟨_, rfl⟩
  exact ⟨store, rfl⟩

/-- The workspace of a conversion, and the machine once it is prepared. -/
def prepared (host : Host σ) (settings : Settings) (c : Conversion) (m : σ) :
    Except OsError Workspace × σ :=
  Workspace.prepare host (c.directory.or settings.directory) settings.logs m

/-- A state with the parameters of tools, settings and request filled in. -/
def filled (host : Host σ) (settings : Settings) (c : Conversion) (s : RunState σ) :
    RunState σ :=
  let tools := Toolbox.discover host s.machine (settings.configuredTools host.home)
  { s with store := c.fillIn settings tools s.store }

/-- The paths that the clean-up after a dry run is asked to remove, in order. -/
def removals (host : Host σ) (settings : Settings) (c : Conversion) (s : RunState σ) :
    List Path :=
  match (c.load host).result s with
  | (.error _, _) => []
  | (.ok p, t) =>
    match c.prepared host settings s.machine with
    | (.error _, _) => []
    | (.ok w, m) =>
      Run.removals ⟨host, w, true⟩ settings.cleansUp p
        (c.filled host settings { t with machine := m })

/-- In a workspace a dry run fills in parameters and runs the pipeline; it probes
nothing. -/
theorem result_runIn_dry (host : Host σ) (settings : Settings) (c : Conversion) (p : Pipeline)
    (w : Workspace) (s : RunState σ) (hd : c.dryRun = true) :
    ((c.runIn host settings p w).result s).2 =
      ((Run.pipeline ⟨host, w, true⟩ settings.cleansUp p).result (c.filled host settings s)).2 := by
  unfold runIn
  rw [Job.result_bind, Job.result_inspect]
  dsimp only
  rw [Job.result_bind, Job.result_modify]
  dsimp only
  rw [hd, Bool.not_true, Bool.and_false, if_neg Bool.false_ne_true, Job.result_ofRun]
  rfl

theorem result_discard (host : Host σ) (w : Workspace) (s : RunState σ) :
    (discard host w).result s =
      (.ok (), { s with
        machine := if w.temporary then (host.remove w.directory s.machine).2 else s.machine }) := by
  unfold discard
  cases w.temporary <;> rfl

/-- All that a dry run does to the machine: it prepares the workspace, removes what the
clean-up is asked to remove, and discards a temporary workspace. -/
theorem run_dry (host : Host σ) (settings : Settings) (c : Conversion) (s : RunState σ)
    (hd : c.dryRun = true) :
    (∃ es, ((c.run host settings).result s).2.events = s.events ++ es ∧
      ∀ e ∈ es, e.isReport = true) ∧
    ((c.run host settings).result s).2.machine =
      match (c.load host).result s, c.prepared host settings s.machine with
      | (.error _, _), _ => s.machine
      | (.ok _, _), (.error _, m) => m
      | (.ok _, _), (.ok w, m) =>
        let left := (Cleanup.removeAll host (c.removals host settings s) ⟨0, 0, 0⟩ m).2
        if w.temporary then (host.remove w.directory left).2 else left := by
  obtain ⟨store, hload⟩ := result_load host c s
  unfold run
  rw [Job.result_bind]
  unfold removals
  rcases hr : (c.load host).result s with ⟨f | p, t⟩
  · rw [hr] at hload
    subst hload
    exact ⟨⟨[], (List.append_nil _).symm, by simp⟩, rfl⟩
  rw [hr] at hload
  subst hload
  dsimp only
  rw [Job.result_bind, Job.result_during, Job.result_machine]
  rcases hw : c.prepared host settings s.machine with ⟨e | w, m⟩
  · rw [prepared] at hw
    rw [hw]
    exact ⟨⟨[], (List.append_nil _).symm, by simp⟩, rfl⟩
  rw [prepared] at hw
  rw [hw]
  dsimp only [Except.mapError]
  rw [Job.result_ensuring, result_discard, result_runIn_dry host settings c p w _ hd]
  obtain ⟨hm, hevents⟩ := Run.pipeline_dry (show RunSetup.dryRun ⟨host, w, true⟩ = true from rfl)
    settings.cleansUp p (c.filled host settings ⟨store, s.next, m, s.events⟩)
  exact ⟨hevents, by rw [hm]; rfl⟩

end Conversion

/-! ## Computers -/

namespace Machine.Computer

variable {m m' m'' : Computer} {R Q S : Disk → Disk → Prop}

/-- The second computer differs from the first at most in its disk, and in the name that
the next temporary directory gets. -/
structure OnlyDisk (R : Disk → Disk → Prop) (m m' : Computer) : Prop where
  disk : R m.world.disk m'.world.disk
  streams : m'.world.streams = m.world.streams
  cwd : m'.cwd = m.cwd
  tasks : m'.tasks = m.tasks
  nextPid : m'.nextPid = m.nextPid

theorem onlyDisk_withDisk {d : Disk} (h : R m.world.disk d) : OnlyDisk R m (m.withDisk d) :=
  ⟨h, rfl, rfl, rfl, rfl⟩

theorem OnlyDisk.trans (h : OnlyDisk R m m') (g : OnlyDisk Q m' m'')
    (hdisk : R m.world.disk m'.world.disk → Q m'.world.disk m''.world.disk →
      S m.world.disk m''.world.disk) : OnlyDisk S m m'' where
  disk := hdisk h.disk g.disk
  streams := g.streams.trans h.streams
  cwd := g.cwd.trans h.cwd
  tasks := g.tasks.trans h.tasks
  nextPid := g.nextPid.trans h.nextPid

theorem removeAll_host (paths : List Path) (report : CleanupReport) (m : Computer) :
    (Cleanup.removeAll host paths report m).2 =
      m.withDisk (m.world.disk.removeEach m.cwd (paths.map (·.text))) := by
  induction paths generalizing report m with
  | nil => rfl
  | cons p rest ih => exact ih _ (m.remove p).2

/-! ### Workspaces -/

/-- A temporary name ends in a digit. -/
theorem temporaryName_trimmed (m : Computer) (pre : String) (fuel n : Nat) :
    Disk.trimSlashes (m.temporaryName pre fuel n) = m.temporaryName pre fuel n := by
  have hname (n : Nat) : Disk.trimSlashes ("/tmp/" ++ pre ++ toString n) =
      "/tmp/" ++ pre ++ toString n := by
    have hdigits : (toString n).toList = Nat.toDigits 10 n := by
      rw [Nat.toString_eq_repr, Nat.repr_eq_ofList_toDigits, String.toList_ofList]
    have hne : Nat.toDigits 10 n ≠ [] := Nat.toDigits_ne_nil
    have hdigit : ((Nat.toDigits 10 n).getLast hne).isDigit = true :=
      Nat.isDigit_of_mem_toDigits (by decide) (by decide) (List.getLast_mem hne)
    refine Disk.trimSlashes_of_getLast? (c := (Nat.toDigits 10 n).getLast hne) ?_ ?_
    · rw [String.toList_append, hdigits, List.getLast?_append,
        List.getLast?_eq_some_getLast hne]
      rfl
    · intro hslash
      rw [hslash] at hdigit
      exact absurd hdigit (by decide)
  induction fuel generalizing n with
  | zero => exact hname n
  | succ fuel ih =>
    unfold temporaryName
    dsimp only
    split_ifs
    · exact ih (n + 1)
    · exact hname n

/-- The directory of a workspace that is asked for, or of a temporary one. -/
def workingDirectory (m : Computer) (directory : Option Path) : Path :=
  directory.getD (m.temporaryPath temporaryPrefix)

/-- The directories that a workspace needs. -/
def goals (m : Computer) (directory logs : Option Path) : List Path :=
  [m.workingDirectory directory, Workspace.logsIn (m.workingDirectory directory) logs]

/-- Creating a workspace makes the directories on the way to its own. -/
theorem create_made (w : Workspace) (m : Computer) :
    OnlyDisk (Disk.Made m.cwd [w.directory, w.logs]) m (w.create host m).2 := by
  have hmade (m : Computer) {p : Path} (hp : p ∈ [w.directory, w.logs]) :
      OnlyDisk (Disk.Made m.cwd [w.directory, w.logs]) m (m.createDirs p).2 :=
    onlyDisk_withDisk (Disk.Made.makeDirectories hp .refl m.world.disk _)
  have hdir := hmade m (p := w.directory) (by simp)
  unfold Workspace.create
  rcases hr : host.createDirs w.directory m with ⟨e | _, m'⟩
  · obtain rfl : (m.createDirs w.directory).2 = m' := congrArg Prod.snd hr
    exact hdir
  · obtain rfl : (m.createDirs w.directory).2 = m' := congrArg Prod.snd hr
    refine hdir.trans (hmade _ (p := w.logs) (by simp)) fun hd hl => hd.trans ?_
    rw [← hdir.cwd]
    exact hl

theorem temporaryPath_trimmed (m : Computer) (pre : String) :
    Disk.trimSlashes (m.temporaryPath pre).text = (m.temporaryPath pre).text :=
  temporaryName_trimmed ..

theorem makeTemporary_of_ok {path : Path} {d : Disk}
    (h : m.world.disk.makeDirectory m.cwd path.text = .ok d) :
    m.makeTemporary path =
      (.ok path, { m.withDisk d with nextTemporary := m.nextTemporary + 1 }) := by
  delta makeTemporary
  rw [h]

theorem makeTemporary_of_error {path : Path} {e : OsError}
    (h : m.world.disk.makeDirectory m.cwd path.text = .error e) :
    m.makeTemporary path = (.error e, m) := by
  delta makeTemporary
  rw [h]

/-- A temporary workspace is made at a fresh path, with the directories that it needs; if
that fails it goes again. -/
theorem prepare_temporary {path : Path} (logs : Option Path) {d : Disk}
    (htrimmed : Disk.trimSlashes path.text = path.text)
    (hd : m.world.disk.makeDirectory m.cwd path.text = .ok d) :
    m.world.disk.Fresh m.cwd path.text ∧
    OnlyDisk (Disk.Made m.cwd [path, Workspace.logsIn path logs]) m
      (({ Workspace.inDirectory path logs with temporary := true } : Workspace).create host
        (m.makeTemporary path).2).2 := by
  obtain ⟨place, hwalk, habsent, -⟩ := Disk.makeDirectory_ok hd
  rw [htrimmed] at hwalk
  have hfirst : OnlyDisk (Disk.Made m.cwd [path, Workspace.logsIn path logs]) m
      (m.makeTemporary path).2 := by
    rw [makeTemporary_of_ok hd]
    exact ⟨(Disk.Made.refl _).make (by simp) .refl hd, rfl, rfl, rfl, rfl⟩
  refine ⟨⟨place, hwalk, habsent⟩, hfirst.trans (create_made _ _) fun hd hl => hd.trans ?_⟩
  rw [← hfirst.cwd]
  exact hl

/-- Preparing a workspace makes directories on the way to those that it needs; if that
fails, a temporary one goes again. -/
theorem prepare_made (m : Computer) (directory logs : Option Path) :
    ∃ most, OnlyDisk (Disk.Made m.cwd (m.goals directory logs)) m most ∧
      match Workspace.prepare host directory logs m with
      | (.ok w, m') => m' = most ∧ (w.temporary = true → m.world.disk.Fresh m.cwd w.directory.text)
      | (.error _, m') => m' = most ∨ ∃ dir : Path, m.world.disk.Fresh m.cwd dir.text ∧
          m' = (host.remove dir most).2 := by
  cases directory with
  | some dir =>
    have hmade := create_made (Workspace.inDirectory dir logs) m
    refine ⟨_, hmade, ?_⟩
    unfold Workspace.prepare
    dsimp only
    rcases (Workspace.inDirectory dir logs).create host m with ⟨e | _, m'⟩
    · exact .inl rfl
    · exact ⟨rfl, fun htemporary => by cases htemporary⟩
  | none =>
    have htrimmed := m.temporaryPath_trimmed temporaryPrefix
    have hcreate : host.createTemporary temporaryPrefix m =
        m.makeTemporary (m.temporaryPath temporaryPrefix) := by dsimp only [host]
    unfold Workspace.prepare goals workingDirectory
    dsimp only [Option.getD_none]
    rw [hcreate]
    -- which name the directory gets does not matter from here on
    generalize m.temporaryPath temporaryPrefix = path at htrimmed
    rcases hd : m.world.disk.makeDirectory m.cwd path.text with e | d
    · rw [makeTemporary_of_error hd]
      exact ⟨m, ⟨.refl _, rfl, rfl, rfl, rfl⟩, .inl rfl⟩
    · obtain ⟨hfresh, hmade⟩ := prepare_temporary logs htrimmed hd
      refine ⟨_, hmade, ?_⟩
      rw [makeTemporary_of_ok hd]
      dsimp only
      rcases ({ Workspace.inDirectory path logs with temporary := true } : Workspace).create host
        { m.withDisk d with nextTemporary := m.nextTemporary + 1 } with ⟨e | _, left⟩
      · exact .inr ⟨path, hfresh, rfl⟩
      · exact ⟨rfl, fun _ => hfresh⟩

/-- After a workspace is prepared, removals and the end of a temporary workspace add
nothing; what was there before stays exactly if the removals spare it. -/
theorem removals_keep {most : Computer} {goals : List Path}
    (hmost : OnlyDisk (Disk.Made m.cwd goals) m most) (htree : m.world.disk.IsTree)
    {w : Workspace} (hfresh : w.temporary = true → m.world.disk.Fresh m.cwd w.directory.text)
    (paths : List Path) :
    let left := (Cleanup.removeAll host paths ⟨0, 0, 0⟩ most).2
    let last := if w.temporary then (host.remove w.directory left).2 else left
    OnlyDisk (Disk.OnlyMade m.cwd goals) m last ∧
      (Disk.Kept m.world.disk last.world.disk ↔
        Disk.Spares m.world.disk m.cwd most.world.disk (paths.map (·.text))) := by
  intro left last
  obtain ⟨d, hd, hleft⟩ : ∃ d, d = most.world.disk.removeEach m.cwd (paths.map (·.text)) ∧
      left = most.withDisk d := by
    refine ⟨_, rfl, ?_⟩
    rw [← hmost.cwd]
    exact removeAll_host paths _ most
  have hadds : Disk.OnlyMade m.cwd goals m.world.disk d := by
    refine hmost.disk.onlyMade.of_kept ?_
    rw [hd]
    exact Disk.kept_of_removeEach _ _ _
  have hspares : Disk.Kept m.world.disk d ↔
      Disk.Spares m.world.disk m.cwd most.world.disk (paths.map (·.text)) := by
    rw [hd]
    exact Disk.kept_removeEach_iff hmost.disk.kept _
  have hmachine {e : Disk} (he : Disk.OnlyMade m.cwd goals m.world.disk e) :
      OnlyDisk (Disk.OnlyMade m.cwd goals) m (most.withDisk e) :=
    hmost.trans (onlyDisk_withDisk (R := fun _ f => f = e) rfl) fun _ hf => hf ▸ he
  cases htemporary : w.temporary with
  | false =>
    have hlast : last = most.withDisk d := by
      rw [← hleft]
      exact if_neg (by rw [htemporary]; exact Bool.false_ne_true)
    rw [hlast]
    exact ⟨hmachine hadds, hspares⟩
  | true =>
    have hlast : last = most.withDisk (d.remove m.cwd w.directory.text).2 := by
      rw [← hmost.cwd]
      refine (if_pos htemporary).trans ?_
      rw [hleft]
      rfl
    rw [hlast]
    exact ⟨hmachine (hadds.of_kept (Disk.kept_of_remove _ _ _)),
      (Disk.kept_remove_of_fresh htree (hfresh htemporary)).trans hspares⟩

end Machine.Computer

/-! ## The main result -/

namespace Conversion

open Machine Computer

/-- A dry run, whether it succeeds or fails, starts nothing and makes nothing but the
directories of its workspace and those on the way to them. It keeps all that was on the
disk exactly if the clean-up spares it: none of the removals, one after the other, takes
anything that was there before. -/
theorem dryRun_keeps_iff (settings : Settings) (c : Conversion) (s : RunState Computer)
    (hd : c.dryRun = true) (htree : s.machine.world.disk.IsTree) :
    let before := s.machine.world.disk
    let t := ((c.run host settings).result s).2
    let goals := s.machine.goals (c.directory.or settings.directory) settings.logs
    (∃ es, t.events = s.events ++ es ∧ ∀ e ∈ es, e.isReport = true) ∧
    OnlyDisk (Disk.OnlyMade s.machine.cwd goals) s.machine t.machine ∧
    (∀ q n, t.machine.world.disk.node? q = some n →
      before.node? q = some n ∨ n = .directory) ∧
    (Disk.Kept before t.machine.world.disk ↔
      Disk.Spares before s.machine.cwd (c.prepared host settings s.machine).2.world.disk
        ((c.removals host settings s).map (·.text))) := by
  intro before t goals
  obtain ⟨hevents, hmachine⟩ := run_dry host settings c s hd
  obtain ⟨hdisk, hkept⟩ :
      OnlyDisk (Disk.OnlyMade s.machine.cwd goals) s.machine t.machine ∧
      (Disk.Kept before t.machine.world.disk ↔
        Disk.Spares before s.machine.cwd (c.prepared host settings s.machine).2.world.disk
          ((c.removals host settings s).map (·.text))) := by
    show OnlyDisk _ s.machine ((c.run host settings).result s).2.machine ∧
      (Disk.Kept before ((c.run host settings).result s).2.machine.world.disk ↔ _)
    rw [hmachine]
    obtain ⟨most, hmost, hprepared⟩ :=
      prepare_made s.machine (c.directory.or settings.directory) settings.logs
    rcases hload : (c.load host).result s with ⟨f | p, u⟩
    -- a conversion that cannot be loaded does not touch the machine
    · have hnone : c.removals host settings s = [] := by
        unfold removals
        rw [hload]
      rw [hnone]
      exact ⟨⟨(Disk.Made.refl _).onlyMade, rfl, rfl, rfl, rfl⟩, iff_of_true (.refl _) trivial⟩
    have hprepare : Workspace.prepare host (c.directory.or settings.directory) settings.logs
        s.machine = c.prepared host settings s.machine := rfl
    rw [hprepare] at hprepared
    rcases hw : c.prepared host settings s.machine with ⟨e | w, m⟩
    -- without a workspace the pipeline is not run, so there is no clean-up
    · have hnone : c.removals host settings s = [] := by
        unfold removals
        rw [hload, hw]
      rw [hnone]
      rw [hw] at hprepared
      obtain rfl | ⟨dir, hfresh, rfl⟩ := hprepared
      · exact ⟨⟨hmost.disk.onlyMade, hmost.streams, hmost.cwd, hmost.tasks, hmost.nextPid⟩,
          iff_of_true hmost.disk.kept trivial⟩
      · obtain ⟨hdisk, hkept⟩ := removals_keep (w := ⟨dir, dir, true⟩) hmost htree
          (fun _ => hfresh) []
        exact ⟨hdisk, hkept⟩
    · rw [hw] at hprepared
      obtain ⟨rfl, hfresh⟩ := hprepared
      exact removals_keep hmost htree hfresh _
  exact ⟨hevents, hdisk, fun q n hq => hdisk.disk.eq_directory hq, hkept⟩

/-- A pipeline that marks a file to be removed at the end, and does nothing else. -/
def sweepingText : String :=
  "[[operations]]\nkind=\"dynamic-parameter\"\nname=\"mark\"\nparameter=\"old\"\n" ++
    "value=\"keep\"\ncleanup=\"delete-on-exit\"\n"

/-- A disk with a pipeline, an empty package and a directory that holds a file. -/
def sweptDisk : Disk where
  nodes :=
    [(["job"], .file 0 sweepingText.toUTF8 false), (["package"], .file 1 "\x7b\x7d".toUTF8 false),
      (["work"], .directory), (["work", "keep"], .file 2 "kept".toUTF8 false)]
  nextId := 3

/-- Where the conversion begins. -/
def sweptState : RunState Computer :=
  ⟨.empty, firstSeq, ⟨⟨sweptDisk, #[]⟩, [], [], 1000, 0⟩, []⟩

/-- A dry run of the pipeline in the directory. -/
def sweeping : Conversion := ⟨⟨"job"⟩, ⟨"package"⟩, some ⟨"work"⟩, [], true⟩

theorem sweptDisk_isTree : sweptState.machine.world.disk.IsTree :=
  Disk.isTree_of_all (by decide +kernel)

/-- The theorem applies to the sample. -/
theorem dryRun_keeps_iff_sweeping :
    let before := sweptState.machine.world.disk
    let t := ((sweeping.run host .standard).result sweptState).2
    let goals := sweptState.machine.goals (some ⟨"work"⟩) none
    sweeping.dryRun = true ∧ before.IsTree ∧
    (∃ es, t.events = sweptState.events ++ es ∧ ∀ e ∈ es, e.isReport = true) ∧
    OnlyDisk (Disk.OnlyMade sweptState.machine.cwd goals) sweptState.machine t.machine ∧
    (∀ q n, t.machine.world.disk.node? q = some n →
      before.node? q = some n ∨ n = .directory) ∧
    (Disk.Kept before t.machine.world.disk ↔
      Disk.Spares before sweptState.machine.cwd
        (sweeping.prepared host .standard sweptState.machine).2.world.disk
        ((sweeping.removals host .standard sweptState).map (·.text))) :=
  ⟨rfl, sweptDisk_isTree, dryRun_keeps_iff .standard sweeping sweptState rfl sweptDisk_isTree⟩

/-- In a dry run the clean-up removes a file that was there before. -/
theorem dryRun_removes_file :
    sweeping.dryRun = true ∧
    (sweptState.machine.world.disk.node? ["work", "keep"]).isSome = true ∧
    (((sweeping.run host .standard).result sweptState).2.machine.world.disk.node?
      ["work", "keep"]).isSome = false :=
  ⟨rfl, by decide +kernel, by decide +kernel⟩

end Conversion

end MediaPipeline
