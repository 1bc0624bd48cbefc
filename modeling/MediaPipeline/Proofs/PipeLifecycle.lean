import MediaPipeline.Proofs.Replay

/-!
# The lives of the processes of a pipe

Which processes of a pipe are started, in which order they are waited for, and which
are killed. `PipeLifecycle` lists the ways this can go:

- a process of the tail is refused: no group starts, and what was started is killed;
- otherwise the tail is started, then the groups one after the other, each waited for
  before the next, up to the first that fails; the tail is waited for at the end.

`runPipe_lifecycle` is the main result: every run of a pipe goes one of these ways,
every process that was started is waited for once or killed once, and all of this is what
the machine was asked for and has answered.
-/

namespace MediaPipeline

/-! ## Views of a record -/

/-- Whether an event is about the life of a process. -/
def Event.isLifecycle : Event → Bool
  | .started .. | .refused .. | .finished .. | .killed .. => true
  | _ => false

/-- The part of a record that is about the lives of processes. -/
def lifecycle (es : List Event) : List Event := es.filter Event.isLifecycle

/-- The processes that were started, in order. -/
def started (es : List Event) : List LiveProcess :=
  es.filterMap fun | .started p => some p | _ => none

/-- The processes that were waited for, in order. -/
def awaited (es : List Event) : List LiveProcess :=
  es.filterMap fun | .finished p _ => some p | _ => none

/-- The processes that were killed, in order. -/
def killed (es : List Event) : List LiveProcess :=
  es.filterMap fun | .killed p => some p | _ => none

/-- The record of a chain that is started whole and then waited for in order. -/
def served (ends : List (LiveProcess × Ending)) : List Event :=
  (ends.map Prod.fst).map .started ++ finishes ends

section Views

variable (es fs : List Event) (ps : List LiveProcess) (ends : List (LiveProcess × Ending))

@[simp] theorem lifecycle_append : lifecycle (es ++ fs) = lifecycle es ++ lifecycle fs :=
  List.filter_append ..

@[simp] theorem lifecycle_outline : lifecycle (outline es) = lifecycle es := by
  rw [lifecycle, outline, List.filter_filter, lifecycle]
  congr 1
  funext e
  cases e <;> rfl

theorem lifecycle_map {α : Type} {f : α → Event} (h : ∀ a, (f a).isLifecycle = true)
    (as : List α) : lifecycle (as.map f) = as.map f := by
  refine List.filter_eq_self.mpr fun e he => ?_
  obtain ⟨a, _, rfl⟩ := List.mem_map.mp he
  exact h a

@[simp] theorem lifecycle_started : lifecycle (ps.map .started) = ps.map .started :=
  lifecycle_map (fun _ => rfl) ps

@[simp] theorem lifecycle_finishes : lifecycle (finishes ends) = finishes ends :=
  lifecycle_map (fun _ => rfl) ends

@[simp] theorem lifecycle_started_cons (p : LiveProcess) :
    lifecycle (.started p :: es) = .started p :: lifecycle es := rfl

@[simp] theorem lifecycle_finished_cons (p : LiveProcess) (status : Ending) :
    lifecycle (.finished p status :: es) = .finished p status :: lifecycle es := rfl

@[simp] theorem lifecycle_wired_cons (action : Wiring) :
    lifecycle (.wired action :: es) = lifecycle es := rfl

@[simp] theorem lifecycle_wired (actions : List Wiring) :
    lifecycle (actions.map .wired) = [] := by
  simp [lifecycle, Event.isLifecycle]

@[simp] theorem lifecycle_closing (last : LiveProcess) (tail : Nat) (inputOpen left : Bool) :
    lifecycle (closing last tail inputOpen left) = [] := by
  unfold closing
  split <;> rfl

@[simp] theorem lifecycle_refusal (before : List LiveProcess) (p : LiveProcess) (e : OsError) :
    lifecycle (refusal before p e) = refusal before p e := by
  rw [refusal, lifecycle_append, lifecycle_started]
  exact congrArg (_ ++ .refused p e :: ·) (lifecycle_map (f := .killed) (fun _ => rfl) before)

@[simp] theorem started_append : started (es ++ fs) = started es ++ started fs :=
  List.filterMap_append ..

@[simp] theorem awaited_append : awaited (es ++ fs) = awaited es ++ awaited fs :=
  List.filterMap_append ..

@[simp] theorem killed_append : killed (es ++ fs) = killed es ++ killed fs :=
  List.filterMap_append ..

end Views

/-! ## The ways a pipe goes -/

/-- A group whose first process was successful. -/
def Succeeded (ends : List (LiveProcess × Ending)) : Prop :=
  ∃ p status rest, ends = (p, status) :: rest ∧ status.isSuccess = true

/-- How groups stop, of which those in `done` were started whole: the record of what
follows them, and the outcome. -/
inductive GroupsStop (groups : List (List LiveProcess)) :
    List (List (LiveProcess × Ending)) → List Event → Except Failure Unit → Prop where
  /-- All groups were run, and all were successful. -/
  | completed {done : List (List (LiveProcess × Ending))}
      (hg : groups = done.map (·.map Prod.fst)) (hs : ∀ ends ∈ done, Succeeded ends) :
      GroupsStop groups done [] (.ok ())
  /-- The first process of a group was not successful. -/
  | failed {earlier : List (List (LiveProcess × Ending))} {p : LiveProcess}
      {status : Ending} {rest : List (LiveProcess × Ending)}
      {later : List (List LiveProcess)}
      (hg : groups = (earlier ++ [(p, status) :: rest]).map (·.map Prod.fst) ++ later)
      (hs : ∀ ends ∈ earlier, Succeeded ends) (hf : status.isSuccess = false) :
      GroupsStop groups (earlier ++ [(p, status) :: rest]) [] (p.verdict status)
  /-- A process of a group was refused, after those before it were started. -/
  | refused {done : List (List (LiveProcess × Ending))} {before : List LiveProcess}
      {p : LiveProcess} {after : List LiveProcess} {later : List (List LiveProcess)} {e : OsError}
      (hg : groups = done.map (·.map Prod.fst) ++ (before ++ p :: after) :: later)
      (hs : ∀ ends ∈ done, Succeeded ends) :
      GroupsStop groups done (refusal before p e) (.error (p.spawnFailure e))

/-- How a pipe goes: the record of the lives of its processes, and the outcome. -/
inductive PipeLifecycle (tail : List LiveProcess) (groups : List (List LiveProcess)) :
    List Event → Except Failure Unit → Prop where
  /-- A process of the tail was refused. -/
  | refused {before : List LiveProcess} {p : LiveProcess} {after : List LiveProcess} {e : OsError}
      (ht : tail = before ++ p :: after) :
      PipeLifecycle tail groups (refusal before p e) (.error (p.spawnFailure e))
  /-- There are no groups; the first process of the tail decides. -/
  | alone {p : LiveProcess} {status : Ending} {rest : List (LiveProcess × Ending)}
      (hg : groups = []) (ht : tail = ((p, status) :: rest).map Prod.fst) :
      PipeLifecycle tail groups (served ((p, status) :: rest)) (p.verdict status)
  /-- The groups are run up to the first that fails, and the tail is waited for in
  any case. -/
  | fed {done : List (List (LiveProcess × Ending))} {stop : List Event}
      {r : Except Failure Unit} {ends : List (LiveProcess × Ending)}
      (hg : groups ≠ []) (ht : tail = ends.map Prod.fst) (hs : GroupsStop groups done stop r) :
      PipeLifecycle tail groups
        (tail.map .started ++ done.flatMap served ++ stop ++ finishes ends) r

/-- The processes of groups, when the next number is `n`. -/
def groupChains (n : Nat) : List (List Command) → List (List LiveProcess)
  | [] => []
  | group :: rest => chain false .empty n group :: groupChains (n + group.length) rest

/-- The processes of the groups of a pipe, when the next number is `n`. -/
def PipePlan.groupChains (plan : PipePlan) (n : Nat) : List (List LiveProcess) :=
  MediaPipeline.groupChains (n + plan.tail.length) plan.groups

theorem groupChains_ne_nil {n : Nat} {groups : List (List Command)} (h : groups ≠ []) :
    groupChains n groups ≠ [] := by
  cases groups with
  | nil => exact absurd rfl h
  | cons group rest => exact List.cons_ne_nil _ _

theorem GroupsStop.cons {groups : List (List LiveProcess)}
    {done : List (List (LiveProcess × Ending))} {stop : List Event}
    {r : Except Failure Unit} {ends : List (LiveProcess × Ending)} (he : Succeeded ends)
    (h : GroupsStop groups done stop r) :
    GroupsStop (ends.map Prod.fst :: groups) (ends :: done) stop r := by
  have all {earlier : List (List (LiveProcess × Ending))}
      (hs : ∀ g ∈ earlier, Succeeded g) : ∀ g ∈ ends :: earlier, Succeeded g :=
    List.forall_mem_cons.mpr ⟨he, hs⟩
  cases h with
  | completed hg hs => exact .completed (by rw [hg, List.map_cons]) (all hs)
  | failed hg hs hf =>
    rw [← List.cons_append]
    exact .failed (by rw [hg]; rfl) (all hs) hf
  | refused hg hs => exact .refused (by rw [hg]; rfl) (all hs)

theorem lifecycle_groupRecord (tail : Nat) (inputOpen left : Bool) (first : LiveProcess)
    {rest : List LiveProcess} (status : Ending) {ends : List (LiveProcess × Ending)}
    (hends : ends.map Prod.fst = rest) :
    lifecycle (groupRecord tail inputOpen left first rest status ends) =
      served ((first, status) :: ends) := by
  simp [groupRecord, served, hends]

theorem GroupTrace.lifecycle {tail n : Nat} {inputOpen : Bool} {group : List Command}
    {es : List Event} {r : Except Failure Bool} (h : GroupTrace tail n inputOpen group es r) :
    (∃ before p after e, chain false .empty n group = before ++ p :: after ∧
      lifecycle es = refusal before p e ∧ r = .error (p.spawnFailure e)) ∨
    ∃ p status rest left, chain false .empty n group = ((p, status) :: rest).map Prod.fst ∧
      lifecycle es = served ((p, status) :: rest) ∧ r = (p.verdict status).map fun _ => left := by
  cases h with
  | @refused before p after e hc => exact .inl ⟨before, p, after, e, hc, by simp, rfl⟩
  | @ended first rest status ends left hc hends _ =>
    exact .inr ⟨first, status, ends, left, by rw [hc, List.map_cons, hends],
      lifecycle_groupRecord tail inputOpen left first status hends, rfl⟩

theorem LiveProcess.verdict_cases (p : LiveProcess) (status : Ending) :
    (status.isSuccess = true ∧ p.verdict status = .ok ()) ∨
    (status.isSuccess = false ∧ ∃ f, p.verdict status = .error f) := by
  cases status with
  | unknown e => exact .inr ⟨rfl, _, rfl⟩
  | known status =>
    simp only [LiveProcess.verdict, Ending.isSuccess]
    cases status.isSuccess with
    | true => exact .inl ⟨rfl, rfl⟩
    | false => exact .inr ⟨rfl, _, rfl⟩

theorem LiveProcess.verdict_of_isSuccess {status : Ending} (h : status.isSuccess = true)
    (p : LiveProcess) : p.verdict status = .ok () := by
  obtain ⟨_, hv⟩ | ⟨hf, _⟩ := p.verdict_cases status
  · exact hv
  · rw [h] at hf
    cases hf

theorem GroupsTrace.lifecycle {tail n : Nat} {inputOpen : Bool} {groups : List (List Command)}
    {es : List Event} {r : Except Failure Unit} (h : GroupsTrace tail n inputOpen groups es r) :
    ∃ done stop, lifecycle es = done.flatMap served ++ stop ∧
      GroupsStop (groupChains n groups) done stop r := by
  induction h with
  | done => exact ⟨[], [], rfl, .completed rfl (by simp)⟩
  | @failed n inputOpen group groups es f hg =>
    -- a group that fails was refused, or its first process was not successful
    obtain ⟨before, p, after, e, hc, hl, hr⟩ | ⟨p, status, rest, left, hc, hl, hr⟩ := hg.lifecycle
    · cases hr
      have hgs : groupChains n (group :: groups) =
          (before ++ p :: after) :: groupChains (n + group.length) groups := by
        rw [groupChains, hc]
      exact ⟨[], refusal before p e, hl, .refused hgs (by simp)⟩
    · obtain ⟨_, hv⟩ | ⟨hf, g, hv⟩ := p.verdict_cases status
      · rw [hv] at hr
        cases hr
      · rw [hv] at hr
        cases hr
        rw [← hv]
        have hgs : groupChains n (group :: groups) =
            ((p, status) :: rest).map Prod.fst :: groupChains (n + group.length) groups := by
          rw [groupChains, hc]
        refine ⟨[(p, status) :: rest], [], by simp [hl], ?_⟩
        rw [← List.nil_append [(p, status) :: rest]]
        exact .failed hgs (by simp) hf
  | @next n inputOpen left group groups es more r hg _ ih =>
    obtain ⟨done, stop, hm, hs⟩ := ih
    obtain ⟨before, p, after, e, _, _, hr⟩ | ⟨p, status, rest, left, hc, hl, hr⟩ := hg.lifecycle
    · cases hr
    · obtain ⟨hok, _⟩ | ⟨_, g, hv⟩ := p.verdict_cases status
      · refine ⟨((p, status) :: rest) :: done, stop, by simp [hl, hm], ?_⟩
        rw [groupChains, hc]
        exact hs.cons ⟨p, status, rest, rfl, hok⟩
      · rw [hv] at hr
        cases hr

/-- The lives of the processes of a pipe are as `PipeLifecycle` says. -/
theorem PipeTrace.lifecycle {plan : PipePlan} {n : Nat} {es : List Event}
    {r : Except Failure Unit} (h : PipeTrace plan n es r) :
    PipeLifecycle (plan.tailChain n) (plan.groupChains n) (lifecycle es) r := by
  cases h with
  | refused hc =>
    rw [lifecycle_refusal]
    exact .refused hc
  | @alone first rest status ends hg hc hends =>
    have hl : PipeLifecycle (plan.tailChain n) (plan.groupChains n)
        (served ((first, status) :: ends)) (first.verdict status) :=
      .alone (by rw [PipePlan.groupChains, hg, MediaPipeline.groupChains])
        (by rw [hc, List.map_cons, hends])
    simpa [served, hends] using hl
  | @fed head rest gs r ends hg hc hends hes =>
    obtain ⟨done, stop, hl, hs⟩ := hes.lifecycle
    have hp : PipeLifecycle (plan.tailChain n) (plan.groupChains n)
        ((plan.tailChain n).map .started ++ done.flatMap served ++ stop ++ finishes ends) r :=
      .fed (groupChains_ne_nil hg) (hc.trans hends.symm) hs
    rw [hc] at hp ⊢
    simpa [hl] using hp

/-! ## Every process once -/

section Views

variable (ends : List (LiveProcess × Ending)) (before : List LiveProcess)
  (p : LiveProcess) (e : OsError)

@[simp] theorem started_lifecycle (es : List Event) : started (lifecycle es) = started es :=
  filterMap_filter_of (fun e he => by cases e <;> first | rfl | cases he) es

@[simp] theorem started_outline (es : List Event) : started (outline es) = started es :=
  filterMap_filter_of (fun e he => by cases e <;> first | rfl | cases he) es

@[simp] theorem awaited_lifecycle (es : List Event) : awaited (lifecycle es) = awaited es :=
  filterMap_filter_of (fun e he => by cases e <;> first | rfl | cases he) es

@[simp] theorem killed_lifecycle (es : List Event) : killed (lifecycle es) = killed es :=
  filterMap_filter_of (fun e he => by cases e <;> first | rfl | cases he) es

@[simp] theorem started_started : started (before.map .started) = before := by
  rw [started, List.filterMap_map]
  exact List.filterMap_some

@[simp] theorem started_finishes : started (finishes ends) = [] := by
  simp [started, finishes]

@[simp] theorem started_wired (actions : List Wiring) : started (actions.map .wired) = [] := by
  simp [started]

@[simp] theorem started_wired_cons (action : Wiring) (es : List Event) :
    started (.wired action :: es) = started es := rfl

@[simp] theorem started_served : started (served ends) = ends.map Prod.fst := by
  simp only [served, started_append, started_started, started_finishes, List.append_nil]

@[simp] theorem started_refusal : started (refusal before p e) = before := by
  rw [refusal, started_append, started_started]
  simp [started]

@[simp] theorem awaited_started : awaited (before.map .started) = [] := by
  simp [awaited]

@[simp] theorem awaited_finishes : awaited (finishes ends) = ends.map Prod.fst := by
  rw [awaited, finishes, List.filterMap_map]
  exact congrFun (List.filterMap_eq_map (f := Prod.fst)) ends

@[simp] theorem awaited_served : awaited (served ends) = ends.map Prod.fst := by
  simp only [served, awaited_append, awaited_started, awaited_finishes, List.nil_append]

@[simp] theorem awaited_refusal : awaited (refusal before p e) = [] := by
  simp [awaited, refusal]

@[simp] theorem killed_killed : killed (before.map .killed) = before := by
  rw [killed, List.filterMap_map]
  exact List.filterMap_some

@[simp] theorem killed_started : killed (before.map .started) = [] := by
  simp [killed]

@[simp] theorem killed_finishes : killed (finishes ends) = [] := by
  simp [killed, finishes]

@[simp] theorem killed_served : killed (served ends) = [] := by
  simp only [served, killed_append, killed_started, killed_finishes, List.append_nil]

@[simp] theorem killed_refusal : killed (refusal before p e) = before := by
  rw [refusal, killed_append, killed_started, List.nil_append]
  exact killed_killed before

end Views

/-- The processes of groups that were started whole. -/
def members (done : List (List (LiveProcess × Ending))) : List LiveProcess :=
  (done.map (·.map Prod.fst)).flatten

section Members

variable (done : List (List (LiveProcess × Ending)))

@[simp] theorem started_groups : started (done.flatMap served) = members done := by
  induction done with
  | nil => rfl
  | cons ends done ih => simp [members, ih]

@[simp] theorem awaited_groups : awaited (done.flatMap served) = members done := by
  induction done with
  | nil => rfl
  | cons ends done ih => simp [members, ih]

@[simp] theorem killed_groups : killed (done.flatMap served) = [] := by
  induction done with
  | nil => rfl
  | cons ends done ih => simp [ih]

end Members

section Stop

variable {groups : List (List LiveProcess)} {done : List (List (LiveProcess × Ending))}
  {stop : List Event} {r : Except Failure Unit}

theorem GroupsStop.started_isPrefix (h : GroupsStop groups done stop r) :
    members done ++ started stop <+: groups.flatten := by
  cases h with
  | completed hg _ => exact ⟨[], by simp [hg, members, started]⟩
  | @failed _ _ _ _ later hg _ _ => exact ⟨later.flatten, by simp [hg, members, started]⟩
  | @refused _ before p after later e hg _ =>
    exact ⟨p :: after ++ later.flatten, by simp [hg, members]⟩

theorem GroupsStop.awaited_eq (h : GroupsStop groups done stop r) : awaited stop = [] := by
  cases h with
  | completed | failed => rfl
  | refused => exact awaited_refusal ..

theorem GroupsStop.killed_eq (h : GroupsStop groups done stop r) : killed stop = started stop := by
  cases h with
  | completed | failed => rfl
  | refused => rw [killed_refusal, started_refusal]

end Stop

section Lifecycle

variable {tail : List LiveProcess} {groups : List (List LiveProcess)} {es : List Event}
  {r : Except Failure Unit}

/-- Processes are started in the order of the plan, the tail first. -/
theorem PipeLifecycle.started_isPrefix (h : PipeLifecycle tail groups es r) :
    started es <+: tail ++ groups.flatten := by
  cases h with
  | @refused before p after e ht =>
    exact ⟨p :: after ++ groups.flatten, by simp [ht]⟩
  | alone hg ht => exact ⟨[], by simp [hg, ht]⟩
  | fed hg ht hs => simpa using hs.started_isPrefix

/-- Every process that was started is waited for or killed. -/
theorem PipeLifecycle.started_perm (h : PipeLifecycle tail groups es r) :
    (started es).Perm (awaited es ++ killed es) := by
  cases h with
  | refused => simp
  | alone => simp
  | @fed done stop r ends hg ht hs =>
    simp only [started_append, started_started, started_groups, started_finishes, awaited_append,
      awaited_started, awaited_groups, awaited_finishes, killed_append, killed_started,
      killed_groups, killed_finishes, hs.awaited_eq, hs.killed_eq, List.append_nil,
      List.nil_append, ← ht]
    exact List.perm_append_comm.append_right _

end Lifecycle

theorem chain_seqs (ends : Bool) (input : ProcessInput) (n : Nat) (cmds : List Command) :
    (chain ends input n cmds).map (·.seq) = List.range' n cmds.length := by
  induction cmds generalizing input n with
  | nil => rfl
  | cons c rest ih =>
    rw [chain, List.map_cons, ih, List.length_cons, List.range'_succ]
    rfl

theorem groupChains_seqs (n : Nat) (groups : List (List Command)) :
    (groupChains n groups).flatten.map (·.seq) = List.range' n groups.flatten.length := by
  induction groups generalizing n with
  | nil => rfl
  | cons group rest ih =>
    rw [groupChains, List.flatten_cons, List.map_append, chain_seqs, ih, List.flatten_cons,
      List.length_append, List.range'_append_1]

/-- The processes of a pipe have numbers of their own. -/
theorem PipePlan.nodup_processes (plan : PipePlan) (n : Nat) :
    (plan.tailChain n ++ (plan.groupChains n).flatten).Nodup := by
  -- the numbers are given without a gap, first to the tail and then to the groups
  have hm : (plan.tailChain n ++ (plan.groupChains n).flatten).map (·.seq) =
      List.range' n (plan.tail.length + plan.groups.flatten.length) := by
    rw [List.map_append, PipePlan.tailChain, chain_seqs, PipePlan.groupChains, groupChains_seqs,
      List.range'_append_1]
  have hd : (List.map (·.seq) (plan.tailChain n ++ (plan.groupChains n).flatten)).Nodup := by
    rw [hm]
    exact List.nodup_range'
  exact List.Pairwise.of_map (·.seq) (fun _ _ h hp => h (congrArg (·.seq) hp)) hd

/-! ## The main result -/

/-- Every run of a pipe whose tail and groups are not empty goes one of the ways that
`PipeLifecycle` lists, on every host. Processes are started in the order of the
plan, none twice, and every one that was started is either waited for or killed,
once. The record can be replayed: the processes are those that the host has launched, the
statuses are its answers when it was asked to wait, and what was killed it was asked to
kill. -/
theorem runPipe_lifecycle {σ : Type} (setup : RunSetup σ) (plan : PipePlan)
    (hd : setup.dryRun = false) (ht : plan.tail ≠ []) (hg : ∀ group ∈ plan.groups, group ≠ [])
    (s : RunState σ) :
    ∃ es, ((Run.runPipe setup plan).result s).2.events = s.events ++ es ∧
      Replay setup es s.machine ((Run.runPipe setup plan).result s).2.machine ∧
      PipeLifecycle (plan.tailChain s.next) (plan.groupChains s.next) (lifecycle es)
        ((Run.runPipe setup plan).result s).1 ∧
      started es <+: plan.tailChain s.next ++ (plan.groupChains s.next).flatten ∧
      (awaited es ++ killed es).Nodup ∧ (started es).Perm (awaited es ++ killed es) := by
  obtain ⟨es, hes, hreplay, htr⟩ := Run.runPipe_recorded setup plan hd ht hg s
  have hl := htr.lifecycle
  rw [lifecycle_outline] at hl
  have hpre := hl.started_isPrefix
  have hperm := hl.started_perm
  rw [started_lifecycle] at hpre
  rw [started_lifecycle, awaited_lifecycle, killed_lifecycle] at hperm
  have hnd : (started es).Nodup := (plan.nodup_processes s.next).sublist hpre.sublist
  exact ⟨es, hes, hreplay, hl, hpre, hperm.nodup_iff.mp hnd, hperm⟩

/-- A machine without a state. It refuses to launch the processes in `refusing`; those
in `failing` are not successful. -/
def Host.scripted (refusing failing : List Nat) : Host Unit where
  home := ⟨"/home"⟩
  readText _ _ := .error .notFound
  isPresent _ _ := false
  isFile _ _ := false
  which _ _ := none
  createDirs _ _ := (.ok (), ())
  createTemporary _ _ := (.ok ⟨"/tmp/work"⟩, ())
  createFile _ _ := (.ok ⟨0⟩, ())
  duplicate log _ := (.ok log, ())
  remove _ _ := (.error .notFound, ())
  capture _ _ _ := (.error .notFound, ())
  launch l _ := (if refusing.contains l.seq then .error .notFound else .ok (), ())
  connect _ _ _ := ()
  join _ _ _ := ()
  bridge _ _ _ := ()
  discard _ _ := ()
  drain _ _ _ := (true, ())
  closeInput _ _ := ()
  await seq _ := (.known (if failing.contains seq then .exited 1 else .exited 0), ())
  kill _ _ := ()

/-- A command without arguments, named after its program. -/
def sampleCommand (program : String) : Command := ⟨⟨program, "stage"⟩, [program], none⟩

/-- A tail of two stages that three groups feed. -/
def samplePlan : PipePlan where
  name := ⟨"mix", "pipe"⟩
  groups := [[sampleCommand "first"], [sampleCommand "second", sampleCommand "filter"],
    [sampleCommand "third"]]
  tail := [sampleCommand "join", sampleCommand "store"]

/-- A run on a scripted machine. -/
def sampleSetup (refusing failing : List Nat) : RunSetup Unit :=
  ⟨.scripted refusing failing, ⟨⟨"/work"⟩, ⟨"/work/logs"⟩, false⟩, false⟩

/-- The second group cannot be started, so its first process is killed. The first
group and the tail are waited for. -/
theorem runPipe_lifecycle_sample :
    let s : RunState Unit := ⟨.empty, 1, (), []⟩
    let done := (Run.runPipe (sampleSetup [5] []) samplePlan).result s
    (awaited done.2.events).map (·.seq) = [3, 1, 2] ∧
    (killed done.2.events).map (·.seq) = [4] ∧
    ∃ es, done.2.events = s.events ++ es ∧
      Replay (sampleSetup [5] []) es s.machine done.2.machine ∧
      PipeLifecycle (samplePlan.tailChain 1) (samplePlan.groupChains 1) (lifecycle es) done.1 ∧
      started es <+: samplePlan.tailChain 1 ++ (samplePlan.groupChains 1).flatten ∧
      (awaited es ++ killed es).Nodup ∧ (started es).Perm (awaited es ++ killed es) :=
  ⟨by decide +kernel, by decide +kernel,
    runPipe_lifecycle (sampleSetup [5] []) samplePlan rfl (by decide) (by decide) _⟩

end MediaPipeline
