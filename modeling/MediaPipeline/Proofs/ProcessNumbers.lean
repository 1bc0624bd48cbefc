import MediaPipeline.Proofs.LogNames
import MediaPipeline.Proofs.PipeLifecycle
import MediaPipeline.Proofs.RunCongruence
import Mathlib.Data.List.Nodup

/-!
# The numbers and the logs of processes

Every process that a run starts, or tries to start, takes the next number, and its log is
named after that number. `Births` says what the record of a run looks like as far as this
goes, number by number; every run, whatever becomes of it, has such a record. Only the last
number can belong to a process that was refused, so the numbers of the processes that were
started have no gap (`Gapless`); and no two logs of a run are the same file. The main result
is `pipeline_numbered`.
-/

namespace MediaPipeline

/-! ## The record of processes that are given numbers -/

/-- Whether an event belongs to the start of a process. -/
def Event.isBirth : Event → Bool
  | .logged .. | .refused .. | .started .. => true
  | _ => false

/-- The part of a record that is about starts of processes. -/
def births (es : List Event) : List Event := es.filter Event.isBirth

/-- The numbers that were given to processes, started or refused, in order. -/
def numbers (es : List Event) : List Nat :=
  es.filterMap fun | .started p => some p.seq | .refused p _ => some p.seq | _ => none

/-- The logs that were opened, in order, with the numbers of their processes. -/
def openedLogs (es : List Event) : List (Nat × Path) :=
  es.filterMap fun | .logged seq log => some (seq, log) | _ => none

/-- What becomes of the process that gets a number: its log may not be opened, or it may
not be started after that, and then it is refused; or it is started. -/
inductive Birth (w : Workspace) (seq : Nat) : List Event → Prop
  | unlogged {p : LiveProcess} {e : OsError} (hp : p.seq = seq) : Birth w seq [.refused p e]
  | refused {p : LiveProcess} {e : OsError} (hp : p.seq = seq) :
    Birth w seq [.logged seq (w.diagnosticLog seq p.program), .refused p e]
  | started {p : LiveProcess} (hp : p.seq = seq) :
    Birth w seq [.logged seq (w.diagnosticLog seq p.program), .started p]

/-- The numbers from the first one up to the second, without it, are given one by one. -/
inductive Births (w : Workspace) : Nat → List Event → Nat → Prop
  | none {n : Nat} : Births w n [] n
  | next {m n : Nat} {es fs : List Event} (h : Birth w m es) (hs : Births w (m + 1) fs n) :
    Births w m (es ++ fs) n

section Views

variable (es fs : List Event)

@[simp] theorem births_append : births (es ++ fs) = births es ++ births fs := List.filter_append ..

@[simp] theorem numbers_append : numbers (es ++ fs) = numbers es ++ numbers fs :=
  List.filterMap_append ..

@[simp] theorem openedLogs_append : openedLogs (es ++ fs) = openedLogs es ++ openedLogs fs :=
  List.filterMap_append ..

@[simp] theorem numbers_births : numbers (births es) = numbers es :=
  filterMap_filter_of (fun e he => by cases e <;> first | rfl | cases he) es

@[simp] theorem openedLogs_births : openedLogs (births es) = openedLogs es :=
  filterMap_filter_of (fun e he => by cases e <;> first | rfl | cases he) es

@[simp] theorem started_births : started (births es) = started es :=
  filterMap_filter_of (fun e he => by cases e <;> first | rfl | cases he) es

@[simp] theorem numbers_lifecycle : numbers (lifecycle es) = numbers es :=
  filterMap_filter_of (fun e he => by cases e <;> first | rfl | cases he) es

@[simp] theorem numbers_outline : numbers (outline es) = numbers es :=
  filterMap_filter_of (fun e he => by cases e <;> first | rfl | cases he) es

@[simp] theorem numbers_started (ps : List LiveProcess) :
    numbers (ps.map .started) = ps.map (·.seq) := by
  simp [numbers]

@[simp] theorem numbers_finishes (ends : List (LiveProcess × Ending)) :
    numbers (finishes ends) = [] := by
  simp [numbers, finishes]

@[simp] theorem numbers_refusal (before : List LiveProcess) (p : LiveProcess) (e : OsError) :
    numbers (refusal before p e) = before.map (·.seq) ++ [p.seq] := by
  simp [numbers, refusal]

end Views

namespace Births

variable {w : Workspace} {l m n : Nat} {es fs : List Event}

theorem append (h : Births w l es m) (g : Births w m fs n) : Births w l (es ++ fs) n := by
  induction h with
  | none => exact g
  | next hb _ ih =>
    rw [List.append_assoc]
    exact .next hb (ih g)

theorem one (h : Birth w n es) : Births w n es (n + 1) := by
  rw [← List.append_nil es]
  exact .next h .none

/-- The numbers are given in order, none twice and none left out. -/
theorem numbers_eq (h : Births w m es n) : numbers es = List.range' m (n - m) ∧ m ≤ n := by
  induction h with
  | none => simp [numbers]
  | @next m n es fs hb _ ih =>
    obtain ⟨hfs, hle⟩ := ih
    have hes : numbers es = [m] := by cases hb <;> simp_all [numbers]
    have hlength : n - m = n - (m + 1) + 1 := by omega
    rw [numbers_append, hes, hfs, hlength, List.range'_succ]
    exact ⟨rfl, by omega⟩

/-- A log is opened for a number at most once. -/
theorem openedLogs_sublist (h : Births w m es n) : ((openedLogs es).map (·.1)).Sublist (numbers es) := by
  induction h with
  | none => exact .slnil
  | @next m n es fs hb _ ih =>
    rw [openedLogs_append, numbers_append, List.map_append]
    refine .append ?_ ih
    cases hb <;> simp_all [openedLogs, numbers]

theorem openedLogs_named (h : Births w m es n) :
    ∀ log ∈ openedLogs es, ∃ program, log.2 = w.diagnosticLog log.1 program := by
  induction h with
  | none => exact fun log hlog => absurd hlog List.not_mem_nil
  | next hb _ ih =>
    rw [openedLogs_append]
    refine List.forall_mem_append.mpr ⟨?_, ih⟩
    cases hb <;> simp [openedLogs]

/-- A process that is started has its log. -/
theorem started_logged (h : Births w m es n) :
    ∀ p ∈ started es, (p.seq, w.diagnosticLog p.seq p.program) ∈ openedLogs es := by
  induction h with
  | none => exact fun p hp => absurd hp List.not_mem_nil
  | next hb _ ih =>
    rw [started_append, openedLogs_append]
    refine List.forall_mem_append.mpr ⟨?_, fun p hp => List.mem_append_right _ (ih p hp)⟩
    cases hb <;> simp_all [MediaPipeline.started, openedLogs]

/-- The logs are different files. -/
theorem openedLogs_nodup (h : Births w m es n) : ((openedLogs es).map (·.2.parts)).Nodup := by
  have hseqs : ((openedLogs es).map (·.1)).Nodup := by
    refine List.Nodup.sublist h.openedLogs_sublist ?_
    rw [h.numbers_eq.1]
    exact List.nodup_range'
  refine List.Nodup.map_on ?_ (List.Nodup.of_map _ hseqs)
  -- The name of a log tells its number, and a number has one log.
  intro a ha b hb hab
  obtain ⟨program, hp⟩ := h.openedLogs_named a ha
  obtain ⟨other, ho⟩ := h.openedLogs_named b hb
  rw [hp, ho, Workspace.parts_diagnosticLog, Workspace.parts_diagnosticLog] at hab
  have hname := PathPart.name.inj (List.singleton_inj.mp (List.append_cancel_left hab))
  exact List.inj_on_of_nodup_map hseqs ha hb (Workspace.logName_injective hname)

end Births

/-! ## What a run does about numbers -/

namespace Run

variable {σ α β : Type}

/-- From `s` a part of a run comes to `r` without taking a number, and `bs` is the part of
its record that is about starts of processes. -/
structure Bears (act : Run σ α) (s : RunState σ) (r : Except Failure α) (bs : List Event) :
    Prop where
  outcome : (act.result s).1 = r
  next : (act.result s).2.next = s.next
  events : ∃ new, (act.result s).2.events = s.events ++ new ∧ births new = bs

namespace Bears

variable {act : Run σ α} {f : α → Run σ β} {s : RunState σ} {bs cs : List Event}

theorem pure (a : α) (s : RunState σ) : (pure a : Run σ α).Bears s (.ok a) [] :=
  ⟨rfl, rfl, ⟨[], by simp, rfl⟩⟩

theorem throw (f : Failure) (s : RunState σ) : (throw f : Run σ α).Bears s (.error f) [] :=
  ⟨rfl, rfl, ⟨[], by simp, rfl⟩⟩

theorem record (e : Event) (s : RunState σ) : (record e).Bears s (.ok ()) (births [e]) :=
  ⟨rfl, rfl, ⟨[e], rfl, rfl⟩⟩

theorem machine (f : σ → α × σ) (s : RunState σ) :
    (machine f).Bears s (.ok (f s.machine).1) [] := ⟨rfl, rfl, ⟨[], by simp, rfl⟩⟩

theorem bind {a : α} {r : Except Failure β} (h : act.Bears s (.ok a) bs)
    (g : (f a).Bears (act.result s).2 r cs) : (act >>= f).Bears s r (bs ++ cs) := by
  have hw : (act >>= f).result s = (f a).result (act.result s).2 := by
    rw [result_bind, show act.result s = (.ok a, (act.result s).2) from Prod.ext h.outcome rfl]
  obtain ⟨new, hnew, hbs⟩ := h.events
  obtain ⟨later, hlater, hcs⟩ := g.events
  exact ⟨by rw [hw, g.outcome], by rw [hw, g.next, h.next],
    new ++ later, by rw [hw, hlater, hnew, List.append_assoc], by rw [births_append, hbs, hcs]⟩

theorem bind_error {e : Failure} (h : act.Bears s (.error e) bs) :
    (act >>= f).Bears s (.error e) bs := by
  have hw : (act >>= f).result s = (.error e, (act.result s).2) := by
    rw [result_bind, show act.result s = (.error e, (act.result s).2) from Prod.ext h.outcome rfl]
  exact ⟨by rw [hw], by rw [hw, h.next], by rw [hw]; exact h.events⟩

end Bears

/-- A part of the start of `p` that goes on or refuses `p`. -/
def Tries (p : LiveProcess) (act : Run σ α) : Prop :=
  ∀ s, (∃ a, act.Bears s (.ok a) []) ∨ ∃ f e, act.Bears s (.error f) [.refused p e]

namespace Tries

variable {p : LiveProcess} {act : Run σ α} {f : α → Run σ β}

theorem pure (a : α) : Tries p (pure a : Run σ α) := fun s => .inl ⟨a, .pure a s⟩

theorem bind (h : Tries p act) (g : ∀ a, Tries p (f a)) : Tries p (act >>= f) := by
  intro s
  obtain ⟨a, ha⟩ | ⟨e, he⟩ := h s
  · obtain ⟨b, hb⟩ | ⟨f, e, he⟩ := g a (act.result s).2
    · exact .inl ⟨b, ha.bind hb⟩
    · exact .inr ⟨f, e, ha.bind he⟩
  · exact .inr ⟨e, he.imp fun _ he => he.bind_error⟩

theorem starting (f : σ → Except OsError α × σ) : Tries p (starting p f) := fun s => by
  have hm := Bears.machine f s
  unfold Run.starting
  rcases hr : (f s.machine).1 with e | a
  · rw [hr] at hm
    exact .inr ⟨_, e, hm.bind ((Bears.record (.refused p e) _).bind (.throw _ _))⟩
  · rw [hr] at hm
    exact .inl ⟨a, hm.bind (.pure a _)⟩

theorem openOutput (setup : RunSetup σ) (log : FileHandle) : Tries p (openOutput setup p log) := by
  unfold Run.openOutput
  cases p.redirect with
  | pipe => exact .pure _
  | log => exact (starting _).bind fun _ => .pure _
  | file path =>
    have hparent : Tries p (makeParent setup p path) := by
      unfold Run.makeParent
      cases path.parent? with
      | none => exact .pure ()
      | some parent => exact .starting _
    exact hparent.bind fun _ => (starting _).bind fun _ => .pure _

end Tries

/-- A start that is refused is refused before its log is open or afterwards. -/
theorem launch_bears (setup : RunSetup σ) (p : LiveProcess) (s : RunState σ) :
    (∃ f e, (launch setup p).Bears s (.error f) [.refused p e]) ∨
    (∃ f e, (launch setup p).Bears s (.error f)
      [.logged p.seq (p.log setup.workspace), .refused p e]) ∨
    (launch setup p).Bears s (.ok ()) [.logged p.seq (p.log setup.workspace)] := by
  unfold launch
  obtain ⟨log, hlog⟩ | ⟨f, e, he⟩ :=
    Tries.starting (p := p) (setup.host.createFile (p.log setup.workspace)) s
  · have hrest : Tries p (do
        let output ← openOutput setup p log
        record (.launched p.command.program p.command.arguments)
        starting p (setup.host.launch (p.request setup.workspace output log))) :=
      (Tries.openOutput setup log).bind fun _ =>
        Tries.bind (fun s => .inl ⟨(), .record _ s⟩) fun _ => .starting _
    obtain ⟨_, hr⟩ | ⟨f, e, he⟩ := hrest _
    · exact .inr (.inr (hlog.bind ((Bears.record _ _).bind hr)))
    · exact .inr (.inl ⟨f, e, hlog.bind ((Bears.record _ _).bind he)⟩)
  · exact .inl ⟨f, e, he.bind_error⟩

/-- Between two states the numbers from the next one of the first to the next one of the
second were given to processes, one by one. -/
def Counts (w : Workspace) (s t : RunState σ) : Prop :=
  ∃ es, t.events = s.events ++ es ∧ Births w s.next (births es) t.next

theorem counts_start (setup : RunSetup σ) (c : Command) (strategy : Strategy)
    (input : ProcessInput) (redirect : Redirect) :
    Within (Counts setup.workspace) (start setup c strategy input redirect) := by
  intro s
  unfold start
  rw [result_bind, result_takeNumber]
  dsimp only
  generalize hp : c.process s.next strategy input redirect = p
  have hseq : p.seq = s.next := by rw [← hp, Command.process]
  -- The number is taken before anything can fail, and nothing after that takes another one.
  suffices hb : ∃ r bs, Birth setup.workspace s.next bs ∧ (do
      launch setup p
      record (.started p)
      pure p : Run σ LiveProcess).Bears { s with next := s.next + 1 } r bs by
    obtain ⟨r, bs, hbs, hb⟩ := hb
    obtain ⟨es, hes, hborn⟩ := hb.events
    refine ⟨es, hes, ?_⟩
    rw [hborn, hb.next]
    exact .one hbs
  rw [← hseq]
  obtain ⟨f, e, he⟩ | ⟨f, e, he⟩ | hok :=
    launch_bears setup p { s with next := p.seq + 1 }
  · exact ⟨_, _, .unlogged rfl, he.bind_error⟩
  · exact ⟨_, _, .refused rfl, he.bind_error⟩
  · exact ⟨_, _, .started rfl, hok.bind ((Bears.record _ _).bind (.pure _ _))⟩

/-- Whatever a run does, numbers are given one by one. -/
theorem counts_effect (setup : RunSetup σ) :
    ProcessEffect setup (Counts setup.workspace) :=
  .of_blind
    { write := fun s store => ⟨[], by simp, .none⟩
      enter := fun s operation scope => ⟨[.entered operation scope], rfl, .none⟩
      trans := fun ⟨es, ht, hes⟩ ⟨fs, hu, hfs⟩ =>
        ⟨es ++ fs, by rw [hu, ht, List.append_assoc], births_append es fs ▸ hes.append hfs⟩ }
    (counts_start setup) (fun s m => ⟨[], by simp, .none⟩) fun s e he => by
      refine ⟨[e], rfl, ?_⟩
      have hb : births [e] = [] := by cases e <;> first | rfl | cases he
      rw [hb]
      exact .none

end Run

/-! ## No number is lost before a failure -/

/-- Every number in a record belongs to a process that was started, except perhaps the last,
and that only if the part of the run that left the record has failed. -/
def Gapless (es : List Event) (ok : Bool) : Prop :=
  ∃ last, numbers es = (started es).map (·.seq) ++ last ∧ (ok = true → last = [])

namespace Gapless

variable {es fs : List Event} {ok : Bool}

theorem of_eq (h : numbers es = (started es).map (·.seq)) : Gapless es ok :=
  ⟨[], by rw [h, List.append_nil], fun _ => rfl⟩

theorem append (h : Gapless es true) (g : Gapless fs ok) : Gapless (es ++ fs) ok := by
  obtain ⟨last, hes, hlast⟩ := h
  obtain ⟨later, hfs, hlater⟩ := g
  refine ⟨later, ?_, hlater⟩
  rw [numbers_append, started_append, List.map_append, hes, hlast rfl, hfs, List.append_nil,
    List.append_assoc]

/-- What takes no number may follow also after a failure. -/
theorem append_quiet (h : Gapless es ok) (hnumbers : numbers fs = []) (hstarted : started fs = []) :
    Gapless (es ++ fs) ok := by
  obtain ⟨last, hes, hlast⟩ := h
  refine ⟨last, ?_, hlast⟩
  rw [numbers_append, started_append, hnumbers, hstarted, List.append_nil, List.append_nil, hes]

theorem outline_iff : Gapless (outline es) ok ↔ Gapless es ok := by
  rw [Gapless, numbers_outline, started_outline, ← Gapless]

theorem lifecycle_iff : Gapless (lifecycle es) ok ↔ Gapless es ok := by
  rw [Gapless, numbers_lifecycle, started_lifecycle, ← Gapless]

theorem finishes (ends : List (LiveProcess × Ending)) :
    Gapless (MediaPipeline.finishes ends) ok :=
  of_eq (by rw [numbers_finishes, started_finishes, List.map_nil])

theorem starts (ps : List LiveProcess) : Gapless (ps.map .started) ok :=
  of_eq (by rw [numbers_started, started_started])

theorem served (ends : List (LiveProcess × Ending)) : Gapless (MediaPipeline.served ends) ok :=
  (starts _).append (finishes ends)

theorem groups (done : List (List (LiveProcess × Ending))) :
    Gapless (done.flatMap MediaPipeline.served) ok := by
  induction done with
  | nil => exact of_eq rfl
  | cons ends done ih => exact (served ends).append ih

theorem refusal (before : List LiveProcess) (p : LiveProcess) (e : OsError) :
    Gapless (refusal before p e) false :=
  ⟨[p.seq], by rw [numbers_refusal, started_refusal], fun h => by cases h⟩

end Gapless

theorem GroupsStop.gapless {groups : List (List LiveProcess)}
    {done : List (List (LiveProcess × Ending))} {stop : List Event} {r : Except Failure Unit}
    (h : GroupsStop groups done stop r) : Gapless stop r.isOk := by
  cases h with
  | completed | failed => exact .of_eq rfl
  | refused => exact .refusal ..

theorem PipeLifecycle.gapless {tail : List LiveProcess} {groups : List (List LiveProcess)}
    {es : List Event} {r : Except Failure Unit} (h : PipeLifecycle tail groups es r) :
    Gapless es r.isOk := by
  cases h with
  | refused => exact .refusal ..
  | alone => exact .served _
  | @fed done stop _ ends _ _ hs =>
    exact (((Gapless.starts tail).append (.groups done)).append hs.gapless).append_quiet
      (numbers_finishes ends) (started_finishes ends)

namespace Run

variable {σ α β : Type}

/-- A part of a run leaves a record without gaps. -/
def Orderly (act : Run σ α) : Prop :=
  ∀ s, ∃ es, (act.result s).2.events = s.events ++ es ∧ Gapless es (act.result s).1.isOk

theorem isOk_mapError (f : Failure → Failure) (r : Except Failure α) :
    (r.mapError f).isOk = r.isOk := by
  cases r <;> rfl

namespace Orderly

theorem of_events {act : Run σ α} (h : ∀ s, (act.result s).2.events = s.events) : Orderly act :=
  fun s => ⟨[], by rw [h s, List.append_nil], .of_eq rfl⟩

theorem of_yields {act : Run σ α} (h : ∀ s, ∃ r k es, act.Yields s r k es ∧ Gapless es r.isOk) :
    Orderly act := by
  intro s
  obtain ⟨r, k, es, hy, hg⟩ := h s
  obtain ⟨new, hnew, ho⟩ := hy.events
  rw [← ho, Gapless.outline_iff, ← hy.outcome] at hg
  exact ⟨new, hnew, hg⟩

theorem bind {act : Run σ α} {f : α → Run σ β} (h : Orderly act) (g : ∀ a, Orderly (f a)) :
    Orderly (act >>= f) := by
  intro s
  obtain ⟨es, hes, hgapless⟩ := h s
  rw [result_bind]
  rcases hr : act.result s with ⟨e | a, t⟩
  · rw [hr] at hes hgapless
    exact ⟨es, hes, hgapless⟩
  · rw [hr] at hes hgapless
    obtain ⟨fs, hfs, hrest⟩ := g a t
    exact ⟨es ++ fs, by rw [hfs, hes, List.append_assoc], hgapless.append hrest⟩

theorem congruence : Congruence fun α (act _ : Run σ α) => Orderly act where
  pure _ := of_events fun _ => rfl
  fail _ := of_events fun _ => rfl
  store := of_events fun _ => rfl
  onStore act := of_events fun s => by rw [result_onStore]
  modifyStore _ := of_events fun _ => rfl
  entered operation scope s := ⟨[.entered operation scope], rfl, .of_eq rfl⟩
  placed operation scope h s := by
    obtain ⟨es, hes, hgapless⟩ := h s
    rw [result_placed]
    exact ⟨es, hes, by rwa [isOk_mapError]⟩
  bind := bind

variable (setup : RunSetup σ)

theorem start (c : Command) (strategy : Strategy) (input : ProcessInput) (redirect : Redirect) :
    Orderly (start setup c strategy input redirect) :=
  of_yields fun s => by
    obtain hs | ⟨e, hs⟩ := start_yields setup c strategy input redirect s rfl
    · exact ⟨_, _, _, hs, .starts [_]⟩
    · exact ⟨_, _, _, hs, .refusal [] _ _⟩

theorem once (c : Command) : Orderly (once setup c) := by
  unfold Run.once
  cases setup.dryRun with
  | true => exact fun s => ⟨[.skipped c .once], rfl, .of_eq rfl⟩
  | false =>
    refine (start setup c _ _ _).bind fun p => bind (of_yields fun s => ?_) fun status =>
      of_yields fun s => ⟨_, _, _, requireSuccess_yields p status s, .of_eq rfl⟩
    obtain ⟨status, h⟩ := await_yields setup p s
    exact ⟨_, _, _, h, .finishes [(p, status)]⟩

theorem runPipe (plan : PipePlan) : Orderly (runPipe setup plan) := by
  apply runPipe_cases setup plan
  case nothing => exact of_events fun _ => rfl
  case emptyGroup => exact fun _ => of_events fun _ => rfl
  case reported =>
    intro _ s
    refine ⟨_, by rw [result_reportAll], .of_eq ?_⟩
    generalize plan.groups.flatten ++ plan.tail = cmds
    simp [numbers, started]
  case traced =>
    intro _ htraced
    refine of_yields fun s => ?_
    obtain ⟨r, k, es, hy, htrace⟩ := htraced s
    exact ⟨r, k, es, hy, Gapless.lifecycle_iff.mp htrace.lifecycle.gapless⟩

theorem execute (steps : Steps) (scope : Scope) : Orderly (execute setup scope steps) :=
  congruence.execute rfl (once setup) (runPipe setup) steps scope

end Orderly

/-! ## The main result -/

/-- The record of a run consists of processes that are given numbers one by one, and has
no gap. -/
theorem pipeline_counts (setup : RunSetup σ) (cleanup : Bool) (p : Pipeline) (s : RunState σ) :
    ∃ es n ok, ((pipeline setup cleanup p).result s).2.events = s.events ++ es ∧
      Births setup.workspace firstSeq (births es) n ∧ Gapless es ok := by
  rw [result_pipeline]
  rcases p.compile with f | steps
  · exact ⟨[], firstSeq, true, (List.append_nil _).symm, .none, .of_eq rfl⟩
  · obtain ⟨es, hes, hbirths⟩ := (counts_effect setup).steps steps .global { s with next := firstSeq }
    obtain ⟨fs, hfs, hgapless⟩ := Orderly.execute setup steps .global { s with next := firstSeq }
    -- Both are about the same record.
    obtain rfl : es = fs := List.append_cancel_left (hes.symm.trans hfs)
    dsimp only at hes hbirths hgapless ⊢
    generalize (execute setup .global steps).result { s with next := firstSeq } = r
      at hes hbirths hgapless ⊢
    cases cleanup with
    | false => exact ⟨es, r.2.next, r.1.isOk, hes, hbirths, hgapless⟩
    | true =>
      rw [if_pos rfl, result_cleanUp]
      generalize Cleanup.perform .. = cleaned
      refine ⟨es ++ [.cleaned cleaned.1], r.2.next, r.1.isOk, ?_, ?_, hgapless.append_quiet rfl rfl⟩
      · rw [← List.append_assoc, ← hes]
      · rw [births_append]
        exact hbirths.append .none

/-- In every run of a pipeline, whatever becomes of it, the processes that are started have
the numbers from the first one on, without a gap, in the order in which they are started.
Every one of them has its log; and all logs that are opened, also those of processes that
are refused then, are different files that lie in the log directory itself. The record can
be replayed, so these are the files that the machine was asked to create. -/
theorem pipeline_numbered (setup : RunSetup σ) (cleanup : Bool) (p : Pipeline) (s : RunState σ) :
    ∃ es, ((pipeline setup cleanup p).result s).2.events = s.events ++ es ∧
      Replay setup es s.machine ((pipeline setup cleanup p).result s).2.machine ∧
      (started es).map (·.seq) = List.range' 1 (started es).length ∧
      (∀ q ∈ started es, (q.seq, setup.workspace.diagnosticLog q.seq q.program) ∈ openedLogs es) ∧
      ((openedLogs es).map (·.2.parts)).Nodup ∧
      ∀ log ∈ openedLogs es, ∃ name,
        log.2.parts = setup.workspace.logs.parts ++ [.name name] := by
  obtain ⟨es, n, ok, hes, hbirths, last, hgapless, -⟩ := pipeline_counts setup cleanup p s
  obtain ⟨all, hall, hreplay⟩ := pipeline_replays setup cleanup p s
  obtain rfl : es = all := List.append_cancel_left (hes.symm.trans hall)
  have hlogged := hbirths.started_logged
  have hnodup := hbirths.openedLogs_nodup
  have hnamed := hbirths.openedLogs_named
  have hnumbers := hbirths.numbers_eq.1
  rw [started_births, openedLogs_births] at hlogged
  rw [openedLogs_births] at hnodup hnamed
  rw [numbers_births, hgapless] at hnumbers
  refine ⟨es, hes, hreplay, ?_, hlogged, hnodup, fun log hlog => ?_⟩
  · obtain ⟨k, -, hk, -⟩ := List.range'_eq_append_iff.mp hnumbers.symm
    have hlength := congrArg List.length hk
    rw [List.length_map, List.length_range'] at hlength
    rw [hk, hlength, firstSeq]
  · obtain ⟨program, hprogram⟩ := hnamed log hlog
    exact ⟨_, by rw [hprogram, Workspace.parts_diagnosticLog]⟩

end Run

end MediaPipeline
