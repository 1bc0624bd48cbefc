import MediaPipeline.Run.Pipe

/-!
# What a pipe does

The record of a pipe that is run, as a relation that has one rule for each way a
part of it can go: a chain is started or refused, a group ends well or badly, the
groups go on or stop. `runPipe_trace` says that every run of a pipe, on any host,
is described by these rules. What the host does between the recorded events is
left out; that it may do anything there is the point.
-/

namespace MediaPipeline

/-! ## Outlines -/

/-- Whether an event only prepares the start of a process. -/
def Event.isPreparation : Event → Bool
  | .logged .. | .launched .. => true
  | _ => false

/-- A record without what only prepares starts. -/
def outline (es : List Event) : List Event := es.filter (!·.isPreparation)

@[simp] theorem outline_append (es fs : List Event) :
    outline (es ++ fs) = outline es ++ outline fs := List.filter_append ..

/-- A view does not see what a filter drops that keeps everything it looks at. -/
theorem filterMap_filter_of {α : Type} {f : Event → Option α} {p : Event → Bool}
    (h : ∀ e, p e = false → f e = none) (es : List Event) :
    (es.filter p).filterMap f = es.filterMap f := by
  rw [List.filterMap_filter]
  congr 1
  funext e
  cases hp : p e with
  | true => rfl
  | false => exact (h e hp).symm

/-- From `s` a part of a run comes to `r`: it takes `k` numbers, its record is `es` in
outline, and the store stays. -/
structure Run.Yields {σ α : Type} (act : Run σ α) (s : RunState σ) (r : Except Failure α)
    (k : Nat) (es : List Event) : Prop where
  outcome : (act.result s).1 = r
  next : (act.result s).2.next = s.next + k
  events : ∃ new, (act.result s).2.events = s.events ++ new ∧ outline new = es
  store : (act.result s).2.store = s.store

namespace Run.Yields

variable {σ α β : Type} {act : Run σ α} {f : α → Run σ β} {s : RunState σ} {j k n : Nat}
  {es fs gs : List Event}

theorem pure (a : α) (s : RunState σ) : (pure a : Run σ α).Yields s (.ok a) 0 [] :=
  ⟨rfl, rfl, ⟨[], by simp, rfl⟩, rfl⟩

theorem throw (e : Failure) (s : RunState σ) :
    (throw e : Run σ α).Yields s (.error e) 0 [] := ⟨rfl, rfl, ⟨[], by simp, rfl⟩, rfl⟩

theorem resume (outcome : Except Failure α) (s : RunState σ) :
    (resume outcome).Yields s outcome 0 [] := by
  cases outcome with
  | ok a => exact .pure a s
  | error e => exact .throw e s

theorem record (e : Event) (s : RunState σ) :
    (record e).Yields s (.ok ()) 0 (outline [e]) := ⟨rfl, rfl, ⟨[e], rfl, rfl⟩, rfl⟩

theorem machine (f : σ → α × σ) (s : RunState σ) :
    (machine f).Yields s (.ok (f s.machine).1) 0 [] := ⟨rfl, rfl, ⟨[], by simp, rfl⟩, rfl⟩

theorem adjust (f : σ → σ) (s : RunState σ) : (adjust f).Yields s (.ok ()) 0 [] :=
  ⟨rfl, rfl, ⟨[], by simp, rfl⟩, rfl⟩

theorem takeNumber (s : RunState σ) : takeNumber.Yields s (.ok s.next) 1 [] :=
  ⟨rfl, rfl, ⟨[], by simp, rfl⟩, rfl⟩

/-- A part that ends in the state of another has the same record. -/
theorem carry {other : Run σ β} {r : Except Failure α} {q : Except Failure β}
    (h : act.Yields s r k es) (ho : other.result s = (q, (act.result s).2)) :
    other.Yields s q k es :=
  ⟨by rw [ho], by rw [ho, h.next], by rw [ho]; exact h.events, by rw [ho, h.store]⟩

/-- A part that goes on where another ended has both records, one after the other. -/
theorem follow {whole more : Run σ β} {r : Except Failure α} {q : Except Failure β}
    (h : act.Yields s r k es) (g : more.Yields (act.result s).2 q j fs)
    (hw : whole.result s = more.result (act.result s).2) (hn : k + j = n)
    (hes : es ++ fs = gs) : whole.Yields s q n gs := by
  obtain ⟨new, hnew, ho⟩ := h.events
  obtain ⟨later, hlater, hq⟩ := g.events
  refine ⟨?_, ?_, ⟨new ++ later, ?_, ?_⟩, ?_⟩
  · rw [hw, g.outcome]
  · rw [hw, g.next, h.next, Nat.add_assoc, hn]
  · rw [hw, hlater, hnew, List.append_assoc]
  · rw [outline_append, ho, hq, hes]
  · rw [hw, g.store, h.store]

theorem result_eq {r : Except Failure α} (h : act.Yields s r k es) :
    act.result s = (r, (act.result s).2) := Prod.ext h.outcome rfl

theorem bind {a : α} {r : Except Failure β} (h : act.Yields s (.ok a) k es)
    (g : (f a).Yields (act.result s).2 r j fs) (hn : k + j = n) (hes : es ++ fs = gs) :
    (act >>= f).Yields s r n gs :=
  h.follow g (by rw [result_bind, h.result_eq]) hn hes

theorem bind_error {e : Failure} (h : act.Yields s (.error e) k es) :
    (act >>= f).Yields s (.error e) k es :=
  h.carry (by rw [result_bind, h.result_eq])

/-- To say what comes of a whole, say what comes of its rest from every state that its
first part can end in. -/
theorem then_exists {a : α} {P : Except Failure β → Nat → List Event → Prop}
    (h : act.Yields s (.ok a) k es)
    (g : ∀ t : RunState σ, t.next = s.next + k →
      ∃ r j fs, (f a).Yields t r j fs ∧ P r (k + j) (es ++ fs)) :
    ∃ r n gs, (act >>= f).Yields s r n gs ∧ P r n gs := by
  obtain ⟨r, j, fs, hf, hP⟩ := g (act.result s).2 h.next
  exact ⟨r, k + j, es ++ fs, h.bind hf rfl rfl, hP⟩

theorem catch_ok {a : α} {handle : Failure → Run σ α} (h : act.Yields s (.ok a) k es) :
    (tryCatch act handle).Yields s (.ok a) k es :=
  h.carry (by rw [result_tryCatch, h.result_eq])

theorem catch_error {e : Failure} {r : Except Failure α} {handle : Failure → Run σ α}
    (h : act.Yields s (.error e) k es) (g : (handle e).Yields (act.result s).2 r j fs)
    (hn : k + j = n) (hes : es ++ fs = gs) : (tryCatch act handle).Yields s r n gs :=
  h.follow g (by rw [result_tryCatch, h.result_eq]) hn hes

theorem attempt {r : Except Failure α} (h : act.Yields s r k es) :
    (attempt act).Yields s (.ok r) k es :=
  h.carry (by rw [result_attempt, h.outcome])

end Run.Yields

/-! ## Starting -/

/-- The failure of a process that could not be started. -/
def LiveProcess.spawnFailure (p : LiveProcess) (e : OsError) : Failure :=
  .plain (.spawn p.program p.operation.render e)

/-- What the end of a process on which everything depends means. -/
def LiveProcess.verdict (p : LiveProcess) : Ending → Except Failure Unit
  | .known status =>
    if status.isSuccess then .ok ()
    else .error (.plain (.processFailed p.program p.operation.render status))
  | .unknown e => .error (.plain (.system e))

/-- The processes of a chain, of which the first gets the number `n`. -/
def chain (ends : Bool) (input : ProcessInput) (n : Nat) : List Command → List LiveProcess
  | [] => []
  | c :: rest =>
    c.process n .pipe input (Redirect.forStage c (ends && rest.isEmpty)) ::
      chain ends .pipe (n + 1) rest

/-- The record of a chain of which `p` was refused after the processes before it. -/
def refusal (before : List LiveProcess) (p : LiveProcess) (e : OsError) : List Event :=
  before.map .started ++ .refused p e :: before.map .killed

namespace Run

variable {σ α β : Type}

/-- A part of the start of `p`: it does nothing of note, or fails because `p` is
refused. -/
def Prepares (p : LiveProcess) (act : Run σ α) : Prop :=
  ∀ s, (∃ a, act.Yields s (.ok a) 0 []) ∨
    ∃ e, act.Yields s (.error (p.spawnFailure e)) 0 [.refused p e]

namespace Prepares

variable {p : LiveProcess} {act : Run σ α} {f : α → Run σ β}

theorem pure (a : α) : Prepares p (pure a : Run σ α) := fun s => .inl ⟨a, .pure a s⟩

theorem record {e : Event} (h : e.isPreparation = true) :
    Prepares p (record e : Run σ Unit) := fun s => by
  have hr := Yields.record e s
  rw [show outline [e] = [] by simp [outline, h]] at hr
  exact .inl ⟨(), hr⟩

theorem starting (f : σ → Except OsError α × σ) : Prepares p (starting p f) := fun s => by
  have hm := Yields.machine f s
  unfold Run.starting
  rcases hr : (f s.machine).1 with e | a
  · rw [hr] at hm
    exact .inr ⟨e, hm.bind ((Yields.record (.refused p e) _).bind (.throw _ _) rfl rfl) rfl rfl⟩
  · rw [hr] at hm
    exact .inl ⟨a, hm.bind (.pure a _) rfl rfl⟩

theorem bind (h : Prepares p act) (g : ∀ a, Prepares p (f a)) : Prepares p (act >>= f) := by
  intro s
  obtain ⟨a, ha⟩ | ⟨e, he⟩ := h s
  · obtain ⟨b, hb⟩ | ⟨e, he⟩ := g a (act.result s).2
    · exact .inl ⟨b, ha.bind hb rfl rfl⟩
    · exact .inr ⟨e, ha.bind he rfl rfl⟩
  · exact .inr ⟨e, he.bind_error⟩

theorem makeParent (setup : RunSetup σ) (path : Path) :
    Prepares p (makeParent setup p path) := by
  unfold Run.makeParent
  cases path.parent? with
  | none => exact .pure ()
  | some parent => exact .starting _

theorem openOutput (setup : RunSetup σ) (log : FileHandle) :
    Prepares p (openOutput setup p log) := by
  unfold Run.openOutput
  cases p.redirect with
  | pipe => exact .pure _
  | log => exact (starting _).bind fun _ => .pure _
  | file path => exact (makeParent setup path).bind fun _ => (starting _).bind fun _ => .pure _

theorem launch (setup : RunSetup σ) : Prepares p (launch setup p) :=
  (starting _).bind fun log => (record rfl).bind fun _ => (openOutput setup log).bind fun _ =>
    (record rfl).bind fun _ => starting _

end Prepares

/-- A start takes one number, and either the process is started or its refusal is
the failure. -/
theorem start_yields (setup : RunSetup σ) (c : Command) (strategy : Strategy)
    (input : ProcessInput) (redirect : Redirect) (s : RunState σ) {p : LiveProcess}
    (hp : c.process s.next strategy input redirect = p) :
    (start setup c strategy input redirect).Yields s (.ok p) 1 [.started p] ∨
    ∃ e, (start setup c strategy input redirect).Yields s (.error (p.spawnFailure e)) 1
      [.refused p e] := by
  subst hp
  unfold start
  have hn := Yields.takeNumber s
  obtain ⟨_, hl⟩ | ⟨e, hl⟩ := Prepares.launch (p := c.process s.next strategy input redirect)
    setup (takeNumber.result s).2
  · exact .inl (hn.bind (hl.bind ((Yields.record _ _).bind (.pure _ _) rfl rfl) rfl rfl) rfl rfl)
  · exact .inr ⟨e, hn.bind hl.bind_error rfl rfl⟩

theorem kill_yields (setup : RunSetup σ) (p : LiveProcess) (s : RunState σ) :
    (kill setup p).Yields s (.ok ()) 0 [.killed p] :=
  (Yields.adjust _ s).bind (.record _ _) rfl rfl

theorem killAll_yields (setup : RunSetup σ) (live : List LiveProcess) (s : RunState σ) :
    (killAll setup live).Yields s (.ok ()) 0 (live.map .killed) := by
  induction live generalizing s with
  | nil => exact .pure () s
  | cons p rest ih => exact (kill_yields setup p s).bind (ih _) rfl rfl

theorem orKill_error (setup : RunSetup σ) (live : List LiveProcess) {act : Run σ α}
    {s : RunState σ} {e : Failure} {k : Nat} {es : List Event}
    (h : act.Yields s (.error e) k es) :
    (orKill setup live act).Yields s (.error e) k (es ++ live.map .killed) :=
  h.catch_error ((killAll_yields setup live _).bind (.throw e _) rfl rfl) rfl
    (by rw [List.append_nil])

/-- The stages of a chain start in order, up to the first that is refused; then all
before it are killed. -/
theorem startChain_yields (setup : RunSetup σ) (ends : Bool) (input : ProcessInput)
    (live : List LiveProcess) (cmds : List Command) (s : RunState σ) :
    (startChain setup ends input live cmds).Yields s
      (.ok (live ++ chain ends input s.next cmds)) cmds.length
      ((chain ends input s.next cmds).map .started) ∨
    ∃ before p after e, chain ends input s.next cmds = before ++ p :: after ∧
      (startChain setup ends input live cmds).Yields s (.error (p.spawnFailure e))
        (before.length + 1)
        (before.map .started ++ .refused p e :: (live ++ before).map .killed) := by
  -- only the first stage reads `input`, and `live` grows by a stage in every round
  induction cmds generalizing input live s with
  | nil => exact .inl (by simpa [startChain, chain] using Yields.pure live s)
  | cons c rest ih =>
    unfold startChain chain
    generalize hp : c.process s.next .pipe input (Redirect.forStage c (ends && rest.isEmpty)) = p
    obtain hs | ⟨e, hs⟩ := start_yields setup c .pipe input _ s hp
    · have hk : (orKill setup live (start setup c .pipe input
          (Redirect.forStage c (ends && rest.isEmpty)))).Yields s (.ok p) 1 [.started p] :=
        hs.catch_ok
      have hn := hk.next
      obtain hr | ⟨before, q, after, e, hc, hr⟩ := ih .pipe (live ++ [p]) _
      · rw [hn, List.append_assoc] at hr
        exact .inl (hk.bind hr (Nat.add_comm ..) rfl)
      · rw [hn] at hc
        refine .inr ⟨p :: before, q, after, e, by rw [hc]; rfl, hk.bind hr ?_ ?_⟩
        · exact Nat.add_comm ..
        · simp only [List.map_cons, List.append_assoc, List.cons_append, List.nil_append]
    · refine .inr ⟨[], p, _, e, rfl, ?_⟩
      rw [List.append_nil]
      exact (orKill_error setup live hs).bind_error

end Run

/-! ## Pipes between processes -/

/-- How the neighbours of a chain are connected. -/
def links : List LiveProcess → List Wiring
  | p :: q :: rest =>
    (if p.redirect = .pipe then .connect p.seq q.seq else .close q.seq) :: links (q :: rest)
  | _ => []

/-- The connections of a chain that are waited for. -/
def joins : List LiveProcess → List Wiring
  | p :: q :: rest =>
    (if p.redirect = .pipe then [.join p.seq q.seq] else []) ++ joins (q :: rest)
  | _ => []

/-- What is done with the output of a group's last process. -/
def opening (last : LiveProcess) (tail : Nat) (inputOpen : Bool) : List Wiring :=
  if last.redirect = .pipe then
    [if inputOpen then .bridge last.seq tail else .discard last.seq]
  else []

/-- How the bridge of a group ends, if it has one. -/
def closing (last : LiveProcess) (tail : Nat) (inputOpen left : Bool) : List Event :=
  if last.redirect = .pipe ∧ inputOpen = true then [.drained last.seq tail left] else []

/-- The record of processes that are waited for in order. -/
def finishes (ends : List (LiveProcess × Ending)) : List Event :=
  ends.map fun p => .finished p.1 p.2

@[simp] theorem finishes_cons (p : LiveProcess) (status : Ending)
    (ends : List (LiveProcess × Ending)) :
    finishes ((p, status) :: ends) = .finished p status :: finishes ends := rfl

namespace Run

variable {σ : Type}

theorem wire_yields (setup : RunSetup σ) (action : Wiring) (s : RunState σ) :
    (wire setup action).Yields s (.ok ()) 0 [.wired action] :=
  (Yields.adjust _ s).bind (.record _ _) rfl rfl

theorem link_yields (setup : RunSetup σ) (ps : List LiveProcess) (s : RunState σ) :
    (link setup ps).Yields s (.ok ()) 0 ((links ps).map .wired) := by
  induction ps generalizing s with
  | nil => exact .pure () s
  | cons p rest ih =>
    cases rest with
    | nil => exact .pure () s
    | cons q rest => exact (wire_yields setup _ s).bind (ih _) rfl rfl

theorem joinLinks_yields (setup : RunSetup σ) (ps : List LiveProcess) (s : RunState σ) :
    (joinLinks setup ps).Yields s (.ok ()) 0 ((joins ps).map .wired) := by
  induction ps generalizing s with
  | nil => exact .pure () s
  | cons p rest ih =>
    cases rest with
    | nil => exact .pure () s
    | cons q rest =>
      simp only [joinLinks, joins, List.map_append]
      by_cases hp : p.redirect = .pipe
      · rw [if_pos hp, if_pos hp]
        exact (wire_yields setup _ s).bind (ih _) rfl rfl
      · rw [if_neg hp, if_neg hp]
        exact ih s

theorem await_yields (setup : RunSetup σ) (p : LiveProcess) (s : RunState σ) :
    ∃ status, (await setup p).Yields s (.ok status) 0 [.finished p status] :=
  ⟨_, (Yields.machine _ s).bind ((Yields.record _ _).bind (.pure _ _) rfl rfl) rfl rfl⟩

theorem requireSuccess_yields (p : LiveProcess) (status : Ending) (s : RunState σ) :
    (requireSuccess p status).Yields s (p.verdict status) 0 [] := by
  cases status with
  | unknown e => exact .throw _ s
  | known status =>
    simp only [requireSuccess, LiveProcess.verdict]
    cases status.isSuccess with
    | true => exact .pure () s
    | false => exact .throw _ s

theorem release_yields (setup : RunSetup σ) (ps : List LiveProcess) (s : RunState σ) :
    ∃ ends, ends.map Prod.fst = ps ∧ (release setup ps).Yields s (.ok ()) 0 (finishes ends) := by
  induction ps generalizing s with
  | nil => exact ⟨[], rfl, .pure () s⟩
  | cons p rest ih =>
    obtain ⟨status, hp⟩ := await_yields setup p s
    obtain ⟨ends, hends, hr⟩ := ih ((await setup p).result s).2
    exact ⟨(p, status) :: ends, by rw [List.map_cons, hends], hp.bind hr rfl rfl⟩

theorem beginBridge_yields (setup : RunSetup σ) (last : LiveProcess) (tail : Nat)
    (inputOpen : Bool) (s : RunState σ) :
    (beginBridge setup last tail inputOpen).Yields s (.ok ()) 0
      ((opening last tail inputOpen).map .wired) := by
  unfold beginBridge opening
  split
  · exact wire_yields setup _ s
  · exact .pure () s

theorem drain_yields (setup : RunSetup σ) (source target : Nat) (s : RunState σ) :
    ∃ left, (drain setup source target).Yields s (.ok left) 0 [.drained source target left] :=
  ⟨_, (Yields.machine _ s).bind ((Yields.record _ _).bind (.pure _ _) rfl rfl) rfl rfl⟩

/-- Only a bridge that was begun can change whether the tail's input is open. -/
theorem endBridge_yields (setup : RunSetup σ) (last : LiveProcess) (tail : Nat)
    (inputOpen : Bool) (s : RunState σ) :
    ∃ left, (¬ (last.redirect = .pipe ∧ inputOpen = true) → left = inputOpen) ∧
      (endBridge setup last tail inputOpen).Yields s (.ok left) 0
        (closing last tail inputOpen left) := by
  unfold endBridge closing
  split
  next h =>
    obtain ⟨left, hl⟩ := drain_yields setup last.seq tail s
    exact ⟨left, fun hn => absurd h hn, hl⟩
  next h => exact ⟨inputOpen, fun _ => rfl, .pure _ s⟩

end Run

/-! ## Groups -/

/-- The record of a group of which every process was started. -/
def groupRecord (tail : Nat) (inputOpen left : Bool) (first : LiveProcess)
    (rest : List LiveProcess) (status : Ending) (ends : List (LiveProcess × Ending)) :
    List Event :=
  let last := (first :: rest).getLast (List.cons_ne_nil first rest)
  (first :: rest).map .started ++
    (links (first :: rest) ++ opening last tail inputOpen).map .wired ++
    .finished first status :: (joins (first :: rest)).map .wired ++
    closing last tail inputOpen left ++ finishes ends

/-- What one group does that feeds the process `tail`, when the next number is `n`.
The result says whether the tail's input is open afterwards. -/
inductive GroupTrace (tail n : Nat) (inputOpen : Bool) (group : List Command) :
    List Event → Except Failure Bool → Prop where
  /-- A process was refused. -/
  | refused {before : List LiveProcess} {p : LiveProcess} {after : List LiveProcess} {e : OsError}
      (hc : chain false .empty n group = before ++ p :: after) :
      GroupTrace tail n inputOpen group (refusal before p e) (.error (p.spawnFailure e))
  /-- Every process was started; the first one decides. -/
  | ended {first : LiveProcess} {rest : List LiveProcess} {status : Ending}
      {ends : List (LiveProcess × Ending)} {left : Bool}
      (hc : chain false .empty n group = first :: rest) (hends : ends.map Prod.fst = rest)
      (hleft : ¬ (((first :: rest).getLast (List.cons_ne_nil first rest)).redirect = .pipe ∧
        inputOpen = true) → left = inputOpen) :
      GroupTrace tail n inputOpen group (groupRecord tail inputOpen left first rest status ends)
        ((first.verdict status).map fun _ => left)

/-- What the groups do that feed the process `tail`, one after the other, when the
next number is `n`. -/
inductive GroupsTrace (tail : Nat) :
    Nat → Bool → List (List Command) → List Event → Except Failure Unit → Prop where
  /-- No group is left. -/
  | done {n : Nat} {inputOpen : Bool} : GroupsTrace tail n inputOpen [] [] (.ok ())
  /-- A group fails, and no other follows. -/
  | failed {n : Nat} {inputOpen : Bool} {group : List Command} {groups : List (List Command)}
      {es : List Event} {f : Failure} (hg : GroupTrace tail n inputOpen group es (.error f)) :
      GroupsTrace tail n inputOpen (group :: groups) es (.error f)
  /-- A group succeeds, and the others follow. -/
  | next {n : Nat} {inputOpen left : Bool} {group : List Command} {groups : List (List Command)}
      {es more : List Event} {r : Except Failure Unit}
      (hg : GroupTrace tail n inputOpen group es (.ok left))
      (hm : GroupsTrace tail (n + group.length) left groups more r) :
      GroupsTrace tail n inputOpen (group :: groups) (es ++ more) r

theorem chain_ne_nil {ends : Bool} {input : ProcessInput} {n : Nat} {cmds : List Command}
    (h : cmds ≠ []) : chain ends input n cmds ≠ [] := by
  cases cmds with
  | nil => exact absurd rfl h
  | cons c rest => exact List.cons_ne_nil _ _

namespace Run

variable {σ : Type}

/-- A chain of its own is started whole or refused. -/
theorem startChain_nil_yields (setup : RunSetup σ) (ends : Bool) (input : ProcessInput)
    (cmds : List Command) (s : RunState σ) :
    (startChain setup ends input [] cmds).Yields s (.ok (chain ends input s.next cmds))
      cmds.length ((chain ends input s.next cmds).map .started) ∨
    ∃ before p after e, chain ends input s.next cmds = before ++ p :: after ∧
      (startChain setup ends input [] cmds).Yields s (.error (p.spawnFailure e))
        (before.length + 1) (refusal before p e) :=
  startChain_yields setup ends input [] cmds s

theorem runGroup_trace (setup : RunSetup σ) (tail : Nat) (inputOpen : Bool)
    (group : List Command) (hg : group ≠ []) (s : RunState σ) :
    ∃ r k es, (runGroup setup tail inputOpen group).Yields s r k es ∧
      GroupTrace tail s.next inputOpen group es r ∧ (∀ left, r = .ok left → k = group.length) := by
  have hne : chain false .empty s.next group ≠ [] := chain_ne_nil hg
  obtain ⟨first, rest, hc⟩ := List.exists_cons_of_ne_nil hne
  obtain hs | ⟨before, p, after, e, hp, hs⟩ := startChain_nil_yields setup false .empty group s
  · rw [hc] at hs
    -- the parts of the group one after the other, each from where the one before it ended
    refine hs.then_exists fun t _ => (link_yields setup _ t).then_exists fun t _ =>
      (beginBridge_yields setup _ tail inputOpen t).then_exists fun t _ => ?_
    obtain ⟨status, ha⟩ := await_yields setup first t
    refine ha.then_exists fun t _ => (joinLinks_yields setup _ t).then_exists fun t _ => ?_
    obtain ⟨left, hleft, hb⟩ := endBridge_yields setup
      ((first :: rest).getLast (List.cons_ne_nil first rest)) tail inputOpen t
    refine hb.then_exists fun t _ => ?_
    obtain ⟨ends, hends, hr⟩ := release_yields setup rest t
    refine hr.then_exists fun t _ => ?_
    have hv : (do requireSuccess first status; pure left : Run σ Bool).Yields t
        ((first.verdict status).map fun _ => left) 0 [] := by
      have hq := requireSuccess_yields first status t
      cases hw : first.verdict status with
      | ok u => rw [hw] at hq; exact hq.bind (.pure left _) rfl rfl
      | error f => rw [hw] at hq; exact hq.bind_error
    refine ⟨_, _, _, hv, ?_, fun _ _ => rfl⟩
    have hg : GroupTrace tail s.next inputOpen group
        (groupRecord tail inputOpen left first rest status ends) _ := .ended hc hends hleft
    simpa only [groupRecord, List.map_append, List.append_assoc, List.append_nil,
      List.cons_append, List.nil_append] using hg
  · exact ⟨_, _, _, hs.bind_error, .refused hp, fun _ h => by cases h⟩

theorem runGroups_trace (setup : RunSetup σ) (tail : Nat) (inputOpen : Bool)
    (groups : List (List Command)) (hg : ∀ group ∈ groups, group ≠ []) (s : RunState σ) :
    ∃ r k es, (runGroups setup tail inputOpen groups).Yields s r k es ∧
      GroupsTrace tail s.next inputOpen groups es r := by
  induction groups generalizing inputOpen s with
  | nil => exact ⟨_, _, _, .pure () s, .done⟩
  | cons group rest ih =>
    obtain ⟨r, k, es, hs, ht, hk⟩ := runGroup_trace setup tail inputOpen group
      (hg group List.mem_cons_self) s
    cases r with
    | error f => exact ⟨_, _, _, hs.bind_error, .failed ht⟩
    | ok left =>
      refine hs.then_exists fun t hn => ?_
      obtain ⟨r, j, fs, hr, hm⟩ := ih left (fun g h => hg g (List.mem_cons_of_mem _ h)) t
      rw [hn, hk left rfl] at hm
      exact ⟨r, j, fs, hr, .next ht hm⟩

end Run

/-! ## Pipes -/

namespace PipePlan

/-- What the first process of the tail reads. -/
def headInput (plan : PipePlan) : ProcessInput := if plan.groups.isEmpty then .empty else .pipe

/-- The processes of the tail, when the next number is `n`. -/
def tailChain (plan : PipePlan) (n : Nat) : List LiveProcess :=
  chain true plan.headInput n plan.tail

end PipePlan

/-- What a pipe does when the next number is `n`. -/
inductive PipeTrace (plan : PipePlan) (n : Nat) : List Event → Except Failure Unit → Prop where
  /-- A process of the tail was refused. -/
  | refused {before : List LiveProcess} {p : LiveProcess} {after : List LiveProcess} {e : OsError}
      (hc : plan.tailChain n = before ++ p :: after) :
      PipeTrace plan n (refusal before p e) (.error (p.spawnFailure e))
  /-- The tail is on its own; its first process decides. -/
  | alone {first : LiveProcess} {rest : List LiveProcess} {status : Ending}
      {ends : List (LiveProcess × Ending)} (hg : plan.groups = [])
      (hc : plan.tailChain n = first :: rest) (hends : ends.map Prod.fst = rest) :
      PipeTrace plan n
        ((first :: rest).map .started ++ (links (first :: rest)).map .wired ++
          .finished first status :: finishes ends ++ (joins (first :: rest)).map .wired)
        (first.verdict status)
  /-- Groups feed the tail; the first of them that fails decides. -/
  | fed {head : LiveProcess} {rest : List LiveProcess} {es : List Event}
      {r : Except Failure Unit} {ends : List (LiveProcess × Ending)} (hg : plan.groups ≠ [])
      (hc : plan.tailChain n = head :: rest) (hends : ends.map Prod.fst = head :: rest)
      (hes : GroupsTrace head.seq (n + plan.tail.length) true plan.groups es r) :
      PipeTrace plan n
        ((head :: rest).map .started ++ (links (head :: rest)).map .wired ++ es ++
          .wired (.close head.seq) :: finishes ends ++ (joins (head :: rest)).map .wired)
        r

namespace Run

variable {σ : Type}

theorem runAlone_trace (setup : RunSetup σ) (plan : PipePlan) (ht : plan.tail ≠ [])
    (hg : plan.groups = []) (s : RunState σ) :
    ∃ r k es, (runAlone setup plan).Yields s r k es ∧ PipeTrace plan s.next es r := by
  have hc : plan.tailChain s.next = chain true .empty s.next plan.tail := by
    simp [PipePlan.tailChain, PipePlan.headInput, hg]
  obtain ⟨first, rest, hf⟩ := List.exists_cons_of_ne_nil (hc ▸ chain_ne_nil ht)
  obtain hs | ⟨before, p, after, e, hp, hs⟩ := startChain_nil_yields setup true .empty plan.tail s
  · rw [← hc, hf] at hs
    refine hs.then_exists fun t _ => (link_yields setup _ t).then_exists fun t _ => ?_
    obtain ⟨status, ha⟩ := await_yields setup first t
    refine ha.then_exists fun t _ => ?_
    obtain ⟨ends, hends, hr⟩ := release_yields setup rest t
    refine hr.then_exists fun t _ => (joinLinks_yields setup _ t).then_exists fun t _ => ?_
    refine ⟨_, _, _, requireSuccess_yields first status t, ?_⟩
    have h : PipeTrace plan s.next _ (first.verdict status) := .alone hg hf hends
    simpa only [List.append_assoc, List.append_nil, List.cons_append, List.nil_append] using h
  · exact ⟨_, _, _, hs.bind_error, .refused (hc.trans hp)⟩

theorem runFed_trace (setup : RunSetup σ) (plan : PipePlan) (ht : plan.tail ≠ [])
    (hne : plan.groups ≠ []) (hg : ∀ group ∈ plan.groups, group ≠ []) (s : RunState σ) :
    ∃ r k es, (runFed setup plan).Yields s r k es ∧ PipeTrace plan s.next es r := by
  have hc : plan.tailChain s.next = chain true .pipe s.next plan.tail := by
    simp [PipePlan.tailChain, PipePlan.headInput, hne]
  obtain ⟨head, rest, hf⟩ := List.exists_cons_of_ne_nil (hc ▸ chain_ne_nil ht)
  obtain hs | ⟨before, p, after, e, hp, hs⟩ := startChain_nil_yields setup true .pipe plan.tail s
  · rw [← hc, hf] at hs
    refine hs.then_exists fun t hn => (link_yields setup _ t).then_exists fun u hu => ?_
    obtain ⟨r, k, es, hgs, hes⟩ := runGroups_trace setup head.seq true plan.groups hg u
    -- the groups are attempted: the tail is waited for also when one of them failed
    refine hgs.attempt.then_exists fun t _ => (wire_yields setup _ t).then_exists fun t _ => ?_
    obtain ⟨ends, hends, hr⟩ := release_yields setup (head :: rest) t
    refine hr.then_exists fun t _ => (joinLinks_yields setup _ t).then_exists fun t _ => ?_
    refine ⟨_, _, _, .resume r t, ?_⟩
    rw [hu, hn] at hes
    have h : PipeTrace plan s.next _ r := .fed hne hf hends hes
    simpa only [List.append_assoc, List.append_nil, List.cons_append, List.nil_append] using h
  · exact ⟨_, _, _, hs.bind_error, .refused (hc.trans hp)⟩

/-- A pipe that is run does what `PipeTrace` describes, whatever the host does. -/
theorem runPipe_trace (setup : RunSetup σ) (plan : PipePlan) (hd : setup.dryRun = false)
    (ht : plan.tail ≠ []) (hg : ∀ group ∈ plan.groups, group ≠ []) (s : RunState σ) :
    ∃ r k es, (runPipe setup plan).Yields s r k es ∧ PipeTrace plan s.next es r := by
  have hany : plan.groups.any (·.isEmpty) = false := by simpa using hg
  unfold runPipe
  rw [if_neg (by simpa using ht), if_neg (by simp [hany]), if_neg (by simp [hd])]
  by_cases hne : plan.groups = []
  · rw [if_pos (by simp [hne])]
    exact runAlone_trace setup plan ht hne s
  · rw [if_neg (by simpa using hne)]
    exact runFed_trace setup plan ht hne hg s

/-- What running a pipe comes to: nothing if its tail is empty, a failure if one of its groups
is, a report in a dry run, and otherwise what `PipeTrace` describes. -/
theorem runPipe_cases {P : Run σ Unit → Prop} (setup : RunSetup σ) (plan : PipePlan)
    (nothing : P (pure ()))
    (emptyGroup : [] ∈ plan.groups → P (fail (.emptyCycleGroup plan.name.render)))
    (reported : setup.dryRun = true → P (reportAll (plan.groups.flatten ++ plan.tail)))
    (traced : setup.dryRun = false →
      (∀ s, ∃ r k es, (runPipe setup plan).Yields s r k es ∧ PipeTrace plan s.next es r) →
      P (runPipe setup plan)) :
    P (runPipe setup plan) := by
  by_cases ht : plan.tail.isEmpty = true
  · rwa [runPipe, if_pos ht]
  by_cases hg : plan.groups.any (·.isEmpty) = true
  · rw [runPipe, if_neg ht, if_pos hg]
    obtain ⟨group, hm, hempty⟩ := List.any_eq_true.mp hg
    exact emptyGroup (List.isEmpty_iff.mp hempty ▸ hm)
  cases hd : setup.dryRun with
  | true =>
    rw [runPipe, if_neg ht, if_neg hg, if_pos hd]
    exact reported hd
  | false =>
    have hne : ∀ group ∈ plan.groups, group ≠ [] := by
      rintro group hm rfl
      exact hg (List.any_eq_true.mpr ⟨[], hm, rfl⟩)
    exact traced hd (runPipe_trace setup plan hd (by simpa using ht) hne)

end Run

end MediaPipeline
