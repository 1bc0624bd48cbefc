import MediaPipeline.Proofs.EvaluationGuarantees
import MediaPipeline.Proofs.PipeLifecycle

/-!
# The course of a run

What a run evaluates, in which order and in which scopes, said apart from how failures
travel. What is left to do is a list of work, first things first. `Work.next` looks at one
piece of work: either it is replaced by other work at once, or it is visited, that is, one
thing is evaluated under the name of a step or of a stage, in a scope, and what comes of
it decides on the work that follows. A visit that fails ends the course.

Every run follows this course (`execute_follows`), so each failure of a run is the failure
of its last visit, placed there once (`pipeline_failure_placed`).
-/

namespace MediaPipeline

/-- The state after a step or a stage is entered. -/
def RunState.entered {σ : Type} (s : RunState σ) (operation : OperationName) (scope : Scope) :
    RunState σ :=
  { s with events := s.events ++ [.entered operation scope] }

namespace Run

/-! ## Work -/

/-- A pipe with its tail resolved, and so far those groups. -/
structure Planning where
  pipe : PipeTemplate
  scope : Scope
  tail : List Command
  groups : List (List Command)
  /-- The cycles that are left. -/
  cycles : List CycleTemplate

/-- Something that is still to be done. -/
inductive Work where
  | steps (scope : Scope) (steps : Steps)
  /-- So many more rounds of a loop, from an index on. -/
  | rounds (var : String) (scope : Scope) (body : Steps) (n : Nat) (i : Int)
  /-- The tail of a pipe, some of it resolved. -/
  | tail (p : PipeTemplate) (scope : Scope) (resolved : List Command)
      (left : List CommandTemplate)
  /-- The rest of a pipe whose tail is resolved. -/
  | cycles (p : Planning)
  /-- The groups of a cycle, one for each scope; after them the rest of the pipe. -/
  | groups (p : Planning) (stages : List CommandTemplate) (scopes : List Scope)
  /-- A group, some of it resolved; after it the groups for other scopes. -/
  | group (p : Planning) (stages : List CommandTemplate) (scopes : List Scope) (here : Scope)
      (resolved : List Command) (left : List CommandTemplate)

variable {σ α β : Type}

/-- An evaluation under a name and in a scope. -/
structure Visit (σ : Type) where
  operation : OperationName
  scope : Scope
  before : RunState σ
  /-- The work that follows from it, or the failure. -/
  outcome : Except Failure (List Work)
  after : RunState σ

/-- The visit that evaluates a part of a run. -/
def Visit.of (operation : OperationName) (scope : Scope) (act : Run σ α) (follow : α → List Work)
    (s : RunState σ) : Visit σ :=
  ⟨operation, scope, s, (act.result s).1.map follow, (act.result s).2⟩

/-- What is done about a piece of work. -/
inductive Next (σ : Type) where
  /-- It is replaced by other work. -/
  | move (work : List Work) (s : RunState σ)
  | visit (v : Visit σ)

/-- What is done next about a piece of work. -/
def Work.next (setup : RunSetup σ) (s : RunState σ) : Work → Next σ
  | .steps _ .done => .move [] s
  | .steps scope (.command c rest) =>
    .visit (.of c.name scope (runCommand setup c scope) (fun _ => [.steps scope rest])
      (s.entered c.name scope))
  | .steps scope (.eachSegment name body rest) =>
    .move (s.store.segments.map (fun id => .steps (scope.withSegment id) body) ++
      [.steps scope rest]) (s.entered name scope)
  | .steps scope (.eachSequence name types body rest) =>
    .move ((s.store.sequencesOf types).map (fun p => .steps (scope.enterSequence p.1 p.2) body) ++
      [.steps scope rest]) (s.entered name scope)
  | .steps scope (.pipe p rest) =>
    .visit (.of p.name scope (do ofExcept (guardAllows (← store) scope p.guard))
      (fun allowed => (if allowed then [.tail p scope [] p.tail] else []) ++ [.steps scope rest])
      (s.entered p.name scope))
  | .steps scope (.assign a rest) =>
    .visit (.of a.name scope (runAssign a scope) (fun _ => [.steps scope rest])
      (s.entered a.name scope))
  | .steps scope (.branch name condition yes no rest) =>
    .visit (.of name scope (do ofExcept (condition.eval (← store) scope))
      (fun taken => [.steps scope (if taken then yes else no), .steps scope rest])
      (s.entered name scope))
  | .steps scope (.loop head body rest) =>
    .visit (.of head.name scope (loopRange head scope)
      (fun range => [.rounds head.var scope body range.length range.first, .steps scope rest])
      (s.entered head.name scope))
  | .steps scope (.audioMap m rest) =>
    .visit (.of m.name scope (runAudioMap m scope) (fun _ => [.steps scope rest])
      (s.entered m.name scope))
  | .rounds _ _ _ 0 _ => .move [] s
  | .rounds var scope body (n + 1) i =>
    .move [.steps scope body, .rounds var scope body n (i + 1)]
      { s with store := s.store.setDynamic var (Text.showInt i) }
  | .tail p scope resolved [] => .move [.cycles ⟨p, scope, resolved, [], p.cycles⟩] s
  | .tail p scope resolved (c :: left) =>
    .visit (.of c.name scope (onStore (c.resolve setup.workspace scope))
      (fun command => [.tail p scope (resolved ++ command.toList) left]) (s.entered c.name scope))
  | .cycles ⟨p, scope, resolved, made, []⟩ =>
    .visit (.of p.name scope (runPipe setup ⟨p.name, made, resolved⟩) (fun _ => []) s)
  | .cycles ⟨p, scope, resolved, made, c :: left⟩ =>
    .move [.groups ⟨p, scope, resolved, made, left⟩ c.stages (cycleScopes s.store scope c)] s
  | .groups p _ [] => .move [.cycles p] s
  | .groups p stages (here :: scopes) => .move [.group p stages scopes here [] stages] s
  | .group p stages scopes _ resolved [] =>
    .move [.groups { p with groups := p.groups ++ if resolved.isEmpty then [] else [resolved] }
      stages scopes] s
  | .group p stages scopes here resolved (c :: left) =>
    .visit (.of c.name here (onStore (c.resolve setup.workspace here))
      (fun command => [.group p stages scopes here (resolved ++ command.toList) left])
      (s.entered c.name here))

/-! ## Courses -/

/-- From some work and a state to others, by visits that succeed. -/
inductive Course (setup : RunSetup σ) :
    List Work → RunState σ → List (Visit σ) → List Work → RunState σ → Prop
  | here (ws : List Work) (s : RunState σ) : Course setup ws s [] ws s
  | move {w : Work} {ws new us : List Work} {s t u : RunState σ} {vs : List (Visit σ)}
      (hw : w.next setup s = .move new t) (h : Course setup (new ++ ws) t vs us u) :
    Course setup (w :: ws) s vs us u
  | visit {w : Work} {ws new us : List Work} {s u : RunState σ} {v : Visit σ}
      {vs : List (Visit σ)} (hw : w.next setup s = .visit v) (hv : v.outcome = .ok new)
      (h : Course setup (new ++ ws) v.after vs us u) : Course setup (w :: ws) s (v :: vs) us u

/-- After some visits that succeed another one is made. -/
def Reaches (setup : RunSetup σ) (ws : List Work) (s : RunState σ) (vs : List (Visit σ))
    (v : Visit σ) : Prop :=
  ∃ w us t, Course setup ws s vs (w :: us) t ∧ w.next setup t = .visit v

/-- A visit fails, and a failure is its cause with its place. -/
def Visit.Fails (v : Visit σ) (f : Failure) : Prop :=
  ∃ c, v.outcome = .error (.plain c) ∧ f = .within v.operation v.scope c

section Courses

variable {setup : RunSetup σ} {ws us ws' us' : List Work} {s t u : RunState σ}
  {vs vs' : List (Visit σ)} {v : Visit σ}

theorem Course.trans (h : Course setup ws s vs us t) (g : Course setup us t vs' us' u) :
    Course setup ws s (vs ++ vs') us' u := by
  induction h with
  | here => exact g
  | move hw _ ih => exact .move hw (ih g)
  | visit hw hv _ ih => exact .visit hw hv (ih g)

/-- Work that comes later does not matter. -/
theorem Course.append (h : Course setup ws s vs us t) (rest : List Work) :
    Course setup (ws ++ rest) s vs (us ++ rest) t := by
  induction h with
  | here => exact .here _ _
  | move hw _ ih =>
    rw [List.append_assoc] at ih
    exact .move hw ih
  | visit hw hv _ ih =>
    rw [List.append_assoc] at ih
    exact .visit hw hv ih

theorem Course.reaches (h : Course setup ws s vs us t) (g : Reaches setup us t vs' v) :
    Reaches setup ws s (vs ++ vs') v := by
  obtain ⟨w, us', u, hc, hw⟩ := g
  exact ⟨w, us', u, h.trans hc, hw⟩

theorem Reaches.append (h : Reaches setup ws s vs v) (rest : List Work) :
    Reaches setup (ws ++ rest) s vs v := by
  obtain ⟨w, us, u, hc, hw⟩ := h
  exact ⟨w, us ++ rest, u, hc.append rest, hw⟩

end Courses

/-- From a state, a part of a run does some work: if it succeeds, what it yields says what
work is left; if it fails, a visit fails, and nothing happens after that. -/
structure Follows (setup : RunSetup σ) (act : Run σ α) (ws : List Work) (left : α → List Work)
    (s : RunState σ) : Prop where
  ok : ∀ a, (act.result s).1 = .ok a → ∃ vs, Course setup ws s vs (left a) (act.result s).2
  error : ∀ f, (act.result s).1 = .error f →
    ∃ vs v, Reaches setup ws s vs v ∧ v.Fails f ∧ (act.result s).2 = v.after

namespace Follows

variable {setup : RunSetup σ} {act : Run σ α} {ws : List Work} {left : α → List Work}
  {s t : RunState σ}

theorem pure {a : α} (h : left a = ws) (s : RunState σ) :
    Follows setup (pure a) ws left s where
  ok := by
    rintro _ ⟨⟩
    exact ⟨[], h ▸ .here _ _⟩
  error := by
    rintro f ⟨⟩

/-- Nothing to do leaves all work. -/
theorem done (ws : List Work) (s : RunState σ) :
    Follows setup (Pure.pure ()) ws (fun _ => ws) s :=
  .pure (by rfl) s

/-- Only what comes of a part matters. -/
theorem congr {other : Run σ α} (h : Follows setup act ws left s)
    (hother : other.result s = act.result s) : Follows setup other ws left s where
  ok := hother ▸ h.ok
  error := hother ▸ h.error

/-- A part goes on like another one, once work is replaced. -/
theorem move {other : Run σ α} {w : Work} {new : List Work} (hw : w.next setup s = .move new t)
    (hact : act.result s = other.result t) (h : Follows setup other new left t) :
    Follows setup act [w] left s where
  ok := by
    intro a ha
    rw [hact] at ha ⊢
    obtain ⟨vs, hc⟩ := h.ok a ha
    rw [← List.append_nil new] at hc
    exact ⟨vs, .move hw hc⟩
  error := by
    intro f hf
    rw [hact] at hf ⊢
    obtain ⟨vs, v, ⟨w', us, u, hc, hw'⟩, hv, hafter⟩ := h.error f hf
    rw [← List.append_nil new] at hc
    exact ⟨vs, v, ⟨w', us, u, .move hw hc, hw'⟩, hv, hafter⟩

/-- An evaluation that is placed is a visit. -/
theorem visit {other : Run σ α} {w : Work} {operation : OperationName} {scope : Scope}
    (hw : w.next setup s = .visit (.of operation scope act left t))
    (hact : act.Upholds (fun _ => True) (fun _ => True))
    (hother : other.result s = (placed operation scope act).result t) :
    Follows setup other [w] left s where
  ok := by
    intro a ha
    rw [hother, result_placed] at ha ⊢
    rcases hr : act.result t with ⟨e | b, u⟩ <;> rw [hr] at ha
    · cases ha
    · cases ha
      have hv : (Visit.of operation scope act left t).outcome = .ok (left a) := by
        simp [Visit.of, hr, Except.map]
      refine ⟨[_], .visit hw hv ?_⟩
      rw [List.append_nil, show (Visit.of operation scope act left t).after = u by simp [Visit.of, hr]]
      exact .here _ _
  error := by
    intro f hf
    rw [hother, result_placed] at hf ⊢
    rcases hr : act.result t with ⟨e | b, u⟩ <;> rw [hr] at hf
    · obtain ⟨c, rfl, -⟩ := (hact t trivial).2 e (by rw [hr])
      cases hf
      exact ⟨[], _, ⟨w, [], s, .here _ _, hw⟩, ⟨c, by simp [Visit.of, hr, Except.map], rfl⟩,
        by simp [Visit.of, hr]⟩
    · cases hf

theorem bind {f : α → Run σ β} {mid : α → List Work} {left : β → List Work}
    (h : Follows setup act ws mid s) (hf : ∀ a t, Follows setup (f a) (mid a) left t) :
    Follows setup (act >>= f) ws left s := by
  have hact := result_bind act f s
  rcases hr : act.result s with ⟨e | a, t⟩ <;> rw [hr] at hact <;> dsimp only at hact
  -- A failure of the first part ends the course; after a success the second part goes on
  -- with the work that the first one leaves.
  · refine ⟨fun b hb => ?_, fun g hg => ?_⟩
    · rw [hact] at hb
      cases hb
    · rw [hact] at hg ⊢
      cases hg
      obtain ⟨vs, v, hv, hfails, hafter⟩ := h.error e (by rw [hr])
      rw [hr] at hafter
      exact ⟨vs, v, hv, hfails, hafter⟩
  · obtain ⟨vs, hc⟩ := h.ok a (by rw [hr])
    rw [hr] at hc
    refine ⟨fun b hb => ?_, fun g hg => ?_⟩
    · rw [hact] at hb ⊢
      obtain ⟨vs', hc'⟩ := (hf a t).ok b hb
      exact ⟨vs ++ vs', hc.trans hc'⟩
    · rw [hact] at hg ⊢
      obtain ⟨vs', v, hv, hfails, hafter⟩ := (hf a t).error g hg
      exact ⟨vs ++ vs', v, hc.reaches hv, hfails, hafter⟩

/-- Work that comes later does not matter. -/
theorem append (h : Follows setup act ws left s) (rest : List Work) :
    Follows setup act (ws ++ rest) (fun a => left a ++ rest) s where
  ok := by
    intro a ha
    obtain ⟨vs, hc⟩ := h.ok a ha
    exact ⟨vs, hc.append rest⟩
  error := by
    intro f hf
    obtain ⟨vs, v, hv, hfails, hafter⟩ := h.error f hf
    exact ⟨vs, v, hv.append rest, hfails, hafter⟩

/-- A failure that has its place keeps it. -/
theorem placed (h : Follows setup act ws left s) (operation : OperationName) (scope : Scope) :
    Follows setup (placed operation scope act) ws left s where
  ok := by
    intro a ha
    rw [result_placed] at ha ⊢
    exact h.ok a (by
      rcases hr : (act.result s).1 with e | b <;> rw [hr] at ha <;> cases ha
      rfl)
  error := by
    intro f hf
    rw [result_placed] at hf ⊢
    cases hr : (act.result s).1 with
    | ok a =>
      rw [hr] at hf
      cases hf
    | error e =>
      rw [hr] at hf
      obtain ⟨vs, v, hv, ⟨c, hc, rfl⟩, hafter⟩ := h.error e hr
      cases hf
      exact ⟨vs, v, hv, ⟨c, hc, rfl⟩, hafter⟩

end Follows

/-! ## What runs do -/

variable (setup : RunSetup σ)

theorem Discipline.any (scope : Scope) : Discipline (fun _ => True) (fun _ => True) scope where
  flat _ _ _ _ := trivial
  reference _ _ _ _ _ := trivial
  channels _ _ _ _ _ _ := trivial
  other _ _ := trivial

theorem result_step (operation : OperationName) (scope : Scope) (act : Run σ α) (s : RunState σ) :
    (step operation scope act).result s =
      (placed operation scope act).result (s.entered operation scope) := by
  rw [step, result_bind, result_record]
  rfl

/-- Stages are resolved one after the other, for the tail as for a group. -/
theorem resolveStages_follows {chain : List Command → List CommandTemplate → Work} {here : Scope}
    (hchain : ∀ s resolved c left, (chain resolved (c :: left)).next setup s =
      .visit (.of c.name here (onStore (c.resolve setup.workspace here))
        (fun command => [chain (resolved ++ command.toList) left]) (s.entered c.name here)))
    (stages : List CommandTemplate) (resolved : List Command) (s : RunState σ) :
    Follows setup (resolveStages setup here stages) [chain resolved stages]
      (fun more => [chain (resolved ++ more) []]) s := by
  induction stages generalizing resolved s with
  | nil => exact .pure (by rw [List.append_nil]) s
  | cons c rest ih =>
    have hvisit : Follows setup (step c.name here (onStore (c.resolve setup.workspace here)))
        [chain resolved (c :: rest)]
        (fun command => [chain (resolved ++ command.toList) rest]) s :=
      .visit (hchain s resolved c rest)
        (.onStore (resolve_upholds (Discipline.any here) setup.workspace c)) (result_step ..)
    have hrest (command : Option Command) (t : RunState σ) :
        Follows setup (do
          let more ← resolveStages setup here rest
          Pure.pure (command.toList ++ more)) [chain (resolved ++ command.toList) rest]
          (fun more => [chain (resolved ++ more) []]) t :=
      (ih (resolved ++ command.toList) t).bind fun more u => .pure (by rw [List.append_assoc]) u
    exact hvisit.bind hrest

/-- The groups of a cycle, without those that have no stage left. -/
theorem resolveGroups_follows (p : Planning) (stages : List CommandTemplate) (scopes : List Scope)
    (s : RunState σ) :
    Follows setup (resolveGroups setup stages scopes) [.groups p stages scopes]
      (fun groups => [.groups { p with groups := p.groups ++ groups } stages []]) s := by
  induction scopes generalizing p s with
  | nil => exact .pure (by rw [List.append_nil]) s
  | cons here rest ih =>
    have hrest (group : List Command) (t : RunState σ) :
        Follows setup (do
          let more ← resolveGroups setup stages rest
          Pure.pure (if group.isEmpty then more else group :: more))
          [.group p stages rest here ([] ++ group) []]
          (fun groups => [.groups { p with groups := p.groups ++ groups } stages []]) t := by
      refine .move rfl rfl ((ih _ t).bind fun more u => .pure ?_ u)
      cases group with
      | nil => simp
      | cons c group => simp
    exact .move rfl rfl
      ((resolveStages_follows setup (fun _ _ _ _ => rfl) stages [] s).bind hrest)

theorem resolveCycles_follows (p : Planning) (s : RunState σ) :
    Follows setup (resolveCycles setup p.scope p.cycles) [.cycles p]
      (fun groups => [.cycles { p with groups := p.groups ++ groups, cycles := [] }]) s := by
  obtain ⟨pipe, scope, tail, groups, cycles⟩ := p
  induction cycles generalizing groups s with
  | nil => exact .pure (by rw [List.append_nil]) s
  | cons c rest ih =>
    have hrest (more : List (List Command)) (t : RunState σ) :
        Follows setup (do
          let others ← resolveCycles setup scope rest
          Pure.pure (more ++ others))
          [.groups ⟨pipe, scope, tail, groups ++ more, rest⟩ c.stages []]
          (fun all => [.cycles ⟨pipe, scope, tail, groups ++ all, []⟩]) t := by
      refine .move rfl rfl ((ih t _).bind fun others u => .pure ?_ u)
      rw [List.append_assoc]
    refine .move rfl ?_ ((resolveGroups_follows setup _ c.stages _ s).bind hrest)
    rw [resolveCycles, result_bind, result_store]

theorem placed_bind (operation : OperationName) (scope : Scope) (act : Run σ α) (f : α → Run σ β)
    (s : RunState σ) :
    (placed operation scope (act >>= f)).result s =
      (placed operation scope act >>= fun a => placed operation scope (f a)).result s := by
  rw [result_placed, result_bind, result_bind, result_placed]
  rcases act.result s with ⟨e | a, t⟩
  · rfl
  · exact (result_placed operation scope (f a) t).symm

/-- What a pipe does once its guard lets it. -/
def pipeBody (p : PipeTemplate) (scope : Scope) : Run σ Unit := do
  let tail ← resolveStages setup scope p.tail
  let groups ← resolveCycles setup scope p.cycles
  runPipe setup ⟨p.name, groups, tail⟩

theorem result_runPipeStep (p : PipeTemplate) (scope : Scope) (s : RunState σ) :
    (runPipeStep setup p scope).result s =
      ((do ofExcept (guardAllows (← store) scope p.guard)) >>= fun allowed =>
        if allowed then pipeBody setup p scope else pure ()).result s := by
  unfold runPipeStep planPipe pipeBody
  simp only [result_bind, result_store, result_ofExcept]
  cases guardAllows s.store scope p.guard with
  | error c => rfl
  | ok allowed =>
    cases allowed with
    | false => rfl
    | true =>
      simp only [Except.mapError, if_true, result_bind]
      rcases (resolveStages setup scope p.tail).result s with ⟨e | tail, t⟩
      · rfl
      · dsimp only
        rcases (resolveCycles setup scope p.cycles).result t with ⟨e | groups, u⟩ <;> rfl

/-- The stages place their failures themselves; it is the run of the pipe that fails in the
name of the pipe. -/
theorem pipeBody_follows (p : PipeTemplate) (scope : Scope) (s : RunState σ) :
    Follows setup (placed p.name scope (pipeBody setup p scope)) [.tail p scope [] p.tail]
      (fun _ => []) s := by
  have htail : Follows setup (placed p.name scope (resolveStages setup scope p.tail))
      [.tail p scope [] p.tail] (fun tail => [.tail p scope tail []]) s :=
    (resolveStages_follows setup (fun _ _ _ _ => rfl) p.tail [] s).placed p.name scope
  have hcycles (tail : List Command) (t : RunState σ) :
      Follows setup (placed p.name scope (resolveCycles setup scope p.cycles)) [.tail p scope tail []]
        (fun groups => [.cycles ⟨p, scope, tail, groups, []⟩]) t :=
    .move rfl rfl ((resolveCycles_follows setup ⟨p, scope, tail, [], p.cycles⟩ t).placed p.name scope)
  have hrun (tail : List Command) (groups : List (List Command)) (t : RunState σ) :
      Follows setup (placed p.name scope (runPipe setup ⟨p.name, groups, tail⟩))
        [.cycles ⟨p, scope, tail, groups, []⟩] (fun _ => []) t :=
    .visit rfl (runPipe_upholds (fun _ _ => trivial) setup _) rfl
  refine (htail.bind fun tail t => ?_).congr (placed_bind ..)
  exact ((hcycles tail t).bind fun groups u => hrun tail groups u).congr (placed_bind ..)

theorem pipe_follows (p : PipeTemplate) (scope : Scope) (rest : Steps) (s : RunState σ) :
    Follows setup (step p.name scope (runPipeStep setup p scope)) [.steps scope (.pipe p rest)]
      (fun _ => [.steps scope rest]) s := by
  -- The step is split behind its guard: the guard is a visit of its own, and to place what
  -- comes after it once more changes nothing.
  have hguard : Follows setup
      (step p.name scope (do ofExcept (guardAllows (← store) scope p.guard)))
      [.steps scope (.pipe p rest)]
      (fun allowed => (if allowed then [.tail p scope [] p.tail] else []) ++ [.steps scope rest]) s :=
    .visit rfl (guard_upholds (Discipline.any scope) p.guard) (result_step ..)
  have hbody (allowed : Bool) (t : RunState σ) : Follows setup
      (placed p.name scope (if allowed then pipeBody setup p scope else Pure.pure ()))
      ((if allowed then [.tail p scope [] p.tail] else []) ++ [.steps scope rest])
      (fun _ => [.steps scope rest]) t := by
    cases allowed with
    | false => exact (Follows.done [.steps scope rest] t).placed p.name scope
    | true => exact (pipeBody_follows setup p scope t).append [.steps scope rest]
  refine (hguard.bind hbody).congr ?_
  rw [result_step, result_bind, result_step, ← result_bind, ← placed_bind, result_placed,
    result_placed, result_runPipeStep]

theorem forEach_follows {f : α → Run σ Unit} {g : α → Work}
    (hfg : ∀ a s, Follows setup (f a) [g a] (fun _ => []) s) (as : List α) (s : RunState σ) :
    Follows setup (forEach f as) (as.map g) (fun _ => []) s := by
  induction as generalizing s with
  | nil => exact .done [] s
  | cons a rest ih => exact ((hfg a s).append (rest.map g)).bind fun _ t => ih t

theorem forIndices_follows {scope : Scope} {body : Steps}
    (hbody : ∀ s, Follows setup (execute setup scope body) [.steps scope body] (fun _ => []) s)
    (var : String) (n : Nat) (i : Int) (s : RunState σ) :
    Follows setup (forIndices var (execute setup scope body) n i) [.rounds var scope body n i]
      (fun _ => []) s := by
  induction n generalizing i s with
  | zero => exact .move rfl rfl (.done [] s)
  | succ n ih =>
    exact .move rfl rfl (((hbody _).append [.rounds var scope body n (i + 1)]).bind fun _ t =>
      ih (i + 1) t)

/-- Every run of steps follows its course. The induction is on the steps; a case for each
kind of step. -/
theorem execute_follows (steps : Steps) (scope : Scope) (s : RunState σ) :
    Follows setup (execute setup scope steps) [.steps scope steps] (fun _ => []) s := by
  induction steps generalizing scope s with
  | done => exact .move rfl rfl (.done [] s)
  | command c rest ih =>
    have hstep : Follows setup (step c.name scope (runCommand setup c scope))
        [.steps scope (.command c rest)] (fun _ => [.steps scope rest]) s :=
      .visit rfl (runCommand_upholds (Discipline.any scope) setup c) (result_step ..)
    exact hstep.bind fun _ t => ih scope t
  | eachSegment name body rest ihb ihr =>
    -- The segments are read before the first of them is entered.
    have hbody := forEach_follows setup (fun id t => ihb (scope.withSegment id) t)
      s.store.segments (s.entered name scope)
    exact .move rfl rfl ((hbody.append [.steps scope rest]).bind fun _ t => ihr scope t)
  | eachSequence name types body rest ihb ihr =>
    have hbody := forEach_follows setup
      (fun (p : SequenceType × SequenceId) t => ihb (scope.enterSequence p.1 p.2) t)
      (s.store.sequencesOf types) (s.entered name scope)
    exact .move rfl rfl ((hbody.append [.steps scope rest]).bind fun _ t => ihr scope t)
  | pipe p rest ih => exact (pipe_follows setup p scope rest s).bind fun _ t => ih scope t
  | assign a rest ih =>
    have hstep : Follows setup (step a.name scope (runAssign a scope))
        [.steps scope (.assign a rest)] (fun _ => [.steps scope rest]) s :=
      .visit rfl (runAssign_upholds (Discipline.any scope) a) (result_step ..)
    exact hstep.bind fun _ t => ih scope t
  | branch name condition yes no rest ihy ihn ihr =>
    have hstep : Follows setup (step name scope (do ofExcept (condition.eval (← store) scope)))
        [.steps scope (.branch name condition yes no rest)]
        (fun taken => [.steps scope (if taken then yes else no), .steps scope rest]) s :=
      .visit rfl (condition_upholds (Discipline.any scope) condition) (result_step ..)
    refine hstep.bind fun taken t => ?_
    cases taken with
    | true => exact ((ihy scope t).append [.steps scope rest]).bind fun _ u => ihr scope u
    | false => exact ((ihn scope t).append [.steps scope rest]).bind fun _ u => ihr scope u
  | loop head body rest ihb ihr =>
    have hstep : Follows setup (step head.name scope (loopRange head scope))
        [.steps scope (.loop head body rest)]
        (fun range => [.rounds head.var scope body range.length range.first, .steps scope rest])
        s :=
      .visit rfl (loopRange_upholds (Discipline.any scope) head) (result_step ..)
    exact hstep.bind fun range t =>
      ((forIndices_follows setup (ihb scope) head.var range.length range.first t).append
        [.steps scope rest]).bind fun _ u => ihr scope u
  | audioMap m rest ih =>
    have hstep : Follows setup (step m.name scope (runAudioMap m scope))
        [.steps scope (.audioMap m rest)] (fun _ => [.steps scope rest]) s :=
      .visit rfl (runAudioMap_upholds (Discipline.any scope) m) (result_step ..)
    exact hstep.bind fun _ t => ih scope t

/-- The visits of a whole run: until all work is done, or until one of them fails. -/
inductive Completes (setup : RunSetup σ) (ws : List Work) (s : RunState σ) :
    List (Visit σ) → Except Failure Unit → RunState σ → Prop
  | done {vs : List (Visit σ)} {t : RunState σ} (h : Course setup ws s vs [] t) :
    Completes setup ws s vs (.ok ()) t
  | failed {vs : List (Visit σ)} {v : Visit σ} {f : Failure} (h : Reaches setup ws s vs v)
      (hv : v.Fails f) : Completes setup ws s (vs ++ [v]) (.error f) v.after

theorem execute_completes (steps : Steps) (scope : Scope) (s : RunState σ) :
    ∃ vs, Completes setup [.steps scope steps] s vs ((execute setup scope steps).result s).1
      ((execute setup scope steps).result s).2 := by
  have hfollows := execute_follows setup steps scope s
  cases hr : ((execute setup scope steps).result s).1 with
  | ok a =>
    obtain ⟨vs, hc⟩ := hfollows.ok a hr
    exact ⟨vs, .done hc⟩
  | error f =>
    obtain ⟨vs, v, hreach, hfails, hafter⟩ := hfollows.error f hr
    rw [hafter]
    exact ⟨vs ++ [v], .failed hreach hfails⟩

/-- A clean-up writes itself into the record and nothing else. -/
theorem events_cleanUp (failed : Bool) (s : RunState σ) :
    ∃ report, ((cleanUp setup failed).result s).2.events = s.events ++ [.cleaned report] :=
  ⟨_, rfl⟩

/-- A run of an accepted pipeline that fails does so in its last visit: the failure is the
cause of that visit, placed once, in the step or stage that was evaluated and in its scope.
Nothing but the clean-up comes after it: no step is entered and no process is started. -/
theorem pipeline_failure_placed (cleanup : Bool) (p : Pipeline) (hp : p.validate = .ok ())
    (s : RunState σ) {f : Failure} (hf : ((pipeline setup cleanup p).result s).1 = .error f) :
    ∃ steps vs v, p.compile = .ok steps ∧
      Reaches setup [.steps .global steps] { s with next := firstSeq } vs v ∧ v.Fails f ∧
      ((pipeline setup cleanup p).result s).2 =
        (if cleanup then ((cleanUp setup true).result v.after).2 else v.after) ∧
      ∃ es, ((pipeline setup cleanup p).result s).2.events = v.after.events ++ es ∧
        ∀ e ∈ es, ∃ report, e = .cleaned report := by
  obtain ⟨steps, hsteps, -⟩ := map_eq_ok.mp hp
  rw [result_pipeline, hsteps] at hf ⊢
  obtain ⟨vs, v, hreach, hfails, hafter⟩ :=
    (execute_follows setup steps .global { s with next := firstSeq }).error f hf
  have hend : ((execute setup .global steps).result { s with next := firstSeq }).1.isOk = false := by
    rw [hf]
    rfl
  refine ⟨steps, vs, v, rfl, hreach, hfails, ?_⟩
  dsimp only
  rw [hafter, hend]
  refine ⟨rfl, ?_⟩
  cases cleanup with
  | false => exact ⟨[], (List.append_nil _).symm, fun e he => absurd he List.not_mem_nil⟩
  | true =>
    obtain ⟨report, hreport⟩ := events_cleanUp setup true v.after
    exact ⟨[.cleaned report], hreport, List.forall_mem_singleton.mpr ⟨report, rfl⟩⟩

/-- A segment and an audio sequence. -/
def sampleStore : Store :=
  (Store.empty.addSegment ⟨⟨1⟩⟩).addSequence .audio ⟨⟨2⟩⟩

/-- For each segment a pipe that reads each sequence by a parameter that is not set. -/
def unsetTake : Pipeline where
  name := "sample"
  operations :=
    let stage (name template : String) : CommandDecl := ⟨name, template, none, none⟩
    .eachSegment none
      (.pipe ⟨"mix", none, [⟨.eachSequence, [], [stage "read" "read %\x7bdynamic.take\x7d"]⟩],
        [stage "write" "write out"]⟩ .done) .done

/-- The failure has the name of the stage and the scope of its group. -/
theorem pipeline_failure_placed_unsetTake :
    let s : RunState Unit := ⟨sampleStore, 7, (), []⟩
    let scope : Scope := ⟨some ⟨⟨1⟩⟩, some (.audio, ⟨⟨2⟩⟩), none⟩
    let f : Failure := .within ⟨"read", "sample"⟩ scope
      (.paramNotFound "%\x7bdynamic.take\x7d" (.unbound .missingParameter))
    unsetTake.validate = .ok () ∧
    ((pipeline (sampleSetup [] []) true unsetTake).result s).1 = .error f ∧
    ∃ steps vs v, unsetTake.compile = .ok steps ∧
      Reaches (sampleSetup [] []) [.steps .global steps] { s with next := firstSeq } vs v ∧
      v.Fails f ∧
      ((pipeline (sampleSetup [] []) true unsetTake).result s).2 =
        ((cleanUp (sampleSetup [] []) true).result v.after).2 ∧
      ∃ es, ((pipeline (sampleSetup [] []) true unsetTake).result s).2.events =
          v.after.events ++ es ∧
        ∀ e ∈ es, ∃ report, e = .cleaned report :=
  ⟨by decide +kernel, by decide +kernel,
    pipeline_failure_placed (sampleSetup [] []) true unsetTake (by decide +kernel) _
      (by decide +kernel)⟩

end Run

end MediaPipeline
