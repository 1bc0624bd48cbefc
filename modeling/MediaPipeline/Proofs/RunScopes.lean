import MediaPipeline.Proofs.RunCourse

/-!
# Scopes of a run

A run enters segments and sequences that it has read from the store, and it never writes
what the store has registered. So the hierarchy is the same from the beginning of a run to
its end, every scope in which something is evaluated is registered in it, and no reference
fails because what its scope names is unknown. The main result is
`pipeline_scopes_registered`.
-/

namespace MediaPipeline

/-! ## What is registered -/

/-- A look-up found nothing because what it addressed is not registered. -/
def NotFoundReason.IsUnknown : NotFoundReason → Prop
  | .unknownSegment _ => True
  | .unknownSequence _ _ => True
  | .unknownResource _ => True
  | _ => False

/-- A cause that is not a reference into something unknown. -/
def Cause.IsKnown (c : Cause) : Prop := ∀ reason, c.reason? = some reason → ¬ reason.IsUnknown

/-- Two stores have the same segments, sequences and resources, with their parameters. -/
structure Store.SameHierarchy (s t : Store) : Prop where
  segments : t.segments = s.segments
  sequences : t.sequences = s.sequences
  resources : t.resources = s.resources
  owners : t.owners = s.owners

/-- A scope has no resource, and its segment and its sequence, if any, are registered. -/
structure Scope.RegisteredIn (scope : Scope) (s : Store) : Prop where
  resource : scope.resource = none
  segment : ∀ id, scope.segment = some id → id ∈ s.segments
  sequence : ∀ t id, scope.sequence = some (t, id) → id ∈ s.sequenceIds t

namespace Store.SameHierarchy

variable {s t : Store}

theorem refl (s : Store) : s.SameHierarchy s := ⟨rfl, rfl, rfl, rfl⟩

theorem flat (h : s.SameHierarchy t) (dynamic tmp : ParamMap) :
    s.SameHierarchy { t with dynamic := dynamic, tmp := tmp } :=
  ⟨h.segments, h.sequences, h.resources, h.owners⟩

theorem sequenceIds (h : s.SameHierarchy t) (type : SequenceType) :
    t.sequenceIds type = s.sequenceIds type := by
  rw [Store.sequenceIds, Store.sequenceIds, sequenceEntries, sequenceEntries, h.sequences]

theorem sequencesOf (h : s.SameHierarchy t) (types : List SequenceType) :
    t.sequencesOf types = s.sequencesOf types := by
  simp only [Store.sequencesOf, sequencePairs, h.sequenceIds]

theorem registeredIn (h : s.SameHierarchy t) {scope : Scope} (hscope : scope.RegisteredIn s) :
    scope.RegisteredIn t where
  resource := hscope.resource
  segment := by
    rw [h.segments]
    exact hscope.segment
  sequence := by
    intro type id hid
    rw [h.sequenceIds]
    exact hscope.sequence type id hid

end Store.SameHierarchy

theorem Store.mem_sequenceIds {s : Store} {types : List SequenceType} {t : SequenceType}
    {id : SequenceId} (h : (t, id) ∈ s.sequencesOf types) : id ∈ s.sequenceIds t := by
  obtain ⟨hpair, -⟩ := List.mem_filter.mp h
  obtain ⟨t', -, hid⟩ := List.mem_flatMap.mp hpair
  obtain ⟨id', hid', heq⟩ := List.mem_map.mp hid
  cases heq
  exact hid'

namespace Scope

variable {scope : Scope} {s : Store}

theorem registeredIn_global (s : Store) : global.RegisteredIn s where
  resource := rfl
  segment _ h := by cases h
  sequence _ _ h := by cases h

theorem RegisteredIn.withSegment (h : scope.RegisteredIn s) {id : SegmentId}
    (hid : id ∈ s.segments) : (scope.withSegment id).RegisteredIn s where
  resource := h.resource
  segment := by
    rintro _ ⟨⟩
    exact hid
  sequence := h.sequence

theorem RegisteredIn.enterSequence (h : scope.RegisteredIn s) {types : List SequenceType}
    {p : SequenceType × SequenceId} (hp : p ∈ s.sequencesOf types) :
    (scope.enterSequence p.1 p.2).RegisteredIn s where
  resource := rfl
  segment := h.segment
  sequence := by
    rintro _ _ ⟨⟩
    exact Store.mem_sequenceIds hp

end Scope

/-! ## Reading in a registered scope -/

namespace Store

variable {scope : Scope} {s : Store}

/-- Whatever the scope names is among its siblings. -/
theorem pick_known {α ι : Type} [DecidableEq ι] {siblings : List α} {key : α → ι}
    {current : Except NotFoundReason ι} {unknown : ι → NotFoundReason}
    (hcurrent : FailsWith (¬ ·.IsUnknown) current)
    (hid : ∀ id, current = .ok id → id ∈ siblings.map key) (selector : Selector) :
    FailsWith (¬ ·.IsUnknown) (pick siblings key current unknown selector) := by
  cases selector with
  | index i =>
    simp only [pick]
    split
    · exact .ok _
    · exact .error id
  | current =>
    cases current with
    | error reason => exact .error (hcurrent reason rfl)
    | ok id =>
      -- The search goes by key, so it finds a sibling, if not this one.
      obtain ⟨a, ha, hkey⟩ := List.mem_map.mp (hid id rfl)
      obtain ⟨i, hi⟩ := List.mem_iff_getElem?.mp ha
      have hmem : (a, i) ∈ siblings.zipIdx := by
        rw [List.mem_zipIdx_iff_getElem?]
        exact hi
      simp only [pick]
      split
      · exact .ok _
      · next hfind => exact absurd hkey (by simpa using List.find?_eq_none.mp hfind (a, i) hmem)

theorem stored_known (params : ParamMap) (name : String) :
    FailsWith (¬ ·.IsUnknown) (stored params name) := by
  unfold stored
  split
  · exact .ok _
  · exact .error id

theorem entryValue_known {ι : Type} [ToString ι] (name : String) (found : Nat × Entry ι) :
    FailsWith (¬ ·.IsUnknown) (entryValue name found) := by
  unfold entryValue
  split
  · exact .ok _
  · split
    · exact .ok _
    · exact stored_known _ _

theorem segmentAt_known (h : scope.RegisteredIn s) (selector : Selector) :
    FailsWith (¬ ·.IsUnknown) (s.segmentAt scope selector) := by
  refine pick_known ?_ ?_ selector
  · split
    · exact .ok _
    · exact .error id
  · intro id hid
    cases hsegment : scope.segment with
    | none =>
      rw [hsegment] at hid
      cases hid
    | some id' =>
      rw [hsegment] at hid
      cases hid
      simpa using h.segment id hsegment

theorem sequenceAt_known (h : scope.RegisteredIn s) (selector : Selector) :
    FailsWith (¬ ·.IsUnknown) (s.sequenceAt scope selector) := by
  unfold sequenceAt
  split
  · exact .error id
  · next t id hsequence =>
    refine pick_known (.ok _) ?_ selector
    rintro _ ⟨⟩
    exact h.sequence t id hsequence

theorem resourceAt_known (h : scope.RegisteredIn s) (siblings : List (Entry ResourceId))
    (selector : Selector) : FailsWith (¬ ·.IsUnknown) (resourceAt siblings scope selector) := by
  unfold resourceAt
  rw [h.resource]
  exact pick_known (.error id) (fun _ hid => by cases hid) selector

/-- No look-up in a registered scope comes upon something unknown. -/
theorem find_known (h : scope.RegisteredIn s) (kind : ContextKind) (selector : Selector)
    (name : String) : FailsWith (¬ ·.IsUnknown) (s.find kind scope selector name) := by
  cases kind with
  | dynamic => exact stored_known _ _
  | tmp => exact stored_known _ _
  | segment =>
    simp only [find]
    split
    · exact .ok _
    · refine (segmentAt_known h selector).bind fun found _ => ?_
      split
      · exact .ok _
      · split
        · exact .ok _
        · exact .error id
  | sequence =>
    simp only [find]
    split
    · exact .error id
    · split
      · exact .ok _
      · split
        · exact .ok _
        · exact (sequenceAt_known h selector).bind fun found _ => entryValue_known name found
  | resource =>
    have hsiblings : FailsWith (¬ ·.IsUnknown) (s.resourcesIn scope) := by
      unfold resourcesIn
      split
      · exact .error id
      · exact .error id
      · exact .ok _
    refine hsiblings.bind fun siblings _ => ?_
    split
    · exact .ok _
    · exact (resourceAt_known h siblings selector).bind fun found _ => entryValue_known name found

theorem lookup_known (h : scope.RegisteredIn s) (kind : ContextKind) (selector : Selector)
    (name : String) : FailsWith (¬ ·.reason.IsUnknown) (s.lookup kind scope selector name) :=
  (find_known h kind selector name).mapError fun _ hreason => hreason

end Store

theorem Template.resolve_known {scope : Scope} {s : Store} (h : scope.RegisteredIn s)
    (r : Reference) : FailsWith Cause.IsKnown (resolve s scope r) := by
  have hselector : FailsWith Cause.IsKnown (siblingSelector s scope r) := by
    unfold siblingSelector
    split
    · exact .ok _
    · exact .ok _
    · split
      · next missing hmissing =>
        refine .error ?_
        rintro _ ⟨⟩
        exact Store.lookup_known h .dynamic .current _ missing hmissing
      · split
        · exact .ok _
        · refine .error ?_
          rintro _ ⟨⟩
  refine hselector.bind fun selector _ => ?_
  split
  · exact .ok _
  · next missing hmissing =>
    refine .error ?_
    rintro _ ⟨⟩
    exact Store.lookup_known h r.kind selector r.name missing hmissing

theorem channelCount_known {s : Store} {id : SequenceId} (h : id ∈ s.sequenceIds .audio) :
    FailsWith Cause.IsKnown (channelCount s id) := by
  have hscope : (Scope.global.withSequence .audio id).RegisteredIn s := {
    resource := rfl
    segment := fun _ hid => by cases hid
    sequence := fun _ _ hid => by
      cases hid
      exact h }
  unfold channelCount
  split
  · next missing hmissing =>
    refine .error ?_
    rintro _ ⟨⟩
    exact Store.lookup_known hscope .sequence .current _ missing hmissing
  · split
    · exact .ok _
    · refine .error ?_
      rintro _ ⟨⟩

namespace Run

variable {σ α : Type} {s₀ : Store}

/-- What every evaluation in a registered scope is held to. -/
theorem discipline_of_registeredIn {scope : Scope} (h : scope.RegisteredIn s₀) :
    Discipline s₀.SameHierarchy Cause.IsKnown scope where
  flat _ dynamic tmp hs := hs.flat dynamic tmp
  reference _ hs r := Template.resolve_known (hs.registeredIn h) r
  channels _ _ _ hid := channelCount_known hid
  other c hc := by
    intro reason hreason
    rw [hc] at hreason
    cases hreason

/-! ## Along the course -/

/-- The scopes that stand in a piece of work. -/
def Work.scopes : Work → List Scope
  | .steps scope _ => [scope]
  | .rounds _ scope _ _ _ => [scope]
  | .tail _ scope _ _ => [scope]
  | .cycles p => [p.scope]
  | .groups p _ scopes => p.scope :: scopes
  | .group p _ scopes here _ _ => p.scope :: here :: scopes

/-- All scopes of some work are registered. -/
def RegisteredWork (s₀ : Store) (ws : List Work) : Prop :=
  ∀ w ∈ ws, ∀ scope ∈ w.scopes, scope.RegisteredIn s₀

/-- A visit is made in a registered scope, leaves the hierarchy and what follows from it
as it should be, and does not fail because of something unknown. -/
structure Visit.Registered (s₀ : Store) (v : Visit σ) : Prop where
  scope : v.scope.RegisteredIn s₀
  before : s₀.SameHierarchy v.before.store
  after : s₀.SameHierarchy v.after.store
  follow : ∀ ws, v.outcome = .ok ws → RegisteredWork s₀ ws
  known : ∀ c, v.outcome = .error (.plain c) → c.IsKnown

/-- What is done next goes on with registered work. -/
def Next.Registered (s₀ : Store) : Next σ → Prop
  | .move ws t => RegisteredWork s₀ ws ∧ s₀.SameHierarchy t.store
  | .visit v => v.Registered s₀

theorem registeredWork_cons {w : Work} {ws : List Work} :
    RegisteredWork s₀ (w :: ws) ↔ (∀ scope ∈ w.scopes, scope.RegisteredIn s₀) ∧ RegisteredWork s₀ ws :=
  List.forall_mem_cons

theorem registeredWork_append {ws ws' : List Work} :
    RegisteredWork s₀ (ws ++ ws') ↔ RegisteredWork s₀ ws ∧ RegisteredWork s₀ ws' :=
  List.forall_mem_append

theorem registeredWork_nil : RegisteredWork s₀ [] := fun _ h => absurd h List.not_mem_nil

theorem Visit.registered_of {operation : OperationName} {scope : Scope} {act : Run σ α}
    {follow : α → List Work} {s : RunState σ} (hscope : scope.RegisteredIn s₀)
    (hs : s₀.SameHierarchy s.store) (hact : act.Upholds s₀.SameHierarchy Cause.IsKnown)
    (hfollow : ∀ a, RegisteredWork s₀ (follow a)) :
    (Visit.of operation scope act follow s).Registered s₀ where
  scope := hscope
  before := hs
  after := (hact s hs).1
  follow := by
    intro ws hws
    obtain ⟨a, -, rfl⟩ := map_eq_ok.mp hws
    exact hfollow a
  known := by
    intro c hc
    cases hr : (act.result s).1 with
    | ok a =>
      simp only [Visit.of, hr, Except.map] at hc
      cases hc
    | error f =>
      simp only [Visit.of, hr, Except.map] at hc
      cases hc
      obtain ⟨c', hc', hknown⟩ := (hact s hs).2 _ hr
      cases hc'
      exact hknown

theorem registeredIn_cycleScopes {s : Store} {scope : Scope} (hs : s₀.SameHierarchy s)
    (h : scope.RegisteredIn s₀) (c : CycleTemplate) :
    ∀ here ∈ cycleScopes s scope c, here.RegisteredIn s₀ := by
  unfold cycleScopes
  cases c.repetition with
  | once => simpa using h
  | eachSegment =>
    rw [hs.segments]
    intro here hhere
    obtain ⟨id, hid, rfl⟩ := List.mem_map.mp hhere
    exact h.withSegment hid
  | eachSequence =>
    rw [hs.sequencesOf]
    intro here hhere
    obtain ⟨p, hp, rfl⟩ := List.mem_map.mp hhere
    exact h.enterSequence hp

theorem registeredWork_steps {scope : Scope} (h : scope.RegisteredIn s₀) (steps : Steps) :
    RegisteredWork s₀ [.steps scope steps] := by
  simpa [RegisteredWork, Work.scopes] using h

/-- One piece of work keeps the hierarchy and registered scopes. A case for each kind of
work, and for each kind of step. -/
theorem Work.next_registered (setup : RunSetup σ) {s : RunState σ} {w : Work}
    (hs : s₀.SameHierarchy s.store) (hw : ∀ scope ∈ w.scopes, scope.RegisteredIn s₀) :
    (w.next setup s).Registered s₀ := by
  cases w with
  | steps scope steps =>
    have hscope : scope.RegisteredIn s₀ := hw scope List.mem_cons_self
    have hd := discipline_of_registeredIn hscope
    cases steps with
    | done => exact ⟨registeredWork_nil, hs⟩
    | command c rest =>
      exact Visit.registered_of hscope hs (runCommand_upholds hd setup c) fun _ =>
        registeredWork_steps hscope rest
    | eachSegment name body rest =>
      refine ⟨registeredWork_append.mpr ⟨?_, registeredWork_steps hscope rest⟩, hs⟩
      rw [hs.segments]
      refine List.forall_mem_map.mpr fun id hid => ?_
      simpa [Work.scopes] using hscope.withSegment hid
    | eachSequence name types body rest =>
      refine ⟨registeredWork_append.mpr ⟨?_, registeredWork_steps hscope rest⟩, hs⟩
      rw [hs.sequencesOf]
      refine List.forall_mem_map.mpr fun p hp => ?_
      simpa [Work.scopes] using hscope.enterSequence hp
    | pipe p rest =>
      refine Visit.registered_of hscope hs (guard_upholds hd p.guard) fun allowed =>
        registeredWork_append.mpr ⟨?_, registeredWork_steps hscope rest⟩
      cases allowed with
      | false => exact registeredWork_nil
      | true => simpa [RegisteredWork, Work.scopes] using hscope
    | assign a rest =>
      exact Visit.registered_of hscope hs (runAssign_upholds hd a) fun _ =>
        registeredWork_steps hscope rest
    | branch name condition yes no rest =>
      exact Visit.registered_of hscope hs (condition_upholds hd condition) fun _ => by
        simpa [RegisteredWork, Work.scopes] using hscope
    | loop head body rest =>
      exact Visit.registered_of hscope hs (loopRange_upholds hd head) fun _ => by
        simpa [RegisteredWork, Work.scopes] using hscope
    | audioMap m rest =>
      exact Visit.registered_of hscope hs (runAudioMap_upholds hd m) fun _ =>
        registeredWork_steps hscope rest
  | rounds var scope body n i =>
    have hscope : scope.RegisteredIn s₀ := hw scope List.mem_cons_self
    cases n with
    | zero => exact ⟨registeredWork_nil, hs⟩
    | succ n => exact ⟨by simpa [RegisteredWork, Work.scopes] using hscope, hs.flat _ _⟩
  | tail p scope resolved left =>
    have hscope : scope.RegisteredIn s₀ := hw scope List.mem_cons_self
    cases left with
    | nil => exact ⟨by simpa [RegisteredWork, Work.scopes] using hscope, hs⟩
    | cons c left =>
      exact Visit.registered_of hscope hs
        (.onStore (resolve_upholds (discipline_of_registeredIn hscope) setup.workspace c)) fun _ => by
          simpa [RegisteredWork, Work.scopes] using hscope
  | cycles p =>
    obtain ⟨pipe, scope, resolved, made, cycles⟩ := p
    have hscope : scope.RegisteredIn s₀ := hw scope List.mem_cons_self
    cases cycles with
    | nil =>
      exact Visit.registered_of hscope hs
        (runPipe_upholds (discipline_of_registeredIn hscope).other setup _) fun _ =>
          registeredWork_nil
    | cons c left =>
      refine ⟨?_, hs⟩
      -- The store is read here, after other cycles have written parameters.
      have hgroups := registeredIn_cycleScopes hs hscope c
      simpa [RegisteredWork, Work.scopes] using ⟨hscope, hgroups⟩
  | groups p stages scopes =>
    cases scopes with
    | nil => exact ⟨by simpa [RegisteredWork, Work.scopes] using hw, hs⟩
    | cons here scopes => exact ⟨by simpa [RegisteredWork, Work.scopes] using hw, hs⟩
  | group p stages scopes here resolved left =>
    cases left with
    | nil =>
      refine ⟨?_, hs⟩
      simp only [Work.scopes, List.forall_mem_cons] at hw
      simpa [RegisteredWork, Work.scopes] using ⟨hw.1, hw.2.2⟩
    | cons c left =>
      have hhere : here.RegisteredIn s₀ := hw here (by simp [Work.scopes])
      exact Visit.registered_of hhere hs
        (.onStore (resolve_upholds (discipline_of_registeredIn hhere) setup.workspace c)) fun _ => by
          simpa [RegisteredWork, Work.scopes] using hw

/-- A whole course keeps the hierarchy and registered scopes. -/
theorem Course.registered {setup : RunSetup σ} {ws us : List Work} {s t : RunState σ}
    {vs : List (Visit σ)} (h : Course setup ws s vs us t) (hs : s₀.SameHierarchy s.store)
    (hws : RegisteredWork s₀ ws) :
    RegisteredWork s₀ us ∧ s₀.SameHierarchy t.store ∧ ∀ v ∈ vs, v.Registered s₀ := by
  induction h with
  | here ws s => exact ⟨hws, hs, fun v hv => absurd hv List.not_mem_nil⟩
  | move hw _ ih =>
    obtain ⟨hhead, hrest⟩ := registeredWork_cons.mp hws
    have hnext := Work.next_registered setup hs hhead
    rw [hw] at hnext
    exact ih hnext.2 (registeredWork_append.mpr ⟨hnext.1, hrest⟩)
  | visit hw hv _ ih =>
    obtain ⟨hhead, hrest⟩ := registeredWork_cons.mp hws
    have hnext := Work.next_registered setup hs hhead
    rw [hw] at hnext
    obtain ⟨hus, ht, hvs⟩ :=
      ih hnext.after (registeredWork_append.mpr ⟨hnext.follow _ hv, hrest⟩)
    exact ⟨hus, ht, List.forall_mem_cons.mpr ⟨hnext, hvs⟩⟩

theorem Reaches.registered {setup : RunSetup σ} {ws : List Work} {s : RunState σ}
    {vs : List (Visit σ)} {v : Visit σ} (h : Reaches setup ws s vs v)
    (hs : s₀.SameHierarchy s.store) (hws : RegisteredWork s₀ ws) :
    v.Registered s₀ ∧ ∀ u ∈ vs, u.Registered s₀ := by
  obtain ⟨w, us, t, hc, hw⟩ := h
  obtain ⟨hus, ht, hvs⟩ := hc.registered hs hws
  have hnext := Work.next_registered setup ht (registeredWork_cons.mp hus).1
  rw [hw] at hnext
  exact ⟨hnext, hvs⟩

theorem Completes.registered {setup : RunSetup σ} {ws : List Work} {s t : RunState σ}
    {vs : List (Visit σ)} {r : Except Failure Unit} (h : Completes setup ws s vs r t)
    (hs : s₀.SameHierarchy s.store) (hws : RegisteredWork s₀ ws) :
    s₀.SameHierarchy t.store ∧ (∀ v ∈ vs, v.Registered s₀) ∧
      ∀ f, r = .error f → f.rootCause.IsKnown := by
  cases h with
  | done hc =>
    obtain ⟨-, ht, hvs⟩ := hc.registered hs hws
    exact ⟨ht, hvs, fun f hf => by cases hf⟩
  | failed hr hf =>
    obtain ⟨hv, hvs⟩ := hr.registered hs hws
    refine ⟨hv.after, ?_, ?_⟩
    · exact List.forall_mem_append.mpr ⟨hvs, by simpa using hv⟩
    · rintro _ ⟨⟩
      obtain ⟨c, hc, rfl⟩ := hf
      exact hv.known c hc

/-- A run evaluates in registered scopes only, writes nothing but dynamic and internal
parameters, and fails, if it does, for other reasons than that something is unknown. -/
theorem pipeline_scopes_registered (setup : RunSetup σ) (cleanup : Bool) (p : Pipeline)
    (hp : p.validate = .ok ()) (s : RunState σ) :
    let r := (pipeline setup cleanup p).result s
    ∃ steps vs t, p.compile = .ok steps ∧
      Completes setup [.steps .global steps] { s with next := firstSeq } vs r.1 t ∧
      r.2.store = t.store ∧ (∀ v ∈ vs, v.scope.RegisteredIn v.before.store) ∧
      s.store.SameHierarchy r.2.store ∧ ∀ f, r.1 = .error f → f.rootCause.IsKnown := by
  obtain ⟨steps, hsteps, -⟩ := map_eq_ok.mp hp
  obtain ⟨vs, hcompletes⟩ := execute_completes setup steps .global { s with next := firstSeq }
  obtain ⟨hsame, hvs, hknown⟩ := hcompletes.registered (.refl s.store)
    (registeredWork_steps (Scope.registeredIn_global s.store) steps)
  have hstore : ((pipeline setup cleanup p).result s).2.store =
      ((execute setup .global steps).result { s with next := firstSeq }).2.store := by
    rw [result_pipeline, hsteps]
    cases cleanup <;> rfl
  have hoks : ((pipeline setup cleanup p).result s).1 =
      ((execute setup .global steps).result { s with next := firstSeq }).1 := by
    rw [result_pipeline, hsteps]
  dsimp only
  rw [hstore, hoks]
  exact ⟨steps, vs, _, hsteps, hcompletes, rfl,
    fun v hv => (hvs v hv).before.registeredIn (hvs v hv).scope, hsame, hknown⟩

/-- A group of a pipe is evaluated in a segment and a sequence, and fails there. -/
theorem pipeline_scopes_registered_unsetTake :
    let s : RunState Unit := ⟨sampleStore, 7, (), []⟩
    let r := (pipeline (sampleSetup [] []) true unsetTake).result s
    unsetTake.validate = .ok () ∧ r.1.isOk = false ∧
    ∃ steps vs t, unsetTake.compile = .ok steps ∧
      Completes (sampleSetup [] []) [.steps .global steps] { s with next := firstSeq } vs r.1 t ∧
      r.2.store = t.store ∧ (∀ v ∈ vs, v.scope.RegisteredIn v.before.store) ∧
      s.store.SameHierarchy r.2.store ∧ ∀ f, r.1 = .error f → f.rootCause.IsKnown :=
  ⟨by decide +kernel, by decide +kernel,
    pipeline_scopes_registered (sampleSetup [] []) true unsetTake (by decide +kernel) _⟩

end Run

end MediaPipeline
