import MediaPipeline.Proofs.PipeLifecycle
import MediaPipeline.Proofs.Registration
import MediaPipeline.Proofs.RunFrame

/-!
# The order of iterations

Steps for each segment and for each sequence can be nested, to any depth, and the cycles of a
pipe are repeated for each segment or sequence. A run reads from the store what it iterates
over when it gets there, after other steps have written to the store. Since they write
parameters only, all of them find the same `Registry`, and this is what the calls that built
the store have registered, each identifier where it was registered first. The main result is
`iteration_order`: a nest executes its body along the lexicographic product of its levels, and
the groups of a pipe are made in the same order.
-/

namespace MediaPipeline

/-! ## Levels -/

/-- What is iterated over: the segments, or the sequences of the listed types, of all types
if none is listed. -/
inductive Level where
  | segments
  | sequences (types : List SequenceType)

/-- One turn of an iteration. -/
inductive Turn where
  | segment (id : SegmentId)
  | sequence (type : SequenceType) (id : SequenceId)
deriving DecidableEq

/-- Whether a level has a turn. -/
def Level.Has (r : Registry) : Level → Turn → Prop
  | .segments, .segment id => id ∈ r.segments
  | .sequences types, .sequence t id => (types = [] ∨ t ∈ types) ∧ id ∈ r.sequences t
  | _, _ => False

/-- One turn comes before another one of the same level: video sequences come before audio
sequences, and these before subtitles. -/
def Turn.Precedes (r : Registry) : Turn → Turn → Prop
  | .segment a, .segment b => r.segments.idxOf a < r.segments.idxOf b
  | .sequence t a, .sequence u b =>
    SequenceType.all.idxOf t < SequenceType.all.idxOf u ∨
      t = u ∧ (r.sequences t).idxOf a < (r.sequences t).idxOf b
  | _, _ => False

/-- The turns of a level in order. -/
def Level.turns (r : Registry) : Level → List Turn
  | .segments => r.segments.map .segment
  | .sequences types =>
    (SequenceType.all.filter fun t => types.isEmpty || types.contains t).flatMap fun t =>
      (r.sequences t).map (.sequence t)

/-- The product of some levels, the first of which changes most slowly. -/
def product (r : Registry) : List Level → List (List Turn)
  | [] => [[]]
  | level :: levels =>
    (level.turns r).flatMap fun turn => (product r levels).map (turn :: ·)

theorem Level.mem_turns {r : Registry} {level : Level} {turn : Turn} :
    turn ∈ level.turns r ↔ level.Has r turn := by
  cases level with
  | segments => cases turn <;> simp [turns, Has]
  | sequences types =>
    cases turn with
    | segment id => simp [turns, Has]
    | sequence t id =>
      have hall : t ∈ SequenceType.all := by cases t <;> decide
      simp [turns, Has, hall]

theorem pairwise_idxOf {α : Type} [DecidableEq α] {l : List α} (h : l.Nodup) :
    l.Pairwise fun a b => l.idxOf a < l.idxOf b := by
  rw [List.pairwise_iff_getElem]
  intro i j hi hj hij
  rwa [h.idxOf_getElem, h.idxOf_getElem]

theorem Level.pairwise_turns {r : Registry} (h : r.Distinct) (level : Level) :
    (level.turns r).Pairwise (Turn.Precedes r) := by
  cases level with
  | segments => exact List.pairwise_map.mpr (pairwise_idxOf h.segments)
  | sequences types =>
    refine List.pairwise_flatMap.mpr ⟨fun t _ => ?_, ?_⟩
    · refine List.pairwise_map.mpr ((pairwise_idxOf (h.sequences t)).imp fun hlt => ?_)
      exact .inr ⟨rfl, hlt⟩
    · refine ((pairwise_idxOf (by decide)).filter _).imp fun {t u} hlt => ?_
      intro x hx y hy
      obtain ⟨a, -, rfl⟩ := List.mem_map.mp hx
      obtain ⟨b, -, rfl⟩ := List.mem_map.mp hy
      exact .inl hlt

/-- The product has every combination of turns. -/
theorem mem_product {r : Registry} {levels : List Level} {turns : List Turn} :
    turns ∈ product r levels ↔ List.Forall₂ (Level.Has r) levels turns := by
  induction levels generalizing turns with
  | nil => simp [product]
  | cons level levels ih =>
    simp only [product, List.mem_flatMap, List.mem_map, Level.mem_turns, ih]
    constructor
    · rintro ⟨turn, hturn, rest, hrest, rfl⟩
      exact .cons hturn hrest
    · rintro (_ | ⟨hturn, hrest⟩)
      exact ⟨_, hturn, _, hrest, rfl⟩

/-- The product is in lexicographic order. -/
theorem pairwise_product {r : Registry} (h : r.Distinct) (levels : List Level) :
    (product r levels).Pairwise (List.Lex (Turn.Precedes r)) := by
  induction levels with
  | nil => exact List.pairwise_singleton _ _
  | cons level levels ih =>
    refine List.pairwise_flatMap.mpr ⟨fun turn _ => ?_, ?_⟩
    · exact List.pairwise_map.mpr (ih.imp fun hlex => .cons hlex)
    · refine (level.pairwise_turns h).imp fun hprecedes x hx y hy => ?_
      obtain ⟨a, -, rfl⟩ := List.mem_map.mp hx
      obtain ⟨b, -, rfl⟩ := List.mem_map.mp hy
      exact .rel hprecedes

theorem Turn.not_precedes_self (r : Registry) (turn : Turn) : ¬ turn.Precedes r turn := by
  cases turn <;> simp [Precedes]

/-- The product has nothing twice. -/
theorem nodup_product {r : Registry} (h : r.Distinct) (levels : List Level) :
    (product r levels).Nodup := by
  have hirreflexive (turns : List Turn) : ¬ List.Lex (Turn.Precedes r) turns turns := by
    induction turns with
    | nil => exact fun hlex => nomatch hlex
    | cons turn turns ih =>
      rintro (_ | hprecedes | hlex)
      · exact turn.not_precedes_self r hprecedes
      · exact ih hlex
  refine (pairwise_product h levels).imp fun {a b} hlex => ?_
  rintro rfl
  exact hirreflexive a hlex

/-! ## Scopes -/

/-- The segment of a turn. -/
def Turn.segment? : Turn → Option SegmentId
  | .segment id => some id
  | .sequence _ _ => none

/-- The sequence of a turn. -/
def Turn.sequence? : Turn → Option (SequenceType × SequenceId)
  | .segment _ => none
  | .sequence t id => some (t, id)

namespace Scope

/-- The scope of a turn. -/
def enter (scope : Scope) : Turn → Scope
  | .segment id => scope.withSegment id
  | .sequence t id => scope.enterSequence t id

/-- The scope that turns lead to, from the outermost to the innermost: of each kind the
innermost counts, and the outer scope where there is none. -/
def along (scope : Scope) (turns : List Turn) : Scope where
  segment := (turns.filterMap Turn.segment?).getLast?.or scope.segment
  sequence := (turns.filterMap Turn.sequence?).getLast?.or scope.sequence
  resource := if (turns.filterMap Turn.sequence?).isEmpty then scope.resource else none

@[simp] theorem along_nil (scope : Scope) : scope.along [] = scope := rfl

theorem getLast?_cons_or {α : Type} (a : α) (l : List α) (o : Option α) :
    (a :: l).getLast?.or o = l.getLast?.or (some a) := by
  rw [List.getLast?_cons]
  cases l.getLast? <;> rfl

theorem along_cons (scope : Scope) (turn : Turn) (turns : List Turn) :
    scope.along (turn :: turns) = (scope.enter turn).along turns := by
  cases turn <;>
    simp [along, enter, withSegment, enterSequence, withSequence, Turn.segment?, Turn.sequence?,
      getLast?_cons_or]

end Scope

/-- The levels that the stages of a cycle are repeated for. -/
def CycleTemplate.levels (c : CycleTemplate) : List Level :=
  match c.repetition with
  | .once => []
  | .eachSegment => [.segments]
  | .eachSequence => [.sequences c.types]

/-- The stages of cycles, in the order of the cycles, with the scopes that they are resolved
in, in the order of the turns of each cycle. -/
def cycleTurns (r : Registry) (scope : Scope) (cycles : List CycleTemplate) :
    List (List CommandTemplate × Scope) :=
  cycles.flatMap fun c => (product r c.levels).map fun turns => (c.stages, scope.along turns)

/-! ## Nests -/

/-- Steps around a body: one inside the other, each for the turns of a level. -/
def nest : List (OperationName × Level) → Steps → Steps
  | [], body => body
  | (name, .segments) :: levels, body => .eachSegment name (nest levels body) .done
  | (name, .sequences types) :: levels, body => .eachSequence name types (nest levels body) .done

/-- What the execution of a nest consists of. -/
inductive Item where
  /-- A step of the nest is entered. -/
  | enter (name : OperationName) (scope : Scope)
  /-- The body is executed. -/
  | body (scope : Scope)

/-- The scope in which the body is executed. -/
def Item.body? : Item → Option Scope
  | .enter _ _ => none
  | .body scope => some scope

/-- The items of a nest in order. -/
def schedule (r : Registry) (scope : Scope) : List (OperationName × Level) → List Item
  | [] => [.body scope]
  | (name, level) :: levels =>
    .enter name scope ::
      (level.turns r).flatMap fun turn => schedule r (scope.enter turn) levels

/-- The body is scheduled along the product of the levels. -/
theorem bodies_schedule (r : Registry) (scope : Scope) (levels : List (OperationName × Level)) :
    (schedule r scope levels).filterMap Item.body? =
      (product r (levels.map Prod.snd)).map scope.along := by
  induction levels generalizing scope with
  | nil => rfl
  | cons level levels ih =>
    obtain ⟨name, level⟩ := level
    simp only [schedule, product, List.map_cons, List.filterMap_cons, Item.body?,
      List.filterMap_flatMap, List.map_flatMap, List.map_map, ih, Function.comp_def,
      Scope.along_cons]

namespace Run

variable {σ α β : Type}

/-- Carry out an item of a nest. -/
def Item.act (setup : RunSetup σ) (body : Steps) : Item → Run σ Unit
  | .enter name scope => record (.entered name scope)
  | .body scope => execute setup scope body

/-- No step registers anything. -/
theorem outlasts_registry (r : Registry) (names : List String) :
    Outlasts (fun s => s.registry = r) names where
  dynamic _ _ _ _ hs := hs
  tmp _ _ _ hs := hs

theorem execute_keeps_registry (setup : RunSetup σ) (r : Registry) (steps : Steps) (scope : Scope) :
    Keeps (fun s => s.registry = r) (execute setup scope steps) :=
  execute_keeps setup (outlasts_registry r _) scope

/-! ### Iterations -/

theorem result_forEach_append (f : α → Run σ Unit) (as bs : List α) (s : RunState σ) :
    (forEach f (as ++ bs)).result s = (do forEach f as; forEach f bs : Run σ Unit).result s := by
  induction as generalizing s with
  | nil => rw [List.nil_append, forEach, result_bind, result_pure]
  | cons a as ih =>
    rw [List.cons_append, forEach, forEach, bind_assoc, result_bind, result_bind]
    rcases (f a).result s with ⟨e | u, t⟩
    · rfl
    · exact ih t

/-- Each of some parts is itself an iteration, as long as the store is as it should be. -/
theorem result_forEach_flatMap {I : Store → Prop} {f : α → Run σ Unit} {g : β → Run σ Unit}
    {h : α → List β} (hkeeps : ∀ a, Keeps I (f a))
    (hfg : ∀ a s, I s.store → (f a).result s = (forEach g (h a)).result s) (as : List α)
    (s : RunState σ) (hs : I s.store) :
    (forEach f as).result s = (forEach g (as.flatMap h)).result s := by
  induction as generalizing s with
  | nil => rfl
  | cons a as ih =>
    have ht := hkeeps a s hs
    rw [List.flatMap_cons, result_forEach_append, forEach, result_bind, result_bind, ← hfg a s hs]
    rcases hr : (f a).result s with ⟨e | u, t⟩
    · rfl
    · rw [hr] at ht
      exact ih t ht

theorem filter_flatMap_fst (keep : α → Bool) (f : α → List β) (as : List α) :
    ((as.flatMap fun a => (f a).map fun b => (a, b)).filter fun p => keep p.1) =
      (as.filter keep).flatMap fun a => (f a).map fun b => (a, b) := by
  induction as with
  | nil => rfl
  | cons a as ih =>
    rw [List.flatMap_cons, List.filter_append, ih, List.filter_map, List.filter_cons]
    cases hkeep : keep a <;> simp [Function.comp_def, hkeep]

/-- A run finds the turns of a level that selects sequences. -/
theorem map_sequencesOf (s : Store) (types : List SequenceType) :
    (s.sequencesOf types).map (fun p => Turn.sequence p.1 p.2) =
      (Level.sequences types).turns s.registry := by
  rw [Store.sequencesOf, Store.sequencePairs,
    filter_flatMap_fst fun t => types.isEmpty || types.contains t, List.map_flatMap, Level.turns]
  simp only [List.map_map, Function.comp_def, Store.registry]

theorem forEach_map (f : β → Run σ Unit) (g : α → β) (as : List α) :
    forEach f (as.map g) = forEach (fun a => f (g a)) as := by
  induction as with
  | nil => rfl
  | cons a as ih => rw [List.map_cons, forEach, forEach, ih]

theorem forEach_eq_forM (f : α → Run σ Unit) (as : List α) : forEach f as = as.forM f := by
  induction as with
  | nil => rfl
  | cons a as ih =>
    rw [forEach, ih]
    rfl

theorem result_bind_unit (act : Run σ Unit) (s : RunState σ) :
    (do act; pure () : Run σ Unit).result s = act.result s := by
  rw [bind_pure_unit]

/-- The outermost step of a nest is entered, and then its turns are taken. -/
theorem result_nest_cons (setup : RunSetup σ) (name : OperationName) (level : Level)
    (levels : List (OperationName × Level)) (body : Steps) (scope : Scope) (s : RunState σ) :
    (execute setup scope (nest ((name, level) :: levels) body)).result s =
      (forEach (fun turn => execute setup (scope.enter turn) (nest levels body))
        (level.turns s.store.registry)).result
        { s with events := s.events ++ [.entered name scope] } := by
  cases level with
  | segments =>
    rw [nest, execute, result_bind, result_record]
    dsimp only
    rw [result_bind, result_store, Level.turns, forEach_map, execute]
    exact result_bind_unit _ _
  | sequences types =>
    rw [nest, execute, result_bind, result_record]
    dsimp only
    rw [result_bind, result_store, ← map_sequencesOf, forEach_map, execute]
    exact result_bind_unit _ _

/-- A nest carries out its schedule. The induction is on the levels. -/
theorem result_nest (setup : RunSetup σ) {r : Registry} (levels : List (OperationName × Level))
    (body : Steps) (scope : Scope) {s : RunState σ} (hs : s.store.registry = r) :
    (execute setup scope (nest levels body)).result s =
      (forEach (Item.act setup body) (schedule r scope levels)).result s := by
  induction levels generalizing scope s with
  | nil => exact (result_bind_unit (execute setup scope body) s).symm
  | cons level levels ih =>
    obtain ⟨name, level⟩ := level
    -- The turns are read when the step is entered, and taking one does not change them.
    rw [result_nest_cons, hs, schedule, forEach, result_bind]
    exact result_forEach_flatMap (fun turn => execute_keeps_registry setup r _ _)
      (fun turn t ht => ih (scope.enter turn) ht) _ _ hs

/-! ### Cycles of a pipe -/

/-- Resolve stages in scopes, one after the other; a group without stages is left out. -/
def resolveTurns (setup : RunSetup σ) :
    List (List CommandTemplate × Scope) → Run σ (List (List Command))
  | [] => pure []
  | (stages, here) :: rest => do
    let group ← resolveStages setup here stages
    let more ← resolveTurns setup rest
    pure (if group.isEmpty then more else group :: more)

/-- The plan of a pipe whose groups come from resolving those stages in those scopes. -/
def planTurns (setup : RunSetup σ) (p : PipeTemplate) (scope : Scope)
    (turns : List (List CommandTemplate × Scope)) : Run σ (Option PipePlan) := do
  if ← ofExcept (guardAllows (← store) scope p.guard) then
    let tail ← resolveStages setup scope p.tail
    let groups ← resolveTurns setup turns
    pure (some ⟨p.name, groups, tail⟩)
  else pure none

theorem resolveGroups_eq (setup : RunSetup σ) (stages : List CommandTemplate)
    (scopes : List Scope) :
    resolveGroups setup stages scopes = resolveTurns setup (scopes.map fun here => (stages, here)) := by
  induction scopes with
  | nil => rfl
  | cons here rest ih => rw [resolveGroups, ih, List.map_cons, resolveTurns]

theorem resolveTurns_append (setup : RunSetup σ) (first more : List (List CommandTemplate × Scope)) :
    resolveTurns setup (first ++ more) = (do
      let groups ← resolveTurns setup first
      let others ← resolveTurns setup more
      pure (groups ++ others)) := by
  induction first with
  | nil => simp [resolveTurns]
  | cons turn rest ih =>
    obtain ⟨stages, here⟩ := turn
    simp only [List.cons_append, resolveTurns, ih, bind_assoc, pure_bind]
    congr 1
    funext group
    congr 1
    funext groups
    cases group <;> simp

theorem product_singleton (r : Registry) (level : Level) :
    product r [level] = (level.turns r).map fun turn => [turn] := by
  rw [product, List.map_eq_flatMap]
  rfl

theorem cycleScopes_eq (s : Store) (scope : Scope) (c : CycleTemplate) :
    cycleScopes s scope c = (product s.registry c.levels).map scope.along := by
  unfold cycleScopes CycleTemplate.levels
  cases c.repetition with
  | once => rfl
  | eachSegment =>
    simp only [product_singleton, Level.turns, List.map_map]
    rfl
  | eachSequence =>
    simp only [product_singleton, ← map_sequencesOf, List.map_map, Function.comp_def,
      Scope.along_cons, Scope.along_nil, Scope.enter]

/-- The groups of all cycles, as they are declared and along the turns of each. -/
theorem result_resolveCycles (setup : RunSetup σ) {r : Registry} (scope : Scope)
    (cycles : List CycleTemplate) {s : RunState σ} (hs : s.store.registry = r) :
    (resolveCycles setup scope cycles).result s =
      (resolveTurns setup (cycleTurns r scope cycles)).result s := by
  induction cycles generalizing s with
  | nil => rfl
  | cons c rest ih =>
    have hgroups : resolveGroups setup c.stages (cycleScopes s.store scope c) =
        resolveTurns setup ((product r c.levels).map fun turns => (c.stages, scope.along turns)) := by
      rw [resolveGroups_eq, cycleScopes_eq, hs, List.map_map]
      rfl
    -- The cycles that follow find the same turns: resolving may write parameters only.
    have hkeeps := resolveGroups_keeps setup (outlasts_registry r (stageWrites c.stages))
      (cycleScopes s.store scope c) s hs
    rw [resolveCycles, result_bind, result_store, cycleTurns, List.flatMap_cons, ← cycleTurns,
      resolveTurns_append, ← hgroups]
    dsimp only
    rw [result_bind, result_bind]
    rcases hr : (resolveGroups setup c.stages (cycleScopes s.store scope c)).result s with ⟨e | a, t⟩
    · rfl
    · rw [hr] at hkeeps
      dsimp only
      rw [result_bind, result_bind, ih hkeeps]

theorem result_planPipe (setup : RunSetup σ) {r : Registry} (p : PipeTemplate) (scope : Scope)
    {s : RunState σ} (hs : s.store.registry = r) :
    (planPipe setup p scope).result s =
      (planTurns setup p scope (cycleTurns r scope p.cycles)).result s := by
  unfold planPipe planTurns
  rw [result_bind, result_bind, result_store]
  dsimp only
  rw [result_bind, result_bind, result_ofExcept]
  rcases guardAllows s.store scope p.guard with e | allowed
  · rfl
  · cases allowed with
    | false => rfl
    | true =>
      have hkeeps : ((resolveStages setup scope p.tail).result s).2.store.registry = r :=
        resolveStages_keeps setup (outlasts_registry r (stageWrites p.tail)) s hs
      simp only [Except.mapError, if_true, result_bind]
      rcases hr : (resolveStages setup scope p.tail).result s with ⟨e | tail, t⟩
      · rfl
      · rw [hr] at hkeeps
        simp only [result_resolveCycles setup scope p.cycles hkeeps]

/-! ## The main result -/

/-- In a store that calls have built, a nest of steps for each segment and each sequence
carries out its schedule, as far as it gets; the schedule executes the body along the product
of the levels. The groups of a pipe are made along the turns of its cycles. The product has
every combination of turns once, in lexicographic order. Other calls lead to the same if they
register the segments in the same order, and the sequences of each type. -/
theorem iteration_order (setup : RunSetup σ) (calls others : List Store.Call)
    (hsegments : (Registry.ofCalls others).segments = (Registry.ofCalls calls).segments)
    (hsequences : ∀ t, (Registry.ofCalls others).sequences t = (Registry.ofCalls calls).sequences t)
    (levels : List (OperationName × Level)) (body : Steps) (p : PipeTemplate) (scope : Scope) :
    let r := Registry.ofCalls calls
    (∀ ls turns, turns ∈ product r ls ↔ List.Forall₂ (Level.Has r) ls turns) ∧
    (∀ ls, (product r ls).Pairwise (List.Lex (Turn.Precedes r))) ∧
    (∀ ls, (product r ls).Nodup) ∧
    (schedule r scope levels).filterMap Item.body? =
      (product r (levels.map Prod.snd)).map scope.along ∧
    ∀ s : RunState σ, s.store = Store.empty.run calls ∨ s.store = Store.empty.run others →
      (execute setup scope (nest levels body)).result s =
        ((schedule r scope levels).forM (Item.act setup body)).result s ∧
      (planPipe setup p scope).result s =
        (planTurns setup p scope (cycleTurns r scope p.cycles)).result s := by
  have hsame : Registry.ofCalls others = Registry.ofCalls calls :=
    Registry.ext hsegments (funext hsequences)
  have hdistinct := Registry.distinct_ofCalls calls
  refine ⟨fun ls turns => mem_product, pairwise_product hdistinct, nodup_product hdistinct,
    bodies_schedule _ scope levels, fun s hs => ?_⟩
  have hregistry : s.store.registry = .ofCalls calls := by
    obtain hs | hs := hs
    · rw [hs, Store.registry_run]
    · rw [hs, Store.registry_run, hsame]
  rw [← forEach_eq_forM]
  exact ⟨result_nest setup levels body scope hregistry, result_planPipe setup p scope hregistry⟩

/-- Two segments, two audio sequences and one video sequence. -/
def sampleCalls : List Store.Call :=
  [.addSegment ⟨⟨1⟩⟩, .addSequence .audio ⟨⟨4⟩⟩, .addSequence .audio ⟨⟨3⟩⟩, .addSegment ⟨⟨2⟩⟩,
    .addSequence .video ⟨⟨5⟩⟩]

/-- The same, in another order and with a repetition. -/
def otherCalls : List Store.Call :=
  [.addSequence .video ⟨⟨5⟩⟩, .addSequence .audio ⟨⟨4⟩⟩, .addSegment ⟨⟨1⟩⟩, .addSegment ⟨⟨2⟩⟩,
    .addSequence .audio ⟨⟨3⟩⟩, .addSegment ⟨⟨1⟩⟩]

/-- For each segment and each sequence that is no subtitle. -/
def sampleLevels : List (OperationName × Level) :=
  [(⟨"segments", "sample"⟩, .segments), (⟨"sequences", "sample"⟩, .sequences [.audio, .video])]

/-- The video sequence comes first, although it is registered last and listed last. -/
theorem iteration_order_sample :
    let r := Registry.ofCalls sampleCalls
    let body : Steps := .command ⟨⟨"stage", "sample"⟩, ⟨"stage", .text ['s'] .done⟩, none, none⟩ .done
    let p : PipeTemplate := ⟨⟨"mix", "sample"⟩, none, [⟨.eachSegment, [], []⟩], []⟩
    product r (sampleLevels.map Prod.snd) =
      [[.segment ⟨⟨1⟩⟩, .sequence .video ⟨⟨5⟩⟩], [.segment ⟨⟨1⟩⟩, .sequence .audio ⟨⟨4⟩⟩],
        [.segment ⟨⟨1⟩⟩, .sequence .audio ⟨⟨3⟩⟩], [.segment ⟨⟨2⟩⟩, .sequence .video ⟨⟨5⟩⟩],
        [.segment ⟨⟨2⟩⟩, .sequence .audio ⟨⟨4⟩⟩], [.segment ⟨⟨2⟩⟩, .sequence .audio ⟨⟨3⟩⟩]] ∧
    (∀ ls turns, turns ∈ product r ls ↔ List.Forall₂ (Level.Has r) ls turns) ∧
    (∀ ls, (product r ls).Pairwise (List.Lex (Turn.Precedes r))) ∧
    (∀ ls, (product r ls).Nodup) ∧
    (schedule r .global sampleLevels).filterMap Item.body? =
      (product r (sampleLevels.map Prod.snd)).map Scope.global.along ∧
    ∀ s : RunState Unit, s.store = Store.empty.run sampleCalls ∨
        s.store = Store.empty.run otherCalls →
      (execute (sampleSetup [] []) .global (nest sampleLevels body)).result s =
        ((schedule r .global sampleLevels).forM (Item.act (sampleSetup [] []) body)).result s ∧
      (planPipe (sampleSetup [] []) p .global).result s =
        (planTurns (sampleSetup [] []) p .global (cycleTurns r .global p.cycles)).result s :=
  ⟨by decide, iteration_order (sampleSetup [] []) sampleCalls otherCalls (by decide)
    (fun t => by cases t <;> decide) sampleLevels _ _ .global⟩

end Run

end MediaPipeline
