import Mathlib.Control.Monad.Basic
import MediaPipeline.Proofs.PipeLifecycle
import MediaPipeline.Run.Engine

/-!
# Accepted pipelines

A pipeline is accepted exactly if each thing that it declares, at any depth, is well
formed. `Operations.declared` lists what is declared, stages of pipes included, and
`Declared.WellFormed` says for each kind what it takes. A pipeline that is not accepted is
not run: a run of it fails as the check does and changes nothing. The main result is
`accepted_iff_wellFormed`.
-/

namespace MediaPipeline

/-! ## Checks -/

section Checks

variable {ε α β : Type} {x : Except ε α}

/-- A check that finds nothing wrong. -/
def Passes (x : Except ε α) : Prop := ∃ a, x = .ok a

theorem passes_ok (a : α) : Passes (.ok a : Except ε α) := ⟨a, rfl⟩

theorem not_passes_error (e : ε) : ¬ Passes (.error e : Except ε α) := by
  rintro ⟨a, ha⟩
  cases ha

theorem passes_map {f : α → β} : Passes (x.map f) ↔ Passes x := by
  cases x with
  | error e => exact iff_of_false (not_passes_error e) (not_passes_error e)
  | ok a => exact iff_of_true (passes_ok (f a)) (passes_ok a)

/-- One check after the other, where it does not matter for the second what comes of the
first. -/
theorem passes_bind {f : α → Except ε β} {P : Prop} (hf : ∀ a, x = .ok a → (Passes (f a) ↔ P)) :
    Passes (x >>= f) ↔ Passes x ∧ P := by
  cases x with
  | error e => exact iff_of_false (not_passes_error e) fun h => not_passes_error e h.1
  | ok a => exact (hf a rfl).trans (and_iff_right (passes_ok a)).symm

theorem passes_then {f : α → Except ε β} (hf : ∀ a, Passes (f a)) :
    Passes (x >>= f) ↔ Passes x :=
  (passes_bind fun a _ => iff_true_intro (hf a)).trans (iff_of_eq (and_true _))

theorem passes_mapM {f : α → Except ε β} {l : List α} :
    Passes (l.mapM f) ↔ ∀ a ∈ l, Passes (f a) := by
  induction l with
  | nil => exact iff_of_true (passes_ok []) fun a ha => absurd ha List.not_mem_nil
  | cons a l ih =>
    rw [List.mapM_cons, List.forall_mem_cons, ← ih]
    exact passes_bind fun b _ => passes_then fun bs => passes_ok (b :: bs)

theorem mapM_some (f : α → Except ε β) (a : α) : (some a).mapM f = (f a).map some := by
  cases h : f a <;> simp [h, Except.map, Functor.map]

theorem passes_mapM_option {f : α → Except ε β} {o : Option α} :
    Passes (o.mapM f) ↔ ∀ a ∈ o, Passes (f a) := by
  cases o with
  | none => exact iff_of_true (passes_ok none) fun a ha => absurd ha (Option.not_mem_none a)
  | some a =>
    rw [mapM_some, passes_map]
    simp

end Checks

/-! ## What a template reads -/

namespace Template

/-- The references of a loop's head. -/
def LoopHead.references (head : LoopHead) : List Reference :=
  (head.first.toList ++ [head.bound.word]).flatMap Word.references

/-- All references of a template: in text, in conditions and in the heads of loops. -/
def Block.references : Block → List Reference
  | .done => []
  | .text _ rest => rest.references
  | .reference r rest => r :: rest.references
  | .loop head body rest => head.references ++ body.references ++ rest.references
  | .branch condition yes no rest =>
    condition.operands.flatMap Word.references ++ yes.references ++ no.references ++
      rest.references

/-- A reference has a dynamic parameter as its value or as the index of a sibling. -/
def Reference.Mentions (r : Reference) (var : String) : Prop :=
  (r.kind = .dynamic ∧ r.name = var) ∨ r.index = some (.variable var)

/-- A template reads a dynamic parameter somewhere. -/
def Mentions (t : Template) (var : String) : Prop := ∃ r ∈ t.tree.references, r.Mentions var

theorem Reference.dependsOn_iff {r : Reference} {var : String} :
    r.dependsOn var = true ↔ r.Mentions var := by
  simp [Reference.dependsOn, Reference.Mentions]

theorem Word.dependsOn_iff {w : Word} {var : String} :
    w.dependsOn var = true ↔ ∃ r ∈ w.references, r.Mentions var := by
  simp only [Word.dependsOn, List.any_eq_true, Reference.dependsOn_iff]

theorem Condition.dependsOn_iff {c : Condition} {var : String} :
    c.dependsOn var = true ↔ ∃ r ∈ c.operands.flatMap Word.references, r.Mentions var := by
  simp only [Condition.dependsOn, List.any_eq_true, Word.dependsOn_iff, List.mem_flatMap]
  exact ⟨fun ⟨w, hw, r, hr, h⟩ => ⟨r, ⟨w, hw, hr⟩, h⟩, fun ⟨r, ⟨w, hw, hr⟩, h⟩ => ⟨w, hw, r, hr, h⟩⟩

theorem LoopHead.dependsOn_iff {head : LoopHead} {var : String} :
    ((head.first.map (·.dependsOn var)).getD false || head.bound.word.dependsOn var) = true ↔
      ∃ r ∈ head.references, r.Mentions var := by
  cases hfirst : head.first with
  | none => simp [LoopHead.references, hfirst, Word.dependsOn_iff]
  | some w =>
    simp [LoopHead.references, hfirst, Word.dependsOn_iff, or_and_right, exists_or]

theorem Block.dependsOn_iff {b : Block} {var : String} :
    b.dependsOn var = true ↔ ∃ r ∈ b.references, r.Mentions var := by
  induction b with
  | done => simp [Block.dependsOn, Block.references]
  | text cs rest ih => exact ih
  | reference r rest ih =>
    simp only [Block.dependsOn, Block.references, Bool.or_eq_true, ih, Reference.dependsOn_iff,
      List.mem_cons, exists_eq_or_imp]
  | loop head body rest ihb ihr =>
    rw [Block.dependsOn, Bool.or_eq_true, Bool.or_eq_true, LoopHead.dependsOn_iff, ihb, ihr]
    simp only [Block.references, List.mem_append, or_and_right, exists_or]
  | branch condition yes no rest ihy ihn ihr =>
    simp only [Block.dependsOn, Block.references, Bool.or_eq_true, Condition.dependsOn_iff, ihy,
      ihn, ihr, List.mem_append, or_and_right, exists_or]

theorem referencesVar_iff {t : Template} {var : String} :
    t.referencesVar var = true ↔ t.Mentions var :=
  Block.dependsOn_iff

end Template

/-! ## What a pipeline declares -/

/-- The text of a template. -/
def IsTemplate (source : String) : Prop := Passes (Template.parse source)

/-- The text of a guard. -/
def IsGuard (source : String) : Prop := Passes (Guard.parse source)

/-- The templates of a command, and its guard, can be parsed. -/
structure CommandDecl.WellFormed (d : CommandDecl) : Prop where
  template : IsTemplate d.template
  output : ∀ source ∈ d.output, IsTemplate source
  guard : ∀ source ∈ d.guard, IsGuard source

/-- A pipe has a tail, and its guard can be parsed. Its stages are declared on their own. -/
structure PipeDecl.WellFormed (d : PipeDecl) : Prop where
  tail : d.tail ≠ []
  guard : ∀ source ∈ d.guard, IsGuard source

/-- The value of an assignment, and its guard, can be parsed. -/
structure AssignDecl.WellFormed (d : AssignDecl) : Prop where
  value : IsTemplate d.value
  guard : ∀ source ∈ d.guard, IsGuard source

/-- The bounds of a loop as they are declared. -/
def LoopDecl.bounds (d : LoopDecl) : List String :=
  d.first.toList ++ d.last.toList ++ d.count.toList

/-- A loop has an identifier for a variable, just one of its two upper bounds, and bounds
that can be parsed and do not read the variable. -/
structure LoopDecl.WellFormed (d : LoopDecl) : Prop where
  var : Template.isIdentifier d.var.toList = true
  oneBound : d.last.isSome ≠ d.count.isSome
  parsed : ∀ source ∈ d.bounds, IsTemplate source
  independent : ∀ source ∈ d.bounds, ∀ t, Template.parse source = .ok t → ¬ t.Mentions d.var

/-- A text that can be a bound of a loop over a variable. -/
def IsBound (var source : String) : Prop :=
  IsTemplate source ∧ ∀ t, Template.parse source = .ok t → ¬ t.Mentions var

theorem isBound_iff {var source : String} :
    IsBound var source ↔ ∃ t, Template.parse source = .ok t ∧ t.referencesVar var = false := by
  simp only [← Bool.not_eq_true, Template.referencesVar_iff]
  constructor
  · rintro ⟨⟨t, ht⟩, hreads⟩
    exact ⟨t, ht, hreads t ht⟩
  · rintro ⟨t, ht, hreads⟩
    refine ⟨⟨t, ht⟩, fun t' ht' => ?_⟩
    obtain rfl : t = t' := Except.ok.inj (ht.symm.trans ht')
    exact hreads

theorem LoopDecl.wellFormed_iff {d : LoopDecl} :
    d.WellFormed ↔ Template.isIdentifier d.var.toList = true ∧ d.last.isSome ≠ d.count.isSome ∧
      ∀ source ∈ d.bounds, IsBound d.var source :=
  ⟨fun h => ⟨h.var, h.oneBound, fun source hs => ⟨h.parsed source hs, h.independent source hs⟩⟩,
    fun ⟨hvar, hone, hbounds⟩ =>
      ⟨hvar, hone, fun source hs => (hbounds source hs).1, fun source hs => (hbounds source hs).2⟩⟩

/-- The layout of a channel mapping, and each entry of it, can be parsed. -/
structure AudioMapDecl.WellFormed (d : AudioMapDecl) : Prop where
  layout : IsTemplate d.layout
  mapping : ∀ entry ∈ d.mapping, Passes (OutputChannel.parse entry)

/-- What stands at a position of a pipeline. -/
inductive Declared where
  /-- A command, on its own or as a stage of a pipe. -/
  | command (decl : CommandDecl)
  | eachSegment
  | eachSequence
  | pipe (decl : PipeDecl)
  | assign (decl : AssignDecl)
  | branch (condition : String)
  | loop (decl : LoopDecl)
  | audioMap (decl : AudioMapDecl)
  | unrecognized

/-- What each kind takes to be accepted. -/
def Declared.WellFormed : Declared → Prop
  | .command decl => decl.WellFormed
  | .eachSegment => True
  | .eachSequence => True
  | .pipe decl => decl.WellFormed
  | .assign decl => decl.WellFormed
  | .branch condition => IsGuard condition
  | .loop decl => decl.WellFormed
  | .audioMap decl => decl.WellFormed
  | .unrecognized => False

/-- The stages of a pipe: those of its cycles and those of its tail. -/
def PipeDecl.stages (d : PipeDecl) : List CommandDecl := d.cycles.flatMap (·.stages) ++ d.tail

/-- All that a list of operations declares, at any depth. -/
def Operations.declared : Operations → List Declared
  | .done => []
  | .command decl rest => .command decl :: rest.declared
  | .eachSegment _ body rest => .eachSegment :: (body.declared ++ rest.declared)
  | .eachSequence _ _ body rest => .eachSequence :: (body.declared ++ rest.declared)
  | .pipe decl rest => .pipe decl :: (decl.stages.map .command ++ rest.declared)
  | .assign decl rest => .assign decl :: rest.declared
  | .branch condition yes no rest =>
    .branch condition :: (yes.declared ++ no.declared ++ rest.declared)
  | .loop decl body rest => .loop decl :: (body.declared ++ rest.declared)
  | .audioMap decl rest => .audioMap decl :: rest.declared
  | .unrecognized rest => .unrecognized :: rest.declared

/-! ## What compiling accepts -/

namespace Compile

variable {source path position : String}

theorem passes_placed {α : Type} {name : OperationName} {x : Except Cause α} :
    Passes (placed name x) ↔ Passes x := by
  cases x with
  | error c => exact iff_of_false (not_passes_error _) (not_passes_error c)
  | ok a => exact iff_of_true (passes_ok a) (passes_ok a)

theorem not_passes_refuse {α : Type} (fault : ConfigFault) :
    ¬ Passes (refuse fault : Except Failure α) :=
  not_passes_error _

theorem passes_command {d : CommandDecl} : Passes (command source d) ↔ d.WellFormed := by
  have hparse : Passes (command source d) ↔
      IsTemplate d.template ∧ Passes (d.output.mapM Template.parse) ∧
        Passes (d.guard.mapM Guard.parse) :=
    passes_placed.trans <| passes_bind fun _ _ => passes_bind fun _ _ =>
      passes_then fun _ => passes_ok _
  rw [hparse, passes_mapM_option, passes_mapM_option]
  exact ⟨fun ⟨ht, ho, hg⟩ => ⟨ht, ho, hg⟩, fun h => ⟨h.template, h.output, h.guard⟩⟩

theorem passes_cycle {d : CycleDecl} :
    Passes (cycle source d) ↔ ∀ stage ∈ d.stages, stage.WellFormed := by
  have hstages : Passes (cycle source d) ↔ Passes (d.stages.mapM (command source)) :=
    passes_then fun _ => passes_ok _
  simp only [hstages, passes_mapM, passes_command]

theorem passes_pipe {d : PipeDecl} :
    Passes (pipe source position d) ↔ d.WellFormed ∧ ∀ stage ∈ d.stages, stage.WellFormed := by
  unfold pipe
  by_cases htail : d.tail = []
  · rw [if_pos (by simp [htail])]
    exact iff_of_false (not_passes_refuse _) fun h => h.1.tail htail
  · rw [if_neg (by simpa using htail)]
    have hparts : Passes (do
          let cycles ← d.cycles.mapM (cycle source)
          let guard ← placed ⟨d.name, source⟩ (d.guard.mapM Guard.parse)
          let tail ← d.tail.mapM (command source)
          pure ⟨⟨d.name, source⟩, guard, cycles, tail⟩ : Except Failure PipeTemplate) ↔
        Passes (d.cycles.mapM (cycle source)) ∧
          Passes (placed ⟨d.name, source⟩ (d.guard.mapM Guard.parse)) ∧
            Passes (d.tail.mapM (command source)) :=
      passes_bind fun _ _ => passes_bind fun _ _ => passes_then fun _ => passes_ok _
    rw [hparts, passes_placed, passes_mapM, passes_mapM_option, passes_mapM]
    simp only [passes_cycle, passes_command, PipeDecl.stages, List.mem_append, List.mem_flatMap]
    constructor
    · rintro ⟨hcycles, hguard, hstages⟩
      refine ⟨⟨htail, hguard⟩, ?_⟩
      rintro stage (⟨c, hc, hstage⟩ | hstage)
      · exact hcycles c hc stage hstage
      · exact hstages stage hstage
    · rintro ⟨hpipe, hstages⟩
      exact ⟨fun c hc stage hstage => hstages stage (.inl ⟨c, hc, hstage⟩), hpipe.guard,
        fun stage hstage => hstages stage (.inr hstage)⟩

theorem passes_assign {d : AssignDecl} : Passes (assign source d) ↔ d.WellFormed := by
  have hparts : Passes (assign source d) ↔
      Passes (placed ⟨d.name, source⟩ (Template.parse d.value)) ∧
        Passes (placed ⟨d.name, source⟩ (d.guard.mapM Guard.parse)) :=
    passes_bind fun _ _ => passes_then fun _ => passes_ok _
  rw [hparts, passes_placed, passes_placed, passes_mapM_option]
  exact ⟨fun ⟨hv, hg⟩ => ⟨hv, hg⟩, fun h => ⟨h.value, h.guard⟩⟩

theorem passes_audioMap {d : AudioMapDecl} : Passes (audioMap source d) ↔ d.WellFormed := by
  have hparts : Passes (audioMap source d) ↔
      Passes (placed ⟨d.name, source⟩ (d.mapping.mapM OutputChannel.parse)) ∧
        Passes (placed ⟨d.name, source⟩ (Template.parse d.layout)) :=
    passes_bind fun _ _ => passes_then fun _ => passes_ok _
  rw [hparts, passes_placed, passes_placed, passes_mapM]
  exact ⟨fun ⟨hm, hl⟩ => ⟨hl, hm⟩, fun h => ⟨h.mapping, h.layout⟩⟩

theorem passes_refuse_if {α : Type} {c : Bool} {fault : ConfigFault} {a : α} :
    Passes (if c then refuse fault else pure a : Except Failure α) ↔ c = false := by
  cases c with
  | true => exact iff_of_false (not_passes_refuse fault) Bool.noConfusion
  | false => exact iff_of_true (passes_ok a) rfl

/-- What is left to check of a loop once it is clear which upper bound it has. -/
theorem passes_loopBounds {name : OperationName} {form : Template → LoopBound}
    (hform : ∀ t, (form t).template = t) {first : Option String} {bound var : String} :
    Passes (do
        let bound ← placed name ((Template.parse bound).map form)
        let first ← placed name (first.mapM Template.parse)
        if (first.toList ++ [bound.template]).any (·.referencesVar var) then
          refuse (.loopReadsVariable var position)
        else pure ⟨name, var, first, bound⟩ : Except Failure LoopTemplate) ↔
      ∀ source ∈ first.toList ++ [bound], IsBound var source := by
  simp only [isBound_iff]
  cases hb : Template.parse bound with
  | error e =>
    refine iff_of_false (not_passes_error _) fun h => ?_
    obtain ⟨t, ht, -⟩ := h bound (by simp)
    cases hb.symm.trans ht
  | ok b =>
    cases first with
    | none => exact passes_refuse_if.trans (by simp [hb, hform])
    | some f =>
      rw [mapM_some]
      cases hf : Template.parse f with
      | error e =>
        refine iff_of_false (not_passes_error _) fun h => ?_
        obtain ⟨t, ht, -⟩ := h f (by simp)
        cases hf.symm.trans ht
      | ok a => exact passes_refuse_if.trans (by simp [hb, hf, hform])

theorem passes_loop {d : LoopDecl} : Passes (loop source position d) ↔ d.WellFormed := by
  rw [LoopDecl.wellFormed_iff]
  unfold loop
  by_cases hvar : Template.isIdentifier d.var.toList = true
  · rw [if_neg (by simp [hvar])]
    obtain ⟨var, first, last, count⟩ := d
    -- Two bounds are refused as none are; with one of them the same checks follow.
    cases last with
    | none =>
      cases count with
      | none => exact iff_of_false (not_passes_error _) fun h => h.2.1 rfl
      | some bound =>
        refine (passes_loopBounds fun _ => rfl).trans ?_
        simp [LoopDecl.bounds, hvar]
    | some bound =>
      cases count with
      | none =>
        refine (passes_loopBounds fun _ => rfl).trans ?_
        simp [LoopDecl.bounds, hvar]
      | some _ => exact iff_of_false (not_passes_error _) fun h => h.2.1 rfl
  · rw [if_pos (by simp [hvar])]
    exact iff_of_false (not_passes_refuse _) fun h => hvar h.1

/-- The induction is on the declaration; where in the pipeline a list stands matters for
messages only. -/
theorem passes_operations {ops : Operations} {i : Nat} :
    Passes (operations source path i ops) ↔ ∀ d ∈ ops.declared, d.WellFormed := by
  induction ops generalizing path i with
  | done => exact iff_of_true (passes_ok _) fun d hd => absurd hd List.not_mem_nil
  | command decl rest ih =>
    rw [Operations.declared, List.forall_mem_cons]
    exact (passes_bind fun _ _ => passes_then fun _ => passes_ok _).trans
      (and_congr passes_command ih)
  | eachSegment name body rest ihb ihr =>
    rw [Operations.declared, List.forall_mem_cons, List.forall_mem_append]
    refine Iff.trans ?_ (and_iff_right trivial).symm
    exact (passes_bind fun _ _ => passes_then fun _ => passes_ok _).trans (and_congr ihb ihr)
  | eachSequence name types body rest ihb ihr =>
    rw [Operations.declared, List.forall_mem_cons, List.forall_mem_append]
    refine Iff.trans ?_ (and_iff_right trivial).symm
    exact (passes_bind fun _ _ => passes_then fun _ => passes_ok _).trans (and_congr ihb ihr)
  | pipe decl rest ih =>
    rw [Operations.declared, List.forall_mem_cons, List.forall_mem_append, List.forall_mem_map,
      ← and_assoc]
    exact (passes_bind fun _ _ => passes_then fun _ => passes_ok _).trans
      (and_congr passes_pipe ih)
  | assign decl rest ih =>
    rw [Operations.declared, List.forall_mem_cons]
    exact (passes_bind fun _ _ => passes_then fun _ => passes_ok _).trans
      (and_congr passes_assign ih)
  | branch condition yes no rest ihy ihn ihr =>
    rw [Operations.declared, List.forall_mem_cons, List.forall_mem_append,
      List.forall_mem_append, and_assoc]
    exact (passes_bind fun _ _ => passes_bind fun _ _ => passes_bind fun _ _ =>
      passes_then fun _ => passes_ok _).trans
        (and_congr passes_placed (and_congr ihy (and_congr ihn ihr)))
  | loop decl body rest ihb ihr =>
    rw [Operations.declared, List.forall_mem_cons, List.forall_mem_append]
    exact (passes_bind fun _ _ => passes_bind fun _ _ => passes_then fun _ => passes_ok _).trans
      (and_congr passes_loop (and_congr ihb ihr))
  | audioMap decl rest ih =>
    rw [Operations.declared, List.forall_mem_cons]
    exact (passes_bind fun _ _ => passes_then fun _ => passes_ok _).trans
      (and_congr passes_audioMap ih)
  | unrecognized rest ih =>
    exact iff_of_false (not_passes_refuse _) fun h => h .unrecognized List.mem_cons_self

end Compile

/-! ## Pipelines -/

/-- A pipeline is accepted if all that it declares is well formed, and only then. A run of
one that is not accepted fails as the check does; store, numbers, record and machine stay
as they are, and nothing is cleaned up. -/
theorem Pipeline.accepted_iff_wellFormed (p : Pipeline) :
    (p.validate = .ok () ↔ ∀ d ∈ p.operations.declared, d.WellFormed) ∧
      ∀ f, p.validate = .error f →
        ∀ {σ : Type} (setup : RunSetup σ) (cleanup : Bool) (s : RunState σ),
          (Run.pipeline setup cleanup p).result s = (.error f, s) := by
  constructor
  · rw [← Compile.passes_operations, Pipeline.validate, map_eq_ok]
    exact ⟨fun ⟨steps, h, _⟩ => ⟨steps, h⟩, fun ⟨steps, h⟩ => ⟨steps, h, rfl⟩⟩
  · intro f hf σ setup cleanup s
    rw [Run.result_pipeline]
    cases hc : p.compile with
    | error g =>
      rw [Pipeline.validate, hc] at hf
      obtain rfl : g = f := Except.error.inj hf
      rfl
    | ok steps =>
      rw [Pipeline.validate, hc] at hf
      cases hf

/-- A loop inside another operation whose bound reads its own variable. -/
def selfReading : Pipeline where
  name := "sample"
  operations :=
    .command ⟨"probe", "probe input", none, none⟩ <|
      .eachSegment none (.loop ⟨"n", none, some "%\x7bdynamic.n\x7d", none⟩ .done .done) .done

/-- The command before the loop is not run. -/
theorem Pipeline.accepted_iff_wellFormed_selfReading :
    let fault : Failure :=
      .plain (.config (.loopReadsVariable "n" "operations[1].operations[0]"))
    let s : RunState Unit := ⟨.empty, 7, (), []⟩
    selfReading.validate = .error fault ∧
      ¬ (∀ d ∈ selfReading.operations.declared, d.WellFormed) ∧
      (Run.pipeline (sampleSetup [] []) true selfReading).result s = (.error fault, s) := by
  have hrejected : selfReading.validate =
      .error (.plain (.config (.loopReadsVariable "n" "operations[1].operations[0]"))) := by
    decide +kernel
  have h := accepted_iff_wellFormed selfReading
  refine ⟨hrejected, fun hall => ?_, h.2 _ hrejected (sampleSetup [] []) true _⟩
  cases (h.1.mpr hall).symm.trans hrejected

end MediaPipeline
