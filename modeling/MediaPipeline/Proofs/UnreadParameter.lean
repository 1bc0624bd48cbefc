import MediaPipeline.Proofs.AcceptedPipelines
import MediaPipeline.Proofs.ParsedTemplate

/-!
# Parameters that are not read

A template that has no reference to a dynamic parameter, as a value or as an index, does
not notice what that parameter holds, nor whether it is set. Stores that agree but for the
parameter give the same text, the same arguments and the same error, and agree but for the
parameter afterwards, also where a loop of the template writes it. The bounds of a loop
that may not read the loop's variable are therefore the same whatever the variable holds.
The main result is `unread_ignored`.
-/

namespace MediaPipeline

/-! ## Stores that agree but for one parameter -/

/-- Two maps hold the same parameters in the same order, apart from one name. -/
structure ParamMap.AgreesBut (name : String) (m₁ m₂ : ParamMap) : Prop where
  left : m₁.Consistent
  right : m₂.Consistent
  others : OrderedMap.without name m₁.entries = OrderedMap.without name m₂.entries

/-- Two stores are the same, apart from one dynamic parameter. -/
structure Store.AgreesBut (name : String) (s₁ s₂ : Store) : Prop where
  dynamic : s₁.dynamic.AgreesBut name s₂.dynamic
  rest : s₂ = { s₁ with dynamic := s₂.dynamic }

/-- Two states of a run are the same, apart from one dynamic parameter. -/
structure RunState.AgreesBut {σ : Type} (name : String) (s₁ s₂ : RunState σ) : Prop where
  store : s₁.store.AgreesBut name s₂.store
  rest : s₂ = { s₁ with store := s₂.store }

namespace ParamMap.AgreesBut

variable {name : String} {m₁ m₂ : ParamMap}

/-- Setting the parameter to any value makes such a map. -/
theorem of_insert (h : m₁.Consistent) (p : Param) : AgreesBut name m₁ (m₁.insert name p) where
  left := h
  right := h.insert name p
  others := by rw [h.entries_insert, OrderedMap.without_put_self]

theorem insert (h : AgreesBut name m₁ m₂) (k : String) (p : Param) :
    AgreesBut name (m₁.insert k p) (m₂.insert k p) where
  left := h.left.insert k p
  right := h.right.insert k p
  others := by
    rw [h.left.entries_insert, h.right.entries_insert]
    by_cases hk : k = name
    -- The parameter itself may go to different places, but it is left out on both sides.
    · subst hk
      rw [OrderedMap.without_put_self, OrderedMap.without_put_self, h.others]
    · rw [OrderedMap.without_put_ne p _ hk, OrderedMap.without_put_ne p _ hk, h.others]

theorem value? (h : AgreesBut name m₁ m₂) {k : String} (hk : k ≠ name) :
    m₁.value? k = m₂.value? k := by
  have hfind : m₁.get? k = m₂.get? k := by
    rw [h.left.get?_eq_find, h.right.get?_eq_find, ← OrderedMap.find_without m₁.entries hk,
      ← OrderedMap.find_without m₂.entries hk, h.others]
  rw [ParamMap.value?, ParamMap.value?, hfind]

end ParamMap.AgreesBut

namespace Store.AgreesBut

variable {name : String} {s₁ s₂ : Store}

theorem setDynamic (h : s₁.AgreesBut name s₂) (k value : String) :
    (s₁.setDynamic k value).AgreesBut name (s₂.setDynamic k value) where
  dynamic := h.dynamic.insert k (.keep value)
  rest := by
    rw [h.rest]
    rfl

/-- A look-up sees the dynamic parameters only if it is for one of them. -/
theorem find (h : s₁.AgreesBut name s₂) {kind : ContextKind} {k : String}
    (hk : kind = .dynamic → k ≠ name) (scope : Scope) (selector : Selector) :
    s₁.find kind scope selector k = s₂.find kind scope selector k := by
  cases kind with
  | dynamic =>
    simp only [Store.find, stored]
    rw [h.dynamic.value? (hk rfl)]
  | tmp | segment | sequence | resource =>
    rw [h.rest]
    rfl

theorem lookup (h : s₁.AgreesBut name s₂) {kind : ContextKind} {k : String}
    (hk : kind = .dynamic → k ≠ name) (scope : Scope) (selector : Selector) :
    s₁.lookup kind scope selector k = s₂.lookup kind scope selector k := by
  rw [Store.lookup, Store.lookup, h.find hk]

end Store.AgreesBut

/-! ## Computations on related states -/

/-- Started in related states, a computation comes to the same and leaves related states. -/
def Respects {ε σ α : Type} (R : σ → σ → Prop) (act : ExceptT ε (StateM σ) α) : Prop :=
  ∀ s₁ s₂, R s₁ s₂ →
    (act.run.run s₁).1 = (act.run.run s₂).1 ∧ R (act.run.run s₁).2 (act.run.run s₂).2

theorem Respects.bind {ε σ α β : Type} {R : σ → σ → Prop} {act : ExceptT ε (StateM σ) α}
    {f : α → ExceptT ε (StateM σ) β} (hact : Respects R act) (hf : ∀ a, Respects R (f a)) :
    Respects R (act >>= f) := by
  intro s₁ s₂ h
  obtain ⟨heq, ht⟩ := hact s₁ s₂ h
  simp only [ExceptT.run_bind, StateT.run_bind]
  rcases h₁ : act.run.run s₁ with ⟨o, t₁⟩
  rcases h₂ : act.run.run s₂ with ⟨o', t₂⟩
  rw [h₁, h₂] at heq ht
  obtain rfl : o = o' := heq
  cases o with
  | error e => exact ⟨rfl, ht⟩
  | ok a => exact hf a t₁ t₂ ht

/-! ## Reading -/

namespace Template

section Reading

variable {name : String} {s₁ s₂ : Store}

theorem Reference.kind_of_not_dependsOn {r : Reference} (hr : r.dependsOn name = false) :
    r.kind = .dynamic → r.name ≠ name := by
  intro hkind hname
  simp [Reference.dependsOn, hkind, hname] at hr

theorem Reference.index_of_not_dependsOn {r : Reference} (hr : r.dependsOn name = false) :
    r.index ≠ some (.variable name) := by
  intro hindex
  simp [Reference.dependsOn, hindex] at hr

theorem siblingSelector_agrees (h : s₁.AgreesBut name s₂) {r : Reference}
    (hr : r.dependsOn name = false) (scope : Scope) :
    siblingSelector s₁ scope r = siblingSelector s₂ scope r := by
  have hindex := Reference.index_of_not_dependsOn hr
  unfold siblingSelector
  match hi : r.index with
  | none => rfl
  | some (.position i) => rfl
  | some (.variable var) =>
    have hvar : ContextKind.dynamic = .dynamic → var ≠ name := by
      rintro - rfl
      exact hindex hi
    simp only [Store.getParameter, h.lookup hvar]

theorem resolve_agrees (h : s₁.AgreesBut name s₂) {r : Reference}
    (hr : r.dependsOn name = false) (scope : Scope) :
    resolve s₁ scope r = resolve s₂ scope r := by
  simp only [resolve, siblingSelector_agrees h hr, h.lookup (Reference.kind_of_not_dependsOn hr)]

theorem Word.dependsOn_reference (r : Reference) (w : Word) :
    Word.dependsOn (.reference r :: w) name = (r.dependsOn name || w.dependsOn name) := rfl

theorem Word.eval_agrees (h : s₁.AgreesBut name s₂) {w : Word} (hw : w.dependsOn name = false)
    (scope : Scope) : w.eval s₁ scope = w.eval s₂ scope := by
  induction w with
  | nil => rfl
  | cons a w ih =>
    cases a with
    | char c => simp only [Word.eval, ih hw]
    | reference r =>
      rw [Word.dependsOn_reference, Bool.or_eq_false_iff] at hw
      simp only [Word.eval, resolve_agrees h hw.1, ih hw.2]

theorem Condition.eval_agrees (h : s₁.AgreesBut name s₂) {c : Condition}
    (hc : c.dependsOn name = false) (scope : Scope) (source : String) :
    c.eval s₁ scope source = c.eval s₂ scope source := by
  have hwords : ∀ w ∈ c.operands, w.eval s₁ scope = w.eval s₂ scope := fun w hw =>
    Word.eval_agrees h (Bool.eq_false_iff.mpr fun ht =>
      Bool.eq_false_iff.mp hc (List.any_eq_true.mpr ⟨w, hw, ht⟩)) scope
  cases c with
  | flag negated w => simp only [Condition.eval, hwords w (by simp [Condition.operands])]
  | compare left comparison right =>
    simp only [Condition.eval, hwords left (by simp [Condition.operands]),
      hwords right (by simp [Condition.operands])]

theorem LoopHead.range_agrees (h : s₁.AgreesBut name s₂) {head : LoopHead}
    (hhead : ∀ w ∈ head.words, w.dependsOn name = false) (scope : Scope) (source : String) :
    head.range s₁ scope source = head.range s₂ scope source := by
  have hvalue : ∀ argument, ∀ w ∈ head.words,
      boundValue s₁ scope source argument w = boundValue s₂ scope source argument w := by
    intro argument w hw
    simp only [boundValue, Word.eval_agrees h (hhead w hw)]
  obtain ⟨var, first, bound⟩ := head
  cases first with
  | none =>
    cases bound with
    | last w => simp only [range, hvalue "to" w (by simp [LoopHead.words, Bound.word])]
    | count w => simp only [range, hvalue "count" w (by simp [LoopHead.words, Bound.word])]
  | some f =>
    have hfirst := hvalue "from" f (by simp [LoopHead.words])
    cases bound with
    | last w => simp only [range, hfirst, hvalue "to" w (by simp [LoopHead.words, Bound.word])]
    | count w => simp only [range, hfirst, hvalue "count" w (by simp [LoopHead.words, Bound.word])]

end Reading

/-! ## Evaluating -/

/-- What comes of a computation, and what it leaves, does not turn on a parameter. -/
def StoreM.Ignores {α : Type} (name : String) (act : StoreM α) : Prop :=
  ∀ s₁ s₂ : Store, s₁.AgreesBut name s₂ →
    (act.result s₁).1 = (act.result s₂).1 ∧ (act.result s₁).2.AgreesBut name (act.result s₂).2

namespace StoreM.Ignores

variable {α β : Type} {name : String}

theorem pure (a : α) : Ignores name (pure a : StoreM α) := fun _ _ h => ⟨rfl, h⟩

theorem throw (c : Cause) : Ignores name (throw c : StoreM α) := fun _ _ h => ⟨rfl, h⟩

theorem bind {act : StoreM α} {f : α → StoreM β} (hact : act.Ignores name)
    (hf : ∀ a, (f a).Ignores name) : (act >>= f).Ignores name :=
  Respects.bind hact hf

/-- A value read from the store. -/
theorem read {read : Store → Except Cause α} {f : α → StoreM β}
    (hread : ∀ s₁ s₂ : Store, s₁.AgreesBut name s₂ → read s₁ = read s₂)
    (hf : ∀ a, (f a).Ignores name) :
    Ignores name (do let a ← read (← get); f a) := by
  intro s₁ s₂ h
  rw [result_read, result_read, ← hread s₁ s₂ h]
  cases read s₁ with
  | error e => exact ⟨rfl, h⟩
  | ok a => exact hf a s₁ s₂ h

theorem setDynamic (k value : String) :
    Ignores name (modify fun s => s.setDynamic k value : StoreM PUnit) :=
  fun _ _ h => ⟨rfl, h.setDynamic k value⟩

theorem forIndices {act : StoreM (List α)} (hact : act.Ignores name) (var : String) (n : Nat)
    (i : Int) : (Template.forIndices var act n i).Ignores name := by
  induction n generalizing i with
  | zero => exact pure []
  | succ n ih =>
    exact (setDynamic var _).bind fun _ => hact.bind fun _ => (ih (i + 1)).bind fun _ => pure _

end StoreM.Ignores

theorem LoopHead.dependsOn_words {head : LoopHead} {name : String}
    (hfirst : (head.first.map (·.dependsOn name)).getD false = false)
    (hbound : head.bound.word.dependsOn name = false) :
    ∀ w ∈ head.words, w.dependsOn name = false := by
  intro w hw
  rcases List.mem_append.mp hw with hw | hw
  · obtain hsome : head.first = some w := Option.mem_toList.mp hw
    simpa [hsome] using hfirst
  · obtain rfl := List.mem_singleton.mp hw
    exact hbound

/-- The induction is on the tree. A loop of the tree may write the parameter itself; that
is an insertion into both stores. -/
theorem Block.eval_ignores {b : Block} {name : String} (hb : b.dependsOn name = false)
    (scope : Scope) (source : String) : (b.eval scope source).Ignores name := by
  induction b with
  | done => exact .pure []
  | text cs rest ih => exact (ih hb).bind fun _ => .pure _
  | reference r rest ih =>
    obtain ⟨hr, hrest⟩ := Bool.or_eq_false_iff.mp hb
    exact .read (fun _ _ h => resolve_agrees h hr scope) fun _ => (ih hrest).bind fun _ => .pure _
  | loop head body rest ihb ihr =>
    simp only [Block.dependsOn, Bool.or_eq_false_iff] at hb
    obtain ⟨⟨⟨hfirst, hbound⟩, hbody⟩, hrest⟩ := hb
    -- `head.var` may be `name`: nothing is asked of the variable that the loop writes.
    have hhead := LoopHead.dependsOn_words hfirst hbound
    exact .read (fun _ _ h => LoopHead.range_agrees h hhead scope source) fun range =>
      ((ihb hbody).forIndices head.var _ _).bind fun _ => (ihr hrest).bind fun _ => .pure _
  | branch condition yes no rest ihy ihn ihr =>
    simp only [Block.dependsOn, Bool.or_eq_false_iff] at hb
    obtain ⟨⟨⟨hcondition, hyes⟩, hno⟩, hrest⟩ := hb
    refine .read (fun _ _ h => Condition.eval_agrees h hcondition scope source) fun taken => ?_
    cases taken with
    | true => exact (ihy hyes).bind fun _ => (ihr hrest).bind fun _ => .pure _
    | false => exact (ihn hno).bind fun _ => (ihr hrest).bind fun _ => .pure _

theorem render_ignores {t : Template} {name : String} (ht : t.referencesVar name = false)
    (scope : Scope) : (t.render scope).Ignores name :=
  (Block.eval_ignores ht scope t.source).bind fun _ => .pure _

theorem resolveArgv_ignores {t : Template} {name : String} (ht : t.referencesVar name = false)
    (scope : Scope) : (t.resolveArgv scope).Ignores name := by
  refine (Block.eval_ignores ht scope t.source).bind fun chunks => ?_
  match splitArguments chunks with
  | .error fault => exact .throw _
  | .ok [] => exact .throw _
  | .ok (a :: argv) => exact .pure _

/-! ## Loops of templates -/

/-- The heads of all loops, at any depth. -/
def Block.loops : Block → List LoopHead
  | .done => []
  | .text _ rest => rest.loops
  | .reference _ rest => rest.loops
  | .loop head body rest => head :: (body.loops ++ rest.loops)
  | .branch _ yes no rest => yes.loops ++ no.loops ++ rest.loops

theorem Block.ReadFrom.loops {source : List Char} {b : Block} (hb : b.ReadFrom source) :
    ∀ head ∈ b.loops, head.ReadFrom source := by
  induction b with
  | done => exact fun head h => absurd h List.not_mem_nil
  | text cs rest ih => exact ih hb.2.2
  | reference r rest ih => exact ih hb.2
  | loop head body rest ihb ihr =>
    obtain ⟨hhead, -, hbody, hrest⟩ := hb
    exact List.forall_mem_cons.mpr
      ⟨hhead, List.forall_mem_append.mpr ⟨ihb hbody, ihr hrest⟩⟩
  | branch condition yes no rest ihy ihn ihr =>
    obtain ⟨-, -, hyes, hno, hrest⟩ := hb
    exact List.forall_mem_append.mpr
      ⟨List.forall_mem_append.mpr ⟨ihy hyes, ihn hno⟩, ihr hrest⟩

end Template

/-! ## Loops of pipelines -/

/-- The templates of a loop's bounds. -/
def LoopTemplate.bounds (head : LoopTemplate) : List Template :=
  head.first.toList ++ [head.bound.template]

/-- The heads of all loops, at any depth. -/
def Steps.loops : Steps → List LoopTemplate
  | .done => []
  | .command _ rest => rest.loops
  | .eachSegment _ body rest => body.loops ++ rest.loops
  | .eachSequence _ _ body rest => body.loops ++ rest.loops
  | .pipe _ rest => rest.loops
  | .assign _ rest => rest.loops
  | .branch _ _ yes no rest => yes.loops ++ no.loops ++ rest.loops
  | .loop head body rest => head :: (body.loops ++ rest.loops)
  | .audioMap _ rest => rest.loops

namespace Compile

variable {source path position : String}

theorem loop_independent {d : LoopDecl} {head : LoopTemplate}
    (h : loop source position d = .ok head) :
    ∀ t ∈ head.bounds, t.referencesVar head.var = false := by
  unfold loop at h
  split at h
  · cases h
  · obtain ⟨bound, -, h⟩ := bind_eq_ok.mp h
    obtain ⟨first, -, h⟩ := bind_eq_ok.mp h
    split at h
    · cases h
    · next hreads =>
      cases h
      simpa [LoopTemplate.bounds, or_imp, forall_and] using hreads

theorem operations_independent {ops : Operations} {i : Nat} {steps : Steps}
    (h : operations source path i ops = .ok steps) :
    ∀ head ∈ steps.loops, ∀ t ∈ head.bounds, t.referencesVar head.var = false := by
  induction ops generalizing path i steps with
  | done =>
    cases h
    exact fun head hhead => absurd hhead List.not_mem_nil
  | command decl rest ih =>
    obtain ⟨_, -, h⟩ := bind_eq_ok.mp h
    obtain ⟨_, hrest, h⟩ := bind_eq_ok.mp h
    cases h
    rw [Steps.loops]
    exact ih hrest
  | eachSegment name body rest ihb ihr =>
    obtain ⟨_, hbody, h⟩ := bind_eq_ok.mp h
    obtain ⟨_, hrest, h⟩ := bind_eq_ok.mp h
    cases h
    exact List.forall_mem_append.mpr ⟨ihb hbody, ihr hrest⟩
  | eachSequence name types body rest ihb ihr =>
    obtain ⟨_, hbody, h⟩ := bind_eq_ok.mp h
    obtain ⟨_, hrest, h⟩ := bind_eq_ok.mp h
    cases h
    exact List.forall_mem_append.mpr ⟨ihb hbody, ihr hrest⟩
  | pipe decl rest ih =>
    obtain ⟨_, -, h⟩ := bind_eq_ok.mp h
    obtain ⟨_, hrest, h⟩ := bind_eq_ok.mp h
    cases h
    rw [Steps.loops]
    exact ih hrest
  | assign decl rest ih =>
    obtain ⟨_, -, h⟩ := bind_eq_ok.mp h
    obtain ⟨_, hrest, h⟩ := bind_eq_ok.mp h
    cases h
    rw [Steps.loops]
    exact ih hrest
  | branch condition yes no rest ihy ihn ihr =>
    obtain ⟨_, -, h⟩ := bind_eq_ok.mp h
    obtain ⟨_, hyes, h⟩ := bind_eq_ok.mp h
    obtain ⟨_, hno, h⟩ := bind_eq_ok.mp h
    obtain ⟨_, hrest, h⟩ := bind_eq_ok.mp h
    cases h
    exact List.forall_mem_append.mpr
      ⟨List.forall_mem_append.mpr ⟨ihy hyes, ihn hno⟩, ihr hrest⟩
  | loop decl body rest ihb ihr =>
    obtain ⟨_, hloop, h⟩ := bind_eq_ok.mp h
    obtain ⟨_, hbody, h⟩ := bind_eq_ok.mp h
    obtain ⟨_, hrest, h⟩ := bind_eq_ok.mp h
    cases h
    exact List.forall_mem_cons.mpr
      ⟨loop_independent hloop, List.forall_mem_append.mpr ⟨ihb hbody, ihr hrest⟩⟩
  | audioMap decl rest ih =>
    obtain ⟨_, -, h⟩ := bind_eq_ok.mp h
    obtain ⟨_, hrest, h⟩ := bind_eq_ok.mp h
    cases h
    rw [Steps.loops]
    exact ih hrest
  | unrecognized rest ih => cases h

end Compile

namespace Run

variable {σ α β : Type} {name : String}

/-- What comes of a part of a run, and what it leaves, does not turn on a parameter. -/
def Ignores (name : String) (act : Run σ α) : Prop :=
  ∀ s₁ s₂ : RunState σ, s₁.AgreesBut name s₂ →
    (act.result s₁).1 = (act.result s₂).1 ∧ (act.result s₁).2.AgreesBut name (act.result s₂).2

namespace Ignores

theorem pure (a : α) : Ignores name (pure a : Run σ α) := fun _ _ h => ⟨rfl, h⟩

theorem fail (c : Cause) : Ignores name (fail c : Run σ α) := fun _ _ h => ⟨rfl, h⟩

theorem bind {act : Run σ α} {f : α → Run σ β} (hact : act.Ignores name)
    (hf : ∀ a, (f a).Ignores name) : (act >>= f).Ignores name :=
  Respects.bind hact hf

theorem onStore {act : Template.StoreM α} (hact : act.Ignores name) :
    Ignores name (onStore act : Run σ α) := by
  intro s₁ s₂ h
  obtain ⟨heq, hs⟩ := hact s₁.store s₂.store h.store
  rw [result_onStore, result_onStore]
  refine ⟨congrArg (Except.mapError Failure.plain) heq, hs, ?_⟩
  rw [h.rest]

end Ignores

theorem integer_ignores {t : Template} (ht : t.referencesVar name = false) (scope : Scope) :
    (integer scope t : Run σ Int).Ignores name := by
  refine (Ignores.onStore (Template.render_ignores ht scope)).bind fun value => ?_
  cases Text.int? value.toList with
  | some n => exact .pure n
  | none => exact .fail _

theorem loopRange_ignores {head : LoopTemplate}
    (hhead : ∀ t ∈ head.bounds, t.referencesVar name = false) (scope : Scope) :
    (loopRange head scope : Run σ Template.IndexRange).Ignores name := by
  obtain ⟨operation, var, first, bound⟩ := head
  have hfirst : (loopFirst ⟨operation, var, first, bound⟩ scope : Run σ Int).Ignores name := by
    cases first with
    | none => exact .pure 0
    | some t => exact integer_ignores (hhead t (by simp [LoopTemplate.bounds])) scope
  have hbound := integer_ignores (σ := σ) (hhead bound.template (by simp [LoopTemplate.bounds])) scope
  refine hfirst.bind fun first => ?_
  cases bound with
  | last t => exact hbound.bind fun last => .pure _
  | count t =>
    refine hbound.bind fun count => ?_
    split
    · exact .fail _
    · split
      · exact .pure _
      · exact .fail _

end Run

/-! ## The result -/

/-- A template is resolved the same, and to the same stores, whatever a parameter that it
does not read holds. So the bounds of a loop that the parser or the compiler has accepted
do not turn on the loop's variable. -/
theorem unread_ignored :
    (∀ (t : Template) (name : String), t.referencesVar name = false → ∀ scope : Scope,
      (t.render scope).Ignores name ∧ (t.resolveArgv scope).Ignores name) ∧
    (∀ (source : String) (t : Template), Template.parse source = .ok t →
      ∀ head ∈ t.tree.loops, ∀ (scope : Scope) (s₁ s₂ : Store), s₁.AgreesBut head.var s₂ →
        head.range s₁ scope source = head.range s₂ scope source) ∧
    (∀ (p : Pipeline) (steps : Steps), p.compile = .ok steps →
      ∀ head ∈ steps.loops, ∀ (scope : Scope) (σ : Type),
        (Run.loopRange head scope : Run σ Template.IndexRange).Ignores head.var) := by
  refine ⟨fun t name ht scope => ?_, fun source t ht head hhead scope s₁ s₂ h => ?_,
    fun p steps hp head hhead scope σ => ?_⟩
  · exact ⟨Template.render_ignores ht scope, Template.resolveArgv_ignores ht scope⟩
  · obtain ⟨-, htree⟩ := Template.parse_readFrom ht
    exact Template.LoopHead.range_agrees h (htree.loops head hhead).independent scope source
  · exact Run.loopRange_ignores (Compile.operations_independent hp head hhead) scope

/-- A template that writes a parameter and does not read it. -/
def counting : Template where
  source := "%for n count=%\x7bdynamic.many\x7d%-v %endfor%"
  tree :=
    .loop ⟨"n", none, .count [.reference ⟨.dynamic, none, "many", "dynamic.many".toList⟩]⟩
      (.text "-v ".toList .done) .done

/-- A loop over the same parameter, with the template's text as its bound. -/
def countingPipeline : Pipeline :=
  ⟨"sample", .loop ⟨"n", none, none, some "%\x7bdynamic.many\x7d"⟩ .done .done⟩

/-- The head of that loop. -/
def countingHead : LoopTemplate where
  name := ⟨"for n", "sample"⟩
  var := "n"
  first := none
  bound := .count ⟨"%\x7bdynamic.many\x7d",
    .reference ⟨.dynamic, none, "many", "dynamic.many".toList⟩ .done⟩

/-- The parameter is unset in one store and set in the other. -/
theorem unread_ignored_counting :
    let s₁ := Store.empty.setDynamic "many" "2"
    let s₂ := s₁.setDynamic "n" "x"
    s₁.AgreesBut "n" s₂ ∧
    ((counting.resolveArgv .global).result s₁).1.toOption = some ["-v", "-v"] ∧
    ((counting.resolveArgv .global).result s₁).1 = ((counting.resolveArgv .global).result s₂).1 ∧
    (∀ head ∈ counting.tree.loops,
      head.range s₁ .global counting.source = head.range s₂ .global counting.source) ∧
    (Run.loopRange countingHead .global : Run Unit Template.IndexRange).Ignores "n" := by
  have hagree : (Store.empty.setDynamic "many" "2").AgreesBut "n"
      ((Store.empty.setDynamic "many" "2").setDynamic "n" "x") :=
    ⟨.of_insert (IndexedMap.Consistent.empty.insert "many" _) _, rfl⟩
  have hparse : Template.parse counting.source = .ok counting := by decide +kernel
  have hcompile : countingPipeline.compile = .ok (.loop countingHead .done .done) := by
    decide +kernel
  obtain ⟨htemplates, hparsed, hcompiled⟩ := unread_ignored
  have hread : counting.referencesVar "n" = false := by decide
  refine ⟨hagree, by decide +kernel, ((htemplates counting "n" hread .global).2 _ _ hagree).1,
    fun head hhead => ?_, hcompiled _ _ hcompile countingHead List.mem_cons_self .global Unit⟩
  obtain rfl := List.mem_singleton.mp hhead
  exact hparsed _ _ hparse _ List.mem_cons_self .global _ _ hagree

end MediaPipeline
