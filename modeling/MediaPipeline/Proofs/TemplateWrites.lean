import MediaPipeline.Proofs.LoopRounds

/-!
# What the evaluation of a template writes

All that an evaluation does to the store is to note the indices of its loops. `Block.passes`
lists the passes through loop bodies that are begun, also before a failure, and
`result_eval` says that the store afterwards is the one before with just these indices noted
in their order. So it differs from the one before only in the variables of loops
(`evaluation_writes`).
-/

namespace MediaPipeline

/-! ## Passes -/

/-- A pass through the body of a loop. -/
structure Pass where
  var : String
  index : Int
deriving DecidableEq

/-- The store in which the index of each pass has been noted, one after the other. -/
def Store.notePasses (s : Store) (passes : List Pass) : Store :=
  passes.foldl (fun s p => s.noteIndex p.var p.index) s

theorem Store.notePasses_append (s : Store) (ps qs : List Pass) :
    s.notePasses (ps ++ qs) = (s.notePasses ps).notePasses qs :=
  List.foldl_append

namespace Template

/-- What follows a part of an evaluation, which is nothing if that part fails. -/
def followed {α : Type} (result : Except Cause α × Store) (next : α → Store → List Pass) :
    List Pass :=
  match result with
  | (.ok a, s) => next a s
  | (.error _, _) => []

/-- The passes of a loop that are begun, each with the passes of its body. -/
def roundPasses (var : String) (act : StoreM (List Chunk)) (body : Store → List Pass)
    (range : IndexRange) (s : Store) : List Pass :=
  (Rounds.begun (Store.noteIndex var) act.result range.toList s).flatMap fun e =>
    ⟨var, e.1⟩ :: body e.2

/-- The passes that an evaluation begins, in order. -/
def Block.passes (scope : Scope) (source : String) : Block → Store → List Pass
  | .done, _ => []
  | .text _ rest, s => rest.passes scope source s
  | .reference r rest, s =>
    match resolve s scope r with
    | .ok _ => rest.passes scope source s
    | .error _ => []
  | .loop head body rest, s =>
    match head.range s scope source with
    | .ok range =>
      roundPasses head.var (body.eval scope source) (body.passes scope source) range s ++
        followed ((forIndices head.var (body.eval scope source) range.length range.first).result s)
          fun _ => rest.passes scope source
    | .error _ => []
  | .branch condition yes no rest, s =>
    match condition.eval s scope source with
    | .ok true =>
      yes.passes scope source s ++
        followed ((yes.eval scope source).result s) fun _ => rest.passes scope source
    | .ok false =>
      no.passes scope source s ++
        followed ((no.eval scope source).result s) fun _ => rest.passes scope source
    | .error _ => []

/-- The passes that the evaluation of a template begins. -/
def passes (t : Template) (scope : Scope) (s : Store) : List Pass := t.tree.passes scope t.source s

/-- A pass goes through a loop of the template, at whatever depth. -/
theorem var_mem_of_mem_passes {b : Block} {scope : Scope} {source : String} {s : Store} {p : Pass}
    (hp : p ∈ b.passes scope source s) : p.var ∈ b.loopVariables := by
  have hfollowed {α : Type} {result : Except Cause α × Store} {rest : Block}
      (hrest : ∀ t, p ∈ rest.passes scope source t → p.var ∈ rest.loopVariables)
      (hp : p ∈ followed result fun _ => rest.passes scope source) :
      p.var ∈ rest.loopVariables := by
    rcases result with ⟨_ | _, t⟩
    · cases hp
    · exact hrest t hp
  induction b generalizing s with
  | done => cases hp
  | text cs rest ih => exact ih hp
  | reference r rest ih =>
    rw [Block.passes] at hp
    split at hp
    · exact ih hp
    · cases hp
  | loop head body rest ihbody ihrest =>
    rw [Block.passes] at hp
    split at hp
    · rcases List.mem_append.mp hp with hp | hp
      · obtain ⟨e, -, hp⟩ := List.mem_flatMap.mp hp
        rcases List.mem_cons.mp hp with rfl | hp
        · exact List.mem_cons_self
        · exact List.mem_cons_of_mem _ (List.mem_append_left _ (ihbody hp))
      · exact List.mem_cons_of_mem _ (List.mem_append_right _ (hfollowed (fun _ => ihrest) hp))
    · cases hp
  | branch condition yes no rest ihyes ihno ihrest =>
    rw [Block.loopVariables, List.mem_append, List.mem_append]
    rw [Block.passes] at hp
    split at hp
    · rcases List.mem_append.mp hp with hp | hp
      · exact .inl (.inl (ihyes hp))
      · exact .inr (hfollowed (fun _ => ihrest) hp)
    · rcases List.mem_append.mp hp with hp | hp
      · exact .inl (.inr (ihno hp))
      · exact .inr (hfollowed (fun _ => ihrest) hp)
    · cases hp

/-! ## All that is written -/

/-- What a computation does to the store is to note the indices of some passes. -/
def StoreM.Notes {α : Type} (act : StoreM α) (passes : Store → List Pass) : Prop :=
  ∀ s, (act.result s).2 = s.notePasses (passes s)

namespace StoreM.Notes

variable {α β : Type} {act : StoreM α} {p : Store → List Pass}

theorem pure (a : α) : (pure a : StoreM α).Notes fun _ => [] := fun _ => rfl

theorem throw (c : Cause) : (throw c : StoreM α).Notes fun _ => [] := fun _ => rfl

theorem bind {f : α → StoreM β} {q : α → Store → List Pass} (hact : act.Notes p)
    (hf : ∀ a, (f a).Notes (q a)) :
    (act >>= f).Notes fun s => p s ++ followed (act.result s) q := by
  intro s
  have hs := hact s
  rw [result_bind, Store.notePasses_append, ← hs]
  rcases act.result s with ⟨c | a, t⟩
  · rfl
  · exact hf a t

/-- What follows may note nothing. -/
theorem silent {f : α → StoreM β} (hact : act.Notes p) (hf : ∀ a, (f a).Notes fun _ => []) :
    (act >>= f).Notes p := by
  intro s
  have hs := hact s
  rw [result_bind, ← hs]
  rcases act.result s with ⟨c | a, t⟩
  · rfl
  · exact hf a t

/-- A loop notes an index in front of each pass through its body. The induction is on the
number of passes that are left. -/
theorem forIndices {act : StoreM (List Chunk)} (hact : act.Notes p) (var : String) (n : Nat)
    (i : Int) : (forIndices var act n i).Notes (roundPasses var act p ⟨i, n⟩) := by
  intro s
  rw [result_forIndices]
  show (Rounds.run (Store.noteIndex var) act.result (IndexRange.toList ⟨i, n⟩) s).2 = _
  unfold roundPasses
  generalize IndexRange.toList ⟨i, n⟩ = is
  induction is generalizing s with
  | nil => rfl
  | cons i is ih =>
    have hs := hact (s.noteIndex var i)
    rw [Rounds.run, Rounds.begun, List.flatMap_cons, Store.notePasses_append]
    show _ = (Store.notePasses (s.noteIndex var i) (p (s.noteIndex var i))).notePasses _
    rw [← hs]
    rcases act.result (s.noteIndex var i) with ⟨c | o, t⟩
    · rfl
    · exact ih t

end StoreM.Notes

/-- An evaluation notes the indices of its passes and does nothing else to the store. The
induction is on the tree. -/
theorem result_eval (scope : Scope) (source : String) (b : Block) :
    (b.eval scope source).Notes (b.passes scope source) := by
  induction b with
  | done => exact .pure []
  | text cs rest ih => exact ih.silent fun _ => .pure _
  | reference r rest ih =>
    intro s
    rw [Block.eval, StoreM.result_read fun s => resolve s scope r, Block.passes]
    cases resolve s scope r with
    | error c => rfl
    | ok value => exact ih.silent (fun _ => .pure _) s
  | loop head body rest ihbody ihrest =>
    have hrest (here : List Chunk) := ihrest.silent fun out => .pure (here ++ out)
    intro s
    rw [Block.eval, StoreM.result_read fun s => head.range s scope source, Block.passes]
    cases head.range s scope source with
    | error c => rfl
    | ok range =>
      exact (ihbody.forIndices head.var range.length range.first).bind hrest s
  | branch condition yes no rest ihyes ihno ihrest =>
    have hrest (here : List Chunk) := ihrest.silent fun out => .pure (here ++ out)
    intro s
    rw [Block.eval, StoreM.result_read fun s => condition.eval s scope source, Block.passes]
    rcases condition.eval s scope source with c | _ | _
    · rfl
    · exact ihno.bind hrest s
    · exact ihyes.bind hrest s

theorem render_notes (t : Template) (scope : Scope) : (t.render scope).Notes (t.passes scope) :=
  (result_eval scope t.source t.tree).silent fun _ => .pure _

theorem resolveArgv_notes (t : Template) (scope : Scope) :
    (t.resolveArgv scope).Notes (t.passes scope) := by
  refine (result_eval scope t.source t.tree).silent fun chunks => ?_
  split
  · exact .throw _
  · exact .throw _
  · exact .pure _

end Template

/-! ## What is left alone -/

namespace Store

/-- Two stores differ in nothing but dynamic parameters with certain names: what stood in the
first one stands in the second, and new parameters come after it. -/
structure DiffersIn (names : List String) (s t : Store) : Prop where
  elsewhere : t = { s with dynamic := t.dynamic }
  order : s.dynamic.keys <+: t.dynamic.keys
  /-- The other parameters are the same, in the same order. -/
  listed : t.dynamic.entries.filter (·.1 ∉ names) = s.dynamic.entries.filter (·.1 ∉ names)
  found : ∀ name ∉ names, t.dynamic.get? name = s.dynamic.get? name

variable {names : List String} {s t : Store}

theorem DiffersIn.refl (names : List String) (s : Store) : s.DiffersIn names s :=
  ⟨rfl, List.prefix_rfl, rfl, fun _ _ => rfl⟩

/-- One more write to one of the parameters. -/
theorem DiffersIn.noteIndex (h : s.DiffersIn names t) (ht : t.dynamic.Consistent) {var : String}
    (hvar : var ∈ names) (i : Int) : s.DiffersIn names (t.noteIndex var i) where
  elsewhere := by
    rw [h.elsewhere]
    rfl
  order := by
    refine h.order.trans ?_
    show t.dynamic.keys <+: (t.dynamic.insert var _).keys
    rw [ht.keys_insert]
    split
    · exact List.prefix_rfl
    · exact List.prefix_append _ _
  listed := by
    rw [← h.listed]
    show (t.dynamic.insert var _).entries.filter _ = _
    rw [ht.entries_insert]
    exact OrderedMap.filter_put (p := fun name => name ∉ names) (by simpa using hvar) _ _
  found := by
    intro name hname
    rw [← h.found name hname]
    exact ht.get?_insert_ne _ fun he => hname (he ▸ hvar)

theorem differsIn_notePasses (hs : s.dynamic.Consistent) {passes : List Pass}
    (hvar : ∀ p ∈ passes, p.var ∈ names) : s.DiffersIn names (s.notePasses passes) := by
  suffices h : ∀ t, t.dynamic.Consistent → s.DiffersIn names t →
      s.DiffersIn names (t.notePasses passes) from h s hs (.refl names s)
  induction passes with
  | nil => exact fun t _ h => h
  | cons p ps ih =>
    intro t ht h
    obtain ⟨hp, hps⟩ := List.forall_mem_cons.mp hvar
    exact ih hps _ (ht.insert p.var _) (h.noteIndex ht hp p.index)

end Store

/-- The store after an evaluation of a template: the indices of the passes that were begun have
been noted, and their variables are those of the loops of the template. -/
structure Template.Writes (t : Template) (scope : Scope) (s s' : Store) : Prop where
  noted : s' = s.notePasses (t.passes scope s)
  ofLoops : ∀ p ∈ t.passes scope s, p.var ∈ t.tree.loopVariables
  frame : s.DiffersIn t.tree.loopVariables s'
  /-- With no pass through any loop, nothing is written. -/
  idle : t.passes scope s = [] → s' = s

/-- Whatever the template, the scope and the store, and whether the evaluation succeeds or
fails on the way, it writes the variables of loops only, for the passes that it begins. -/
theorem Template.evaluation_writes (calls : List Store.Call) (t : Template) (scope : Scope) :
    t.Writes scope (Store.empty.run calls) ((t.resolveArgv scope).result (Store.empty.run calls)).2 ∧
    t.Writes scope (Store.empty.run calls) ((t.render scope).result (Store.empty.run calls)).2 := by
  have hconsistent := (Store.consistent_run calls).dynamic
  generalize Store.empty.run calls = s at hconsistent ⊢
  have hvariables : ∀ p ∈ t.passes scope s, p.var ∈ t.tree.loopVariables :=
    fun p hp => var_mem_of_mem_passes hp
  have hwrites : t.Writes scope s (s.notePasses (t.passes scope s)) := {
    noted := rfl
    ofLoops := hvariables
    frame := Store.differsIn_notePasses hconsistent hvariables
    idle := fun h => by rw [h]; rfl }
  rw [resolveArgv_notes, render_notes]
  exact ⟨hwrites, hwrites⟩

end MediaPipeline
