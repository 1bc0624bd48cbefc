import MediaPipeline.Proofs.LoopRanges
import MediaPipeline.Proofs.RunCourse
import MediaPipeline.Proofs.RunFrame

/-!
# The rounds of loops

What a loop does with its indices is the same in a template and in a pipeline: each index is
noted in a dynamic parameter, and then the body is carried out, until it fails
(`Rounds.run`). The main result is `loop_semantics`: from the texts of its bounds, a loop is
either refused in both places before anything is written, or it goes through the same
indices in both.
-/

namespace MediaPipeline

open Template

/-! ## Rounds -/

namespace Rounds

variable {S F O : Type}

/-- Note each index in the state and act on it, one after the other, until an action fails. -/
def run (note : Int → S → S) (act : S → Except F O × S) : List Int → S → Except F (List O) × S
  | [], s => (.ok [], s)
  | i :: is, s =>
    match act (note i s) with
    | (.error f, t) => (.error f, t)
    | (.ok o, t) => ((run note act is t).1.map (o :: ·), (run note act is t).2)

/-- The rounds that are begun, each with its index and the state in which it begins. -/
def begun (note : Int → S → S) (act : S → Except F O × S) : List Int → S → List (Int × S)
  | [], _ => []
  | i :: is, s =>
    (i, note i s) ::
      match act (note i s) with
      | (.error _, _) => []
      | (.ok _, t) => begun note act is t

variable {note : Int → S → S} {act : S → Except F O × S}

theorem begun_prefix (is : List Int) (s : S) : (begun note act is s).map (·.1) <+: is := by
  induction is generalizing s with
  | nil => exact List.prefix_rfl
  | cons i is ih =>
    rw [begun, List.map_cons]
    refine (List.prefix_cons_inj i).mpr ?_
    rcases act (note i s) with ⟨f | o, t⟩
    · exact List.nil_prefix
    · exact ih t

/-- A run that succeeds takes its first round and goes on. -/
theorem run_cons_ok {i : Int} {is : List Int} {s t : S} {os : List O}
    (h : run note act (i :: is) s = (.ok os, t)) :
    ∃ o u os', act (note i s) = (.ok o, u) ∧ run note act is u = (.ok os', t) := by
  rw [run] at h
  rcases hr : act (note i s) with ⟨f | o, u⟩ <;> rw [hr] at h
  · cases h
  · dsimp only at h
    obtain ⟨hout, hlast⟩ := Prod.mk.inj h
    cases hrest : (run note act is u).1 with
    | error f =>
      rw [hrest] at hout
      cases hout
    | ok os' => exact ⟨o, u, os', rfl, Prod.ext hrest hlast⟩

/-- A run that succeeds has begun every round. -/
theorem begun_of_ok {is : List Int} {s t : S} {os : List O}
    (h : run note act is s = (.ok os, t)) : (begun note act is s).map (·.1) = is := by
  induction is generalizing s os with
  | nil => rfl
  | cons i is ih =>
    obtain ⟨o, u, os', hround, hrest⟩ := run_cons_ok h
    rw [begun, List.map_cons, hround]
    exact congrArg (i :: ·) (ih hrest)

variable {I : S → Prop} {P : Int → S → Prop}

/-- What each note makes true is true when its round begins. -/
theorem begun_noted (hnote : ∀ i s, I s → I (note i s) ∧ P i (note i s))
    (hact : ∀ s, I s → I (act s).2) (is : List Int) {s : S} (hs : I s) :
    ∀ e ∈ begun note act is s, P e.1 e.2 := by
  induction is generalizing s with
  | nil => exact fun e he => absurd he List.not_mem_nil
  | cons i is ih =>
    obtain ⟨hnoted, hholds⟩ := hnote i s hs
    have ht := hact _ hnoted
    rw [begun]
    refine List.forall_mem_cons.mpr ⟨hholds, ?_⟩
    rcases hr : act (note i s) with ⟨f | o, t⟩ <;> rw [hr] at ht
    · exact fun e he => absurd he List.not_mem_nil
    · exact ih ht

/-- What the last note makes true is true in the end, if no action changes it. -/
theorem run_last (hnote : ∀ i s, I s → I (note i s) ∧ P i (note i s))
    (hact : ∀ s, I s → I (act s).2) (hframe : ∀ i s, I s → P i s → P i (act s).2)
    {is : List Int} {s t : S} {os : List O} {i : Int} (hs : I s)
    (h : run note act is s = (.ok os, t)) (hi : is.getLast? = some i) : P i t := by
  induction is generalizing s os with
  | nil => cases hi
  | cons j is ih =>
    obtain ⟨hnoted, hholds⟩ := hnote j s hs
    obtain ⟨o, u, os', hround, hrest⟩ := run_cons_ok h
    have hu := hact _ hnoted
    have hheld := hframe j _ hnoted hholds
    rw [hround] at hu hheld
    cases is with
    | nil =>
      cases hi
      cases hrest
      exact hheld
    | cons k is =>
      rw [List.getLast?_cons_cons] at hi
      exact ih hu hrest hi

end Rounds

/-! ## Indices in parameters -/

/-- The rounds of a loop whose indices are noted in a dynamic parameter. `silent` says that
the body does not write this parameter. -/
structure Rounds.Indexed {S F O : Type} (store : S → Store) (var : String) (silent : Prop)
    (note : Int → S → S) (act : S → Except F O × S) (is : List Int) (s : S) : Prop where
  /-- No round is left out or made in another order. -/
  inOrder : (begun note act is s).map (·.1) <+: is
  all : ∀ os t, run note act is s = (.ok os, t) → (begun note act is s).map (·.1) = is
  noted : ∀ e ∈ begun note act is s,
    (store e.2).dynamic.get? var = some (.keep (Text.showInt e.1))
  last : silent → ∀ os t i, run note act is s = (.ok os, t) → is.getLast? = some i →
    (store t).dynamic.get? var = some (.keep (Text.showInt i))
  none : is = [] → run note act is s = (.ok [], s)

theorem Rounds.indexed {S F O : Type} {store : S → Store} {var : String} {silent : Prop}
    {note : Int → S → S} {act : S → Except F O × S}
    (hnote : ∀ i s, store (note i s) = (store s).setDynamic var (Text.showInt i))
    (hact : ∀ s, (store s).Consistent → (store (act s).2).Consistent)
    (hframe : silent → ∀ s p, (store s).Consistent → (store s).dynamic.get? var = some p →
      (store (act s).2).dynamic.get? var = some p)
    (is : List Int) {s : S} (hs : (store s).Consistent) :
    Indexed store var silent note act is s := by
  have hnoted (i : Int) (s : S) (hs : (store s).Consistent) : (store (note i s)).Consistent ∧
      (store (note i s)).dynamic.get? var = some (.keep (Text.showInt i)) := by
    rw [hnote]
    exact ⟨(outlasts_consistent [var]).setDynamic List.mem_cons_self _ _ hs,
      hs.dynamic.get?_insert_self var _⟩
  exact {
    inOrder := begun_prefix is s
    all := fun os t h => begun_of_ok h
    noted := begun_noted (P := fun i s => (store s).dynamic.get? var = some (.keep (Text.showInt i)))
      hnoted hact is hs
    last := fun hsilent os t i h hi =>
      run_last (P := fun i s => (store s).dynamic.get? var = some (.keep (Text.showInt i)))
        hnoted hact (fun i s hs hp => hframe hsilent s _ hs hp) hs h hi
    none := by
      rintro rfl
      rfl }

/-- A dynamic parameter outlasts writes to others. -/
theorem outlasts_parameter {var : String} {names : List String} (hvar : var ∉ names) (p : Param) :
    Outlasts (fun s => s.Consistent ∧ s.dynamic.get? var = some p) names where
  dynamic name hname s param hs :=
    ⟨(outlasts_consistent names).dynamic name hname s param hs.1,
      (hs.1.dynamic.get?_insert_ne param fun he : var = name => hvar (he ▸ hname)).trans hs.2⟩
  tmp name s param hs := ⟨(outlasts_consistent names).tmp name s param hs.1, hs.2⟩

/-- An index is noted in the dynamic parameter of a variable. -/
def Store.noteIndex (var : String) (i : Int) (s : Store) : Store :=
  s.setDynamic var (Text.showInt i)

/-- An index is noted in the store of a run. -/
def RunState.noteIndex {σ : Type} (var : String) (i : Int) (s : RunState σ) : RunState σ :=
  { s with store := s.store.noteIndex var i }

theorem Template.result_forIndices {α : Type} (var : String) (act : StoreM (List α)) (n : Nat)
    (i : Int) (s : Store) :
    (forIndices var act n i).result s =
      let r := Rounds.run (Store.noteIndex var) act.result (IndexRange.toList ⟨i, n⟩) s
      (r.1.map List.flatten, r.2) := by
  induction n generalizing i s with
  | zero => rfl
  | succ n ih =>
    have hnote : s.noteIndex var i = s.setDynamic var (Text.showInt i) := rfl
    rw [IndexRange.toList_succ, Rounds.run, forIndices, StoreM.result_bind, StoreM.result_modify,
      hnote]
    dsimp only
    rw [StoreM.result_bind]
    rcases act.result (s.setDynamic var (Text.showInt i)) with ⟨e | here, t⟩
    · rfl
    · dsimp only
      rw [StoreM.result_map, ih]
      dsimp only
      cases (Rounds.run (Store.noteIndex var) act.result (IndexRange.toList ⟨i + 1, n⟩) t).1 <;> rfl

/-- A loop whose range is known makes its rounds, and what follows it comes after them. -/
theorem Template.result_loop {head : LoopHead} {scope : Scope} {source : String} {s : Store}
    {r : IndexRange} (hrange : head.range s scope source = .ok r) (body rest : Block) :
    ((Block.loop head body rest).eval scope source).result s =
      match Rounds.run (Store.noteIndex head.var) (body.eval scope source).result r.toList s with
      | (.ok outs, u) =>
        (do let out ← rest.eval scope source
            pure (outs.flatten ++ out) : StoreM (List Chunk)).result u
      | (.error c, u) => (.error c, u) := by
  rw [Block.eval, StoreM.result_read fun s => head.range s scope source, hrange]
  dsimp only
  rw [StoreM.result_bind, result_forIndices, show (⟨r.first, r.length⟩ : IndexRange) = r from rfl]
  rcases Rounds.run (Store.noteIndex head.var) (body.eval scope source).result r.toList s with
    ⟨c | outs, u⟩ <;> rfl

theorem Run.result_forIndices {σ : Type} (var : String) (act : Run σ Unit) (n : Nat) (i : Int)
    (s : RunState σ) :
    (forIndices var act n i).result s =
      let r := Rounds.run (RunState.noteIndex var) act.result (IndexRange.toList ⟨i, n⟩) s
      (r.1.map fun _ => (), r.2) := by
  induction n generalizing i s with
  | zero => rfl
  | succ n ih =>
    have hnote : { s with store := s.store.setDynamic var (Text.showInt i) } = s.noteIndex var i :=
      rfl
    rw [IndexRange.toList_succ, Rounds.run, forIndices, result_bind, result_modifyStore, hnote]
    dsimp only
    rw [result_bind]
    rcases act.result (s.noteIndex var i) with ⟨e | here, t⟩
    · rfl
    · dsimp only
      rw [ih]
      dsimp only
      cases (Rounds.run (RunState.noteIndex var) act.result (IndexRange.toList ⟨i + 1, n⟩) t).1 <;> rfl

/-! ## Both kinds of loop -/

namespace LoopTexts

/-- A loop is read from a directive of a template and from a declaration. -/
structure IsRead (t : LoopTexts) (var : String) : Prop where
  opened : ∀ after : List Char, after.head? ≠ some openBrace →
    tokenize ('%' :: ("for ".toList ++ t.written var ++ '%' :: after)) =
      (tokenize after).map (.openLoop var (t.head var).collected :: ·)
  closed : ∀ (body before : Block) (frames : List Frame),
    closeFrame .endFor body (.loop var (t.head var).collected before :: frames) =
      .ok (before ++ .loop (t.head var) body .done, frames)
  compiled : ∀ source position, Compile.loop source position (t.decl var) =
    .ok (t.compiled ⟨"for " ++ var, source⟩ var)

/-- A loop fails for the fault of a template, with nothing written and no round begun. -/
structure Fails (t : LoopTexts) (var : String) : Prop where
  template : ∀ (scope : Scope) (source : String) (body rest : Block) (s : Store),
    ∃ text fault, ((Block.loop (t.head var) body rest).eval scope source).result s =
      (.error (.template text fault), s)
  pipeline : ∀ {σ : Type} (setup : RunSetup σ) (name : OperationName) (scope : Scope)
    (body rest : Steps) (s : RunState σ),
    ∃ text fault, (Run.execute setup scope (.loop (t.compiled name var) body rest)).result s =
      (.error (.within name scope (.template text fault)), s.entered name scope)

/-- A loop goes through its indices, whatever its body is and whatever comes after it. -/
structure GoesThrough (t : LoopTexts) (var : String) (is : List Int) : Prop where
  template : ∀ (scope : Scope) (source : String) (body rest : Block) (s : Store), s.Consistent →
    let act := (body.eval scope source).result
    Rounds.Indexed id var (var ∉ body.loopVariables) (Store.noteIndex var) act is s ∧
    ((Block.loop (t.head var) body rest).eval scope source).result s =
      match Rounds.run (Store.noteIndex var) act is s with
      | (.ok outs, u) =>
        (do let out ← rest.eval scope source
            pure (outs.flatten ++ out) : StoreM (List Chunk)).result u
      | (.error c, u) => (.error c, u)
  pipeline : ∀ {σ : Type} (setup : RunSetup σ) (name : OperationName) (scope : Scope)
    (body rest : Steps) (s : RunState σ), s.store.Consistent →
    let act := (Run.execute setup scope body).result
    Rounds.Indexed (·.store) var (var ∉ body.writes) (RunState.noteIndex var) act is
      (s.entered name scope) ∧
    (Run.execute setup scope (.loop (t.compiled name var) body rest)).result s =
      match Rounds.run (RunState.noteIndex var) act is (s.entered name scope) with
      | (.ok _, u) => (Run.execute setup scope rest).result u
      | (.error f, u) => (.error f, u)

variable {t : LoopTexts} {var : String}

theorem isRead (ht : t.IsPlain) (hvar : isIdentifier var.toList = true) : t.IsRead var where
  opened _ hafter := tokenize_written ht hvar hafter
  closed := closeFrame_written t var
  compiled := compile_decl ht hvar

theorem fails (ht : t.IsPlain) (h : ∀ faults, ∃ fault, t.range faults = .error fault) :
    t.Fails var where
  template scope source body rest s := by
    obtain ⟨fault, hrange⟩ := h (t.directiveFaults source var)
    have hhead := range_head ht var s scope source
    rw [hrange] at hhead
    rw [Block.eval, StoreM.result_read fun s => (t.head var).range s scope source, hhead]
    exact ⟨fault.1, fault.2, rfl⟩
  pipeline setup name scope body rest s := by
    obtain ⟨fault, hrange⟩ := h (t.declaredFaults var)
    have hcompiled := loopRange_compiled ht var name scope (s.entered name scope)
    rw [hrange] at hcompiled
    rw [Run.execute, Run.result_bind, Run.result_step, Run.result_placed,
      show (t.compiled name var).name = name from rfl, hcompiled]
    exact ⟨fault.1, fault.2, rfl⟩

/-- The body of a loop in a template keeps a parameter that it does not write. -/
theorem block_keeps {body : Block} {I : Store → Prop} (h : Outlasts I body.loopVariables)
    (scope : Scope) (source : String) (s : Store) (hs : I s) :
    I ((body.eval scope source).result s).2 :=
  (Block.eval_upholds (fun s _ => Run.reading_any s scope) source
    (fun _ hname s value hs => h.setDynamic hname s value hs) s hs).1

theorem goesThrough (ht : t.IsPlain) {r : IndexRange} (h : ∀ faults, t.range faults = .ok r) :
    t.GoesThrough var r.toList where
  template scope source body rest s hs := by
    refine ⟨Rounds.indexed (fun _ _ => rfl)
      (fun s hs => block_keeps (outlasts_consistent _) scope source s hs)
      (fun hvar s p hs hp => (block_keeps (outlasts_parameter hvar p) scope source s ⟨hs, hp⟩).2)
      _ hs, ?_⟩
    have hhead := range_head ht var s scope source
    rw [h] at hhead
    exact result_loop hhead body rest
  pipeline setup name scope body rest s hs := by
    refine ⟨Rounds.indexed (fun _ _ => rfl)
      (fun s hs => Run.execute_keeps setup (outlasts_consistent _) scope s hs)
      (fun hvar s p hs hp =>
        (Run.execute_keeps setup (outlasts_parameter hvar p) scope s ⟨hs, hp⟩).2) _ hs, ?_⟩
    have hcompiled := loopRange_compiled ht var name scope (s.entered name scope)
    rw [h] at hcompiled
    rw [Run.execute, Run.result_bind, Run.result_step, Run.result_placed,
      show (t.compiled name var).name = name from rfl, hcompiled]
    simp only [Except.mapError]
    rw [Run.result_bind, Run.result_forIndices]
    rw [show (t.compiled name var).var = var from rfl,
      show (⟨r.first, r.length⟩ : IndexRange) = r from rfl]
    rcases Rounds.run (RunState.noteIndex var) (Run.execute setup scope body).result r.toList
      (s.entered name scope) with ⟨f | outs, u⟩ <;> rfl

end LoopTexts

/-- A loop is written with any variable and any texts of its bounds that have no blank, quote,
backslash or percent sign. It is read as it is written, in a template and in a pipeline. Its
bounds refuse it, and then it fails for the fault of a template with nothing written and no
round begun; or it goes through the indices that its bounds tell, the same in both places, all
of them signed 64-bit numbers. When a round begins the variable has its index; after a loop
that succeeds and does not write its variable otherwise it has the last index, and a loop
without indices changes nothing. In 64-bit arithmetic the range of a loop with a count
comes out the same, also from the smallest number on. -/
theorem loop_semantics {t : LoopTexts} (ht : t.IsPlain) {var : String}
    (hvar : isIdentifier var.toList = true) :
    t.IsRead var ∧
    ((t.Refused ∧ t.Fails var) ∨
      (¬ t.Refused ∧ ∃ is, t.Visits is ∧ (∀ i ∈ is, Text.minInt ≤ i ∧ i ≤ Text.maxInt) ∧
        t.GoesThrough var is)) ∧
    ∀ first count : Int64, 0 ≤ count → IndexRange.counted? first.toInt count.toInt =
      (IndexRange.wrapping? first count).map fun p => .inclusive p.1.toInt p.2.toInt := by
  refine ⟨LoopTexts.isRead ht hvar, ?_, IndexRange.counted?_eq_wrapping⟩
  obtain ⟨hrefused, hrange⟩ | ⟨r, hvisits, hrange⟩ := t.range_cases
  · exact .inl ⟨hrefused, LoopTexts.fails ht hrange⟩
  · exact .inr ⟨hvisits.not_refused, r.toList, hvisits, hvisits.bounds,
      LoopTexts.goesThrough ht hrange⟩

/-- The last two numbers, as they are written. -/
def lastTwo : LoopTexts := ⟨some "9223372036854775806", .count "2"⟩

theorem isPlain_lastTwo : lastTwo.IsPlain := by
  have hdigits : ∀ text ∈ lastTwo.texts, text.toList.all Char.isAlphanum = true := by decide
  exact fun text htext c hc =>
    plain_of_isAlphanum (List.all_eq_true.mp (hdigits text htext) c hc)

/-- A loop goes through the last two numbers. -/
theorem loop_semantics_lastTwo :
    lastTwo.Visits [9223372036854775806, 9223372036854775807] ∧
    lastTwo.IsRead "i" ∧
    ((lastTwo.Refused ∧ lastTwo.Fails "i") ∨
      (¬ lastTwo.Refused ∧ ∃ is, lastTwo.Visits is ∧
        (∀ i ∈ is, Text.minInt ≤ i ∧ i ≤ Text.maxInt) ∧ lastTwo.GoesThrough "i" is)) ∧
    ∀ first count : Int64, 0 ≤ count → IndexRange.counted? first.toInt count.toInt =
      (IndexRange.wrapping? first count).map fun p => .inclusive p.1.toInt p.2.toInt :=
  ⟨.count (n := 2) rfl rfl (by decide) (by decide) rfl (by decide),
    loop_semantics isPlain_lastTwo (by decide)⟩

end MediaPipeline
