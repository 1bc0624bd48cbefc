import Mathlib.Control.Monad.Basic
import MediaPipeline.Proofs.ArgumentLayout
import MediaPipeline.Proofs.ParsedTemplate
import MediaPipeline.Proofs.TemplateWalk

/-!
# Template resolution

What evaluation yields, said by walks. An evaluation ends in the store in which the walk
ends, and puts out what was met on it (`Walk.agrees`); up to a stop everything that was
met is bound (`Walk.sound`), and all of it stands in the text of the template
(`Walk.readFrom`). `resolves_along_walk` puts this together for both ways to resolve a template:
a reference without a binding is reported as it is spelled, and without one every
reference has given its value.
-/

namespace MediaPipeline.Template

/-! ## Work as a computation -/

/-- The output of some work. -/
def Work.eval (scope : Scope) (source : String) : Work → StoreM (List Chunk)
  | .block b => b.eval scope source
  | .rounds var body n i => forIndices var (body.eval scope source) n i

/-- The output of several pieces of work, one after the other. -/
def evalAll (scope : Scope) (source : String) : List Work → StoreM (List Chunk)
  | [] => pure []
  | w :: ws => do
    let here ← w.eval scope source
    let out ← evalAll scope source ws
    pure (here ++ out)

section Equations

variable {scope : Scope} {source : String} {ws : List Work}

theorem evalAll_done : evalAll scope source (.block .done :: ws) = evalAll scope source ws := by
  simp [evalAll, Work.eval, Block.eval]

theorem evalAll_text (cs : List Char) (rest : Block) :
    evalAll scope source (.block (.text cs rest) :: ws) = (do
      let out ← evalAll scope source (.block rest :: ws)
      pure (.text cs :: out)) := by
  simp [evalAll, Work.eval, Block.eval]

theorem evalAll_reference (r : Reference) (rest : Block) :
    evalAll scope source (.block (.reference r rest) :: ws) = (do
      let value ← resolve (← get) scope r
      let out ← evalAll scope source (.block rest :: ws)
      pure (.value value :: out)) := by
  simp [evalAll, Work.eval, Block.eval]

theorem evalAll_loop (head : LoopHead) (body rest : Block) :
    evalAll scope source (.block (.loop head body rest) :: ws) = (do
      let range ← head.range (← get) scope source
      evalAll scope source
        (.rounds head.var body range.length range.first :: .block rest :: ws)) := by
  simp only [evalAll, Work.eval, Block.eval, bind_assoc, pure_bind, List.append_assoc]

theorem evalAll_branch (condition : Condition) (yes no rest : Block) :
    evalAll scope source (.block (.branch condition yes no rest) :: ws) = (do
      let taken ← condition.eval (← get) scope source
      evalAll scope source (.block (if taken then yes else no) :: .block rest :: ws)) := by
  simp only [evalAll, Work.eval, Block.eval, bind_assoc, pure_bind]
  congr 1
  funext s
  congr 1
  funext taken
  cases taken <;>
    simp only [Bool.false_eq_true, if_true, if_false, bind_assoc, pure_bind, List.append_assoc]

theorem evalAll_rounds_zero (var : String) (body : Block) (i : Int) :
    evalAll scope source (.rounds var body 0 i :: ws) = evalAll scope source ws := by
  simp [evalAll, Work.eval, forIndices]

theorem evalAll_rounds_succ (var : String) (body : Block) (n : Nat) (i : Int) :
    evalAll scope source (.rounds var body (n + 1) i :: ws) = (do
      modify fun s => s.setDynamic var (Text.showInt i)
      evalAll scope source (.block body :: .rounds var body n (i + 1) :: ws)) := by
  simp only [evalAll, Work.eval, forIndices, bind_assoc, pure_bind, List.append_assoc]

end Equations

/-! ## What is reported -/

/-- The failure as which a stop is reported. -/
inductive Stop.Reports (source : String) : Stop → Cause → Prop
  | missing (r : Reference) (absence : Absence) :
    Reports source (.missing r) (.paramNotFound r.raw absence)
  | fault (f : Fault) : Reports source (.fault f) (.template source f)

/-- What rules say and what is computed come to the same. -/
inductive Agrees (source : String) {α : Type} : Except Stop α → Except Cause α → Prop
  | ok (a : α) : Agrees source (.ok a) (.ok a)
  | stop {e : Stop} {c : Cause} (h : e.Reports source c) : Agrees source (.error e) (.error c)

section Agrees

variable {α β : Type} {source : String} {x : Except Stop α} {y : Except Cause α}

theorem Agrees.map (h : Agrees source x y) (f : α → β) : Agrees source (x.map f) (y.map f) := by
  cases h with
  | ok a => exact .ok (f a)
  | stop h => exact .stop h

theorem Agrees.bind {f : α → Except Stop β} {g : α → Except Cause β} (h : Agrees source x y)
    (hf : ∀ a, Agrees source (f a) (g a)) : Agrees source (x.bind f) (y >>= g) := by
  cases h with
  | ok a => exact hf a
  | stop h => exact .stop h

theorem Agrees.stop_bind {e : Stop} {g : α → Except Cause β} (h : Agrees source (.error e) y) :
    Agrees source (.error e) (y >>= g) := by
  obtain _ | h := h
  exact .stop h

theorem Agrees.eq_ok {a : α} (h : Agrees source (.ok a) y) : y = .ok a := by
  cases h
  rfl

theorem Agrees.eq_error {e : Stop} (h : Agrees source (.error e) y) :
    ∃ c, y = .error c ∧ e.Reports source c := by
  obtain _ | h := h
  exact ⟨_, rfl, h⟩

end Agrees

section Words

variable {s : Store} {scope : Scope} {ms : List Encounter} (source : String)

theorem Spells.agrees {w : Word} {out : Except Stop (List Char)} (h : Spells s scope w ms out) :
    Agrees source out (w.eval s scope) := by
  induction h with
  | done => exact .ok []
  | char c _ ih => exact ih.map (c :: ·)
  | bound hb _ ih =>
    rw [Word.eval, resolve_eq_ok.mpr hb]
    exact ih.map _
  | missing w hb =>
    obtain ⟨absence, he⟩ := resolve_missing hb
    rw [Word.eval, he]
    exact .stop (.missing _ absence)

theorem Decides.agrees {c : Condition} {out : Except Stop Bool} (h : Decides s scope c ms out) :
    Agrees source out (c.eval s scope source) := by
  cases h with
  | flag negated h =>
    rw [Condition.eval]
    refine (h.agrees source).bind fun cs => ?_
    dsimp only [flagTruth]
    cases parseFlag (String.ofList cs) with
    | some truth => exact .ok _
    | none => exact .stop (.fault _)
  | compare c hl hr =>
    rw [Condition.eval]
    cases c with
    | equal => exact (hl.agrees source).bind fun l => (hr.agrees source).map (l == ·)
    | different => exact (hl.agrees source).bind fun l => (hr.agrees source).map (l != ·)
  | leftStops c right hl =>
    rw [Condition.eval]
    exact (hl.agrees source).stop_bind

theorem Counts.agrees {argument : String} {w : Word} {out : Except Stop Int}
    (h : Counts s scope argument w ms out) :
    Agrees source out (boundValue s scope source argument w) := by
  obtain ⟨h⟩ := h
  refine (h.agrees source).bind fun cs => ?_
  unfold boundInteger
  cases Text.int? (Text.trim cs) with
  | some n => exact .ok n
  | none => exact .stop (.fault _)

/-- The first index of a loop. -/
def startValue (s : Store) (scope : Scope) (source : String) (first : Option Word) :
    Except Cause Int :=
  match first with
  | some w => boundValue s scope source "from" w
  | none => .ok 0

theorem Starts.agrees {first : Option Word} {out : Except Stop Int}
    (h : Starts s scope first ms out) : Agrees source out (startValue s scope source first) := by
  cases h with
  | zero => exact .ok 0
  | given h => exact h.agrees source

theorem range_last (var : String) (first : Option Word) (w : Word) :
    LoopHead.range s scope source ⟨var, first, .last w⟩ = (do
      let a ← startValue s scope source first
      (boundValue s scope source "to" w).map (.inclusive a)) := by
  cases first <;> rfl

theorem range_count (var : String) (first : Option Word) (w : Word) :
    LoopHead.range s scope source ⟨var, first, .count w⟩ = (do
      let a ← startValue s scope source first
      let n ← boundValue s scope source "count" w
      if n < 0 then .error (.template source (.negativeCount var n))
      else
        match IndexRange.counted? a n with
        | some range => pure range
        | none => .error (.template source (.countOverflow var a n))) := by
  cases first <;> rfl

theorem countedRange_agrees (var : String) (first count : Int) :
    Agrees source (countedRange var first count)
      (if count < 0 then .error (.template source (.negativeCount var count))
      else
        match IndexRange.counted? first count with
        | some range => pure range
        | none => .error (.template source (.countOverflow var first count))) := by
  unfold countedRange
  by_cases hn : count < 0
  · rw [if_pos hn, if_pos hn]
    exact .stop (.fault _)
  · rw [if_neg hn, if_neg hn]
    cases IndexRange.counted? first count with
    | some range => exact .ok range
    | none => exact .stop (.fault _)

theorem Spans.agrees {head : LoopHead} {out : Except Stop IndexRange}
    (h : Spans s scope head ms out) : Agrees source out (head.range s scope source) := by
  cases h with
  | @last _ _ _ _ _ out var hf hl =>
    rw [range_last]
    have hlast (a : Int) := (hl.agrees source).map (IndexRange.inclusive a)
    exact (hf.agrees source).bind hlast
  | @count _ _ _ _ _ out var hf hc =>
    rw [range_count]
    have hcount (a : Int) := (hc.agrees source).bind (countedRange_agrees source var a)
    exact (hf.agrees source).bind hcount
  | firstStops var bound hf =>
    cases bound with
    | last w =>
      rw [range_last]
      exact (hf.agrees source).stop_bind
    | count w =>
      rw [range_count]
      exact (hf.agrees source).stop_bind

end Words

/-! ## What is put out -/

/-- What an encounter puts out. -/
def Encounter.output? : Encounter → Option Chunk
  | .text cs => some (.text cs)
  | .put _ _ value => value.map .value
  | .read _ _ _ => none

/-- What the encounters put out, in order. -/
def outputs (ms : List Encounter) : List Chunk := ms.filterMap Encounter.output?

/-- Only references in directives are met. -/
def Silent (ms : List Encounter) : Prop := ∀ m ∈ ms, m.output? = none

theorem outputs_append_of_silent {ms : List Encounter} (h : Silent ms) (ms' : List Encounter) :
    outputs (ms ++ ms') = outputs ms' := by
  rw [outputs, List.filterMap_append, List.filterMap_eq_nil_iff.mpr h, List.nil_append, outputs]

section Silent

variable {s : Store} {scope : Scope} {ms : List Encounter}

theorem Silent.append {ms' : List Encounter} (h : Silent ms) (h' : Silent ms') :
    Silent (ms ++ ms') := by
  intro m hm
  rcases List.mem_append.mp hm with hm | hm
  · exact h m hm
  · exact h' m hm

theorem Spells.silent {w : Word} {out : Except Stop (List Char)} (h : Spells s scope w ms out) :
    Silent ms := by
  induction h with
  | done => exact fun m hm => nomatch hm
  | char c _ ih => exact ih
  | bound hb _ ih => exact List.forall_mem_cons.mpr ⟨rfl, ih⟩
  | missing w hb => exact List.forall_mem_singleton.mpr rfl

theorem Decides.silent {c : Condition} {out : Except Stop Bool} (h : Decides s scope c ms out) :
    Silent ms := by
  cases h with
  | flag negated h => exact h.silent
  | compare c hl hr => exact hl.silent.append hr.silent
  | leftStops c right hl => exact hl.silent

theorem Starts.silent {first : Option Word} {out : Except Stop Int}
    (h : Starts s scope first ms out) : Silent ms := by
  rcases h with _ | ⟨⟨h⟩⟩
  · exact fun m hm => nomatch hm
  · exact h.silent

theorem Spans.silent {head : LoopHead} {out : Except Stop IndexRange}
    (h : Spans s scope head ms out) : Silent ms := by
  cases h with
  | last var hf hl =>
    obtain ⟨hl⟩ := hl
    exact hf.silent.append hl.silent
  | count var hf hc =>
    obtain ⟨hc⟩ := hc
    exact hf.silent.append hc.silent
  | firstStops var bound hf => exact hf.silent

end Silent

/-! ## Evaluation follows walks -/

/-- The evaluation ends in the store in which the walk ends, and puts out what was met
on it; if the walk stops, the evaluation fails for that reason. -/
theorem Walk.agrees {scope : Scope} {s s' : Store} {ws : List Work} {ms : List Encounter}
    {out : Except Stop Unit} (source : String) (h : Walk scope s ws ms out s') :
    ∃ answer, (evalAll scope source ws).result s = (answer, s') ∧
      Agrees source (out.map fun _ => outputs ms) answer := by
  induction h with
  | finished s => exact ⟨_, rfl, .ok []⟩
  | done _ ih =>
    rw [evalAll_done]
    exact ih
  | @text s s' ws ms out rest cs _ ih =>
    obtain ⟨answer, hr, ha⟩ := ih
    refine ⟨answer.map (.text cs :: ·), ?_, ?_⟩
    · rw [evalAll_text, StoreM.result_map, hr]
    · have h := ha.map (.text cs :: ·)
      cases out <;> exact h
  | @reference s s' ws ms out rest r v hb _ ih =>
    obtain ⟨answer, hr, ha⟩ := ih
    refine ⟨answer.map (.value v :: ·), ?_, ?_⟩
    · simp only [evalAll_reference, StoreM.result_read, resolve_eq_ok.mpr hb, StoreM.result_map, hr]
    · have h := ha.map (.value v :: ·)
      cases out <;> exact h
  | missing ws rest hb =>
    obtain ⟨absence, he⟩ := resolve_missing hb
    refine ⟨_, ?_, .stop (.missing _ absence)⟩
    simp only [evalAll_reference, StoreM.result_read, he]
  | @branch s s' ws ms ms' out condition taken yes no rest hc _ ih =>
    rw [outputs_append_of_silent hc.silent]
    obtain ⟨answer, hr, ha⟩ := ih
    refine ⟨answer, ?_, ha⟩
    simp only [evalAll_branch, StoreM.result_read, (hc.agrees source).eq_ok, hr]
  | conditionStops ws yes no rest hc =>
    obtain ⟨c, he, hc⟩ := (hc.agrees source).eq_error
    refine ⟨_, ?_, .stop hc⟩
    simp only [evalAll_branch, StoreM.result_read, he]
  | @loop s s' ws ms ms' out head range body rest hr _ ih =>
    rw [outputs_append_of_silent hr.silent]
    obtain ⟨answer, hresult, ha⟩ := ih
    refine ⟨answer, ?_, ha⟩
    simp only [evalAll_loop, StoreM.result_read, (hr.agrees source).eq_ok, hresult]
  | boundStops ws body rest hr =>
    obtain ⟨c, he, hc⟩ := (hr.agrees source).eq_error
    refine ⟨_, ?_, .stop hc⟩
    simp only [evalAll_loop, StoreM.result_read, he]
  | noRound var body i h ih =>
    rw [evalAll_rounds_zero]
    exact ih
  | round h ih =>
    rw [evalAll_rounds_succ, StoreM.result_bind]
    exact ih

/-! ## What is met is bound -/

/-- The reference that is met, with the store at that moment and the value it has there. -/
def Encounter.reading? : Encounter → Option (Reference × Store × Option String)
  | .text _ => none
  | .put r now value => some (r, now, value)
  | .read r now value => some (r, now, value)

/-- If a reference is met, the store at that moment binds it to the value recorded. -/
def Encounter.Bound (scope : Scope) (m : Encounter) : Prop :=
  ∀ r now value, m.reading? = some (r, now, value) → ∃ v, value = some v ∧ Binds now scope r v

/-- The reference is met, and the store at that moment has no binding for it. -/
def Encounter.Lacks (scope : Scope) (r : Reference) (m : Encounter) : Prop :=
  ∃ now, m.reading? = some (r, now, none) ∧ ∀ v, ¬ Binds now scope r v

/-- All that was met is bound, but for the last reference if it is missing. -/
def Sound (scope : Scope) (ms : List Encounter) {α : Type} : Except Stop α → Prop
  | .error (.missing r) =>
    ∃ before last, ms = before ++ [last] ∧ (∀ m ∈ before, m.Bound scope) ∧ last.Lacks scope r
  | .error (.fault _) => ∀ m ∈ ms, m.Bound scope
  | .ok _ => ∀ m ∈ ms, m.Bound scope

section Sound

variable {s : Store} {scope : Scope} {ms ms' : List Encounter} {α β : Type} {out : Except Stop α}

theorem Sound.map (h : Sound scope ms out) (f : α → β) : Sound scope ms (out.map f) := by
  rcases out with (r | f) | a <;> exact h

theorem Sound.bind (h : Sound scope ms out) {f : α → Except Stop β}
    (hf : ∀ a r, f a ≠ .error (.missing r)) : Sound scope ms (out.bind f) := by
  rcases out with (r | f) | a
  · exact h
  · exact h
  · show Sound scope ms (f a)
    rcases ha : f a with (r | f) | b
    · exact absurd ha (hf a r)
    · exact h
    · exact h

theorem Sound.after (hms : ∀ m ∈ ms, m.Bound scope) (h : Sound scope ms' out) :
    Sound scope (ms ++ ms') out := by
  have hall (h : ∀ m ∈ ms', m.Bound scope) : ∀ m ∈ ms ++ ms', m.Bound scope := by
    intro m hm
    rcases List.mem_append.mp hm with hm | hm
    · exact hms m hm
    · exact h m hm
  rcases out with (r | f) | a
  · obtain ⟨before, last, rfl, hbefore, hlast⟩ := h
    refine ⟨ms ++ before, last, (List.append_assoc ..).symm, ?_, hlast⟩
    intro m hm
    rcases List.mem_append.mp hm with hm | hm
    · exact hms m hm
    · exact hbefore m hm
  · exact hall h
  · exact hall h

theorem bound_put {r : Reference} {v : String} (hb : Binds s scope r v) :
    (Encounter.put r s (some v)).Bound scope := by
  rintro _ _ _ ⟨⟩
  exact ⟨v, rfl, hb⟩

theorem bound_read {r : Reference} {v : String} (hb : Binds s scope r v) :
    (Encounter.read r s (some v)).Bound scope := by
  rintro _ _ _ ⟨⟩
  exact ⟨v, rfl, hb⟩

theorem Spells.sound {w : Word} {out : Except Stop (List Char)} (h : Spells s scope w ms out) :
    Sound scope ms out := by
  induction h with
  | done => exact fun m hm => nomatch hm
  | char c _ ih => exact ih.map _
  | bound hb _ ih => exact (ih.map _).after (List.forall_mem_singleton.mpr (bound_read hb))
  | missing w hb => exact ⟨[], _, rfl, (fun m hm => nomatch hm), s, rfl, hb⟩

theorem Decides.sound {c : Condition} {out : Except Stop Bool} (h : Decides s scope c ms out) :
    Sound scope ms out := by
  cases h with
  | flag negated h =>
    refine h.sound.bind fun cs r he => ?_
    unfold flagTruth at he
    split at he <;> cases he
  | compare c hl hr => exact (hr.sound.map _).after hl.sound
  | leftStops c right hl =>
    rename_i e
    cases e <;> exact hl.sound

theorem Counts.sound {argument : String} {w : Word} {out : Except Stop Int}
    (h : Counts s scope argument w ms out) : Sound scope ms out := by
  obtain ⟨h⟩ := h
  refine h.sound.bind fun cs r he => ?_
  unfold boundInteger at he
  split at he <;> cases he

theorem Starts.sound {first : Option Word} {out : Except Stop Int}
    (h : Starts s scope first ms out) : Sound scope ms out := by
  cases h with
  | zero => exact fun m hm => nomatch hm
  | given h => exact h.sound

theorem Spans.sound {head : LoopHead} {out : Except Stop IndexRange}
    (h : Spans s scope head ms out) : Sound scope ms out := by
  cases h with
  | last var hf hl => exact (hl.sound.map _).after hf.sound
  | count var hf hc =>
    refine Sound.after hf.sound (hc.sound.bind fun n r he => ?_)
    unfold countedRange at he
    split_ifs at he
    · cases he
    · split at he <;> cases he
  | firstStops var bound hf =>
    rename_i e
    cases e <;> exact hf.sound

theorem Walk.sound {ws : List Work} {out : Except Stop Unit} {s' : Store}
    (h : Walk scope s ws ms out s') : Sound scope ms out := by
  induction h with
  | finished s => exact fun m hm => nomatch hm
  | done _ ih | noRound _ _ _ _ ih | round _ ih => exact ih
  | text cs _ ih =>
    refine ih.after (List.forall_mem_singleton.mpr ?_)
    rintro _ _ _ ⟨⟩
  | reference hb _ ih => exact ih.after (List.forall_mem_singleton.mpr (bound_put hb))
  | missing ws rest hb => exact ⟨[], _, rfl, (fun m hm => nomatch hm), _, rfl, hb⟩
  | branch hc _ ih => exact ih.after hc.sound
  | @conditionStops _ _ _ e _ _ _ _ hc => cases e <;> exact hc.sound
  | loop hr _ ih => exact ih.after hr.sound
  | @boundStops _ _ _ e _ _ _ hr => cases e <;> exact hr.sound

end Sound

/-! ## What is met stands in the text -/

/-- If a reference is met, it stands in a text. -/
def Encounter.ReadFrom (source : List Char) (m : Encounter) : Prop :=
  ∀ r now value, m.reading? = some (r, now, value) → r.ReadFrom source

/-- The work at hand was read from a text. -/
def Work.ReadFrom (source : List Char) : Work → Prop
  | .block b => b.ReadFrom source
  | .rounds _ body _ _ => body.ReadFrom source

section ReadFrom

variable {source : List Char} {s : Store} {scope : Scope} {ms : List Encounter}

theorem Spells.readFrom {w : Word} {out : Except Stop (List Char)} (h : Spells s scope w ms out)
    (hw : Word.ReadFrom source w) : ∀ m ∈ ms, m.ReadFrom source := by
  have hread (r : Reference) (value : Option String) (hr : r.ReadFrom source) :
      (Encounter.read r s value).ReadFrom source := by
    rintro _ _ _ ⟨⟩
    exact hr
  induction h with
  | done => exact fun m hm => nomatch hm
  | char c _ ih => exact ih (Word.readFrom_cons.mp hw).2
  | bound hb _ ih =>
    obtain ⟨hr, hw⟩ := Word.readFrom_cons.mp hw
    exact List.forall_mem_cons.mpr ⟨hread _ _ (hr _ rfl), ih hw⟩
  | missing w hb =>
    exact List.forall_mem_singleton.mpr (hread _ _ ((Word.readFrom_cons.mp hw).1 _ rfl))

theorem Decides.readFrom {c : Condition} {out : Except Stop Bool} (h : Decides s scope c ms out)
    (hc : c.ReadFrom source) : ∀ m ∈ ms, m.ReadFrom source := by
  cases h with
  | flag negated h => exact h.readFrom (hc.operands _ List.mem_cons_self)
  | compare c hl hr =>
    have hleft := hl.readFrom (hc.operands _ List.mem_cons_self)
    have hright := hr.readFrom (hc.operands _ (List.mem_cons_of_mem _ List.mem_cons_self))
    exact fun m hm => (List.mem_append.mp hm).elim (hleft m) (hright m)
  | leftStops c right hl => exact hl.readFrom (hc.operands _ List.mem_cons_self)

theorem Starts.readFrom {first : Option Word} {out : Except Stop Int}
    (h : Starts s scope first ms out) (hw : ∀ w, first = some w → Word.ReadFrom source w) :
    ∀ m ∈ ms, m.ReadFrom source := by
  rcases h with _ | ⟨⟨h⟩⟩
  · exact fun m hm => nomatch hm
  · exact h.readFrom (hw _ rfl)

theorem Spans.readFrom {head : LoopHead} {out : Except Stop IndexRange}
    (h : Spans s scope head ms out) (hhead : head.ReadFrom source) :
    ∀ m ∈ ms, m.ReadFrom source := by
  have hfirst (w : Word) (hw : head.first = some w) : Word.ReadFrom source w :=
    hhead.words w (List.mem_append_left _ (Option.mem_toList.mpr hw))
  have hbound : Word.ReadFrom source head.bound.word :=
    hhead.words _ (List.mem_append_right _ List.mem_cons_self)
  cases h with
  | last var hf hl =>
    obtain ⟨hl⟩ := hl
    have hfrom := hf.readFrom hfirst
    have hto := hl.readFrom hbound
    exact fun m hm => (List.mem_append.mp hm).elim (hfrom m) (hto m)
  | count var hf hc =>
    obtain ⟨hc⟩ := hc
    have hfrom := hf.readFrom hfirst
    have hcount := hc.readFrom hbound
    exact fun m hm => (List.mem_append.mp hm).elim (hfrom m) (hcount m)
  | firstStops var bound hf => exact hf.readFrom hfirst

theorem Walk.readFrom {ws : List Work} {out : Except Stop Unit} {s' : Store}
    (h : Walk scope s ws ms out s') (hws : ∀ w ∈ ws, w.ReadFrom source) :
    ∀ m ∈ ms, m.ReadFrom source := by
  have hput (s : Store) (r : Reference) (value : Option String) (hr : r.ReadFrom source) :
      (Encounter.put r s value).ReadFrom source := by
    rintro _ _ _ ⟨⟩
    exact hr
  induction h with
  | finished s => exact fun m hm => nomatch hm
  | done _ ih | noRound _ _ _ _ ih => exact ih (List.forall_mem_cons.mp hws).2
  | text cs _ ih =>
    obtain ⟨⟨-, -, hrest⟩, hws⟩ := List.forall_mem_cons.mp hws
    refine List.forall_mem_cons.mpr ⟨?_, ih (List.forall_mem_cons.mpr ⟨hrest, hws⟩)⟩
    rintro _ _ _ ⟨⟩
  | reference hb _ ih =>
    obtain ⟨⟨hr, hrest⟩, hws⟩ := List.forall_mem_cons.mp hws
    exact List.forall_mem_cons.mpr ⟨hput _ _ _ hr, ih (List.forall_mem_cons.mpr ⟨hrest, hws⟩)⟩
  | missing ws rest hb =>
    obtain ⟨⟨hr, -⟩, -⟩ := List.forall_mem_cons.mp hws
    exact List.forall_mem_singleton.mpr (hput _ _ _ hr)
  | @branch _ _ _ _ _ _ _ taken _ _ _ hc _ ih =>
    obtain ⟨⟨hcondition, -, hyes, hno, hrest⟩, hws⟩ := List.forall_mem_cons.mp hws
    have htaken := ih (List.forall_mem_cons.mpr
      ⟨by cases taken; exacts [hno, hyes], List.forall_mem_cons.mpr ⟨hrest, hws⟩⟩)
    exact fun m hm => (List.mem_append.mp hm).elim (hc.readFrom hcondition m) (htaken m)
  | conditionStops ws yes no rest hc =>
    obtain ⟨⟨hcondition, -⟩, -⟩ := List.forall_mem_cons.mp hws
    exact hc.readFrom hcondition
  | loop hr _ ih =>
    obtain ⟨⟨hhead, -, hbody, hrest⟩, hws⟩ := List.forall_mem_cons.mp hws
    have hrounds := ih (List.forall_mem_cons.mpr ⟨hbody, List.forall_mem_cons.mpr ⟨hrest, hws⟩⟩)
    exact fun m hm => (List.mem_append.mp hm).elim (hr.readFrom hhead m) (hrounds m)
  | boundStops ws body rest hr =>
    obtain ⟨⟨hhead, -⟩, -⟩ := List.forall_mem_cons.mp hws
    exact hr.readFrom hhead
  | round _ ih =>
    obtain ⟨hbody, hws⟩ := List.forall_mem_cons.mp hws
    exact ih (List.forall_mem_cons.mpr ⟨hbody, List.forall_mem_cons.mpr ⟨hbody, hws⟩⟩)

end ReadFrom

/-! ## What is not met does not matter -/

/-- Neither the branch that is not taken nor the body of a loop without an index has a
say in the walk. -/
structure IgnoresUnmet (scope : Scope) : Prop where
  branch : ∀ (s s' : Store) (ws : List Work) (condition : Condition) (taken : Bool)
    (yes no other rest : Block) (read ms : List Encounter) (out : Except Stop Unit),
    Decides s scope condition read (.ok taken) →
      (Walk scope s (.block (.branch condition yes no rest) :: ws) ms out s' ↔
        Walk scope s (.block (if taken then .branch condition yes other rest
          else .branch condition other no rest) :: ws) ms out s')
  loop : ∀ (s s' : Store) (ws : List Work) (head : LoopHead) (range : IndexRange)
    (body other rest : Block) (read ms : List Encounter) (out : Except Stop Unit),
    Spans s scope head read (.ok range) → range.length = 0 →
      (Walk scope s (.block (.loop head body rest) :: ws) ms out s' ↔
        Walk scope s (.block (.loop head other rest) :: ws) ms out s')

section Unmet

variable {s s' : Store} {scope : Scope} {ws : List Work} {read ms : List Encounter}
  {out : Except Stop Unit}

theorem walk_branch_iff {condition : Condition} {taken : Bool} {yes no rest : Block}
    (hc : Decides s scope condition read (.ok taken)) :
    Walk scope s (.block (.branch condition yes no rest) :: ws) ms out s' ↔
      ∃ ms', ms = read ++ ms' ∧
        Walk scope s (.block (if taken then yes else no) :: .block rest :: ws) ms' out s' := by
  constructor
  · intro h
    cases h with
    | branch hc' h =>
      obtain ⟨rfl, he⟩ := hc.unique hc'
      cases he
      exact ⟨_, rfl, h⟩
    | conditionStops _ _ _ _ hc' => cases (hc.unique hc').2
  · rintro ⟨ms', rfl, h⟩
    exact .branch hc h

theorem walk_loop_iff {head : LoopHead} {range : IndexRange} {body rest : Block}
    (hr : Spans s scope head read (.ok range)) (hn : range.length = 0) :
    Walk scope s (.block (.loop head body rest) :: ws) ms out s' ↔
      ∃ ms', ms = read ++ ms' ∧ Walk scope s (.block rest :: ws) ms' out s' := by
  constructor
  · intro h
    cases h with
    | loop hr' h =>
      obtain ⟨rfl, he⟩ := hr.unique hr'
      cases he
      rw [hn] at h
      obtain _ | _ | _ | _ | _ | _ | _ | _ | _ | ⟨_, _, _, h⟩ := h
      exact ⟨_, rfl, h⟩
    | boundStops _ _ _ hr' => cases (hr.unique hr').2
  · rintro ⟨ms', rfl, h⟩
    exact .loop hr (hn ▸ .noRound head.var body range.first h)

theorem ignoresUnmet (scope : Scope) : IgnoresUnmet scope := by
  refine ⟨?_, ?_⟩
  · intro s s' ws condition taken yes no other rest read ms out hc
    cases taken with
    | true =>
      rw [if_pos rfl, walk_branch_iff hc, walk_branch_iff hc]
      rfl
    | false =>
      rw [if_neg Bool.false_ne_true, walk_branch_iff hc, walk_branch_iff hc]
      rfl
  · intro s s' ws head range body other rest read ms out hr hn
    rw [walk_loop_iff hr hn, walk_loop_iff hr hn]

end Unmet

/-! ## Resolution -/

/-- The answer of a command template, given how its output splits. There must be a first
argument, which names the program. -/
def commandOf (source : String) : Except Fault (List String) → Except Cause (List String)
  | .error fault => .error (.template source fault)
  | .ok [] => .error (.template source .emptyCommand)
  | .ok (program :: arguments) => .ok (program :: arguments)

/-- What resolving a template from a store comes to, given what is met and how the walk
ends. -/
inductive Resolves (t : Template) (scope : Scope) (s : Store) (ms : List Encounter) (s' : Store) :
    Except Stop Unit → Prop
  /-- The last reference that is met is missing and reported as it is spelled. -/
  | missing {before : List Encounter} {last : Encounter} {r : Reference} (absence : Absence)
      (hms : ms = before ++ [last]) (hbefore : ∀ m ∈ before, m.Bound scope)
      (hlast : last.Lacks scope r) (hstands : r.spelling <:+: t.source.toList)
      (hargv : (t.resolveArgv scope).result s =
        (.error (.paramNotFound (String.ofList r.spelling) absence), s'))
      (hrender : (t.render scope).result s =
        (.error (.paramNotFound (String.ofList r.spelling) absence), s')) :
    Resolves t scope s ms s' (.error (.missing r))
  /-- The values that were read make no sense. -/
  | fault {f : Fault} (hms : ∀ m ∈ ms, m.Bound scope)
      (hargv : (t.resolveArgv scope).result s = (.error (.template t.source f), s'))
      (hrender : (t.render scope).result s = (.error (.template t.source f), s')) :
    Resolves t scope s ms s' (.error (.fault f))
  /-- Everything that is met is bound, and the output is what is met, in order. -/
  | complete (hms : ∀ m ∈ ms, m.Bound scope)
      (hargv : (t.resolveArgv scope).result s =
        (commandOf t.source ((arrange ((outputs ms).flatMap Chunk.pieces)).map (fillIn id)), s'))
      (hrender : (t.render scope).result s =
        (.ok (String.ofList (Text.trim ((outputs ms).flatMap Chunk.chars))), s')) :
    Resolves t scope s ms s' (.ok ())

theorem pieces_map_id (ps : Pieces String) : ps.map (Piece.map id) = ps := by
  have hid (p : Piece String) : p.map id = p := by cases p <;> rfl
  exact List.map_id'' hid ps

section Resolve

variable {t : Template} {scope : Scope} {s s' : Store}

theorem evalAll_single (source : String) (b : Block) :
    evalAll scope source [.block b] = b.eval scope source := by
  simp [evalAll, Work.eval]

theorem resolve_of_error {c : Cause} (h : (t.eval scope).result s = (.error c, s')) :
    (t.resolveArgv scope).result s = (.error c, s') ∧
      (t.render scope).result s = (.error c, s') := by
  simp only [Template.resolveArgv, Template.render, StoreM.result_bind, h, and_self]

theorem resolve_of_ok {chunks : List Chunk} (h : (t.eval scope).result s = (.ok chunks, s')) :
    (t.resolveArgv scope).result s = (commandOf t.source (splitArguments chunks), s') ∧
      (t.render scope).result s =
        (.ok (String.ofList (Text.trim (chunks.flatMap Chunk.chars))), s') := by
  simp only [Template.resolveArgv, Template.render, StoreM.result_bind, h]
  refine ⟨?_, rfl⟩
  rcases splitArguments chunks with fault | _ | ⟨word, words⟩ <;> rfl

/-- A template is resolved along the one walk through it: a reference without a binding is
reported as it is spelled, and without one every reference has given its value. -/
theorem resolves_along_walk {source : String} (h : Template.parse source = .ok t) (scope : Scope)
    (s : Store) :
    (∃ ms out s', Walk scope s [.block t.tree] ms out s' ∧
      (∀ ms' out' s'', Walk scope s [.block t.tree] ms' out' s'' →
        ms = ms' ∧ out = out' ∧ s' = s'') ∧
      Resolves t scope s ms s' out) ∧
    IgnoresUnmet scope := by
  refine ⟨?_, ignoresUnmet scope⟩
  obtain ⟨ms, out, s', hwalk⟩ := walk_total scope s t.tree
  refine ⟨ms, out, s', hwalk, fun ms' out' s'' => hwalk.unique, ?_⟩
  obtain ⟨hsource, htree⟩ := parse_readFrom h
  obtain ⟨answer, hresult, hagrees⟩ := hwalk.agrees t.source
  rw [evalAll_single] at hresult
  have hsound := hwalk.sound
  rcases out with (r | f) | ⟨⟩
  · obtain ⟨before, last, hms, hbefore, hlast⟩ := hsound
    obtain _ | ⟨⟨_, absence⟩⟩ := hagrees
    obtain ⟨hargv, hrender⟩ := resolve_of_error hresult
    refine .missing absence hms hbefore hlast ?_ hargv hrender
    obtain ⟨now, hreading, -⟩ := hlast
    have hmet : last ∈ ms := hms ▸ List.mem_append_right _ List.mem_cons_self
    have hread := hwalk.readFrom (List.forall_mem_singleton.mpr htree) last hmet
    exact hsource ▸ (hread _ _ _ hreading).stands
  · obtain _ | ⟨⟨⟩⟩ := hagrees
    obtain ⟨hargv, hrender⟩ := resolve_of_error hresult
    exact .fault hsound hargv hrender
  · cases hagrees
    obtain ⟨hargv, hrender⟩ := resolve_of_ok hresult
    rw [splitArguments_eq (pieces_map_id _).symm] at hargv
    exact .complete hsound hargv hrender

/-- A reference that an empty store does not bind. -/
def start : Reference := ⟨.dynamic, none, "start", "dynamic.start".toList⟩

/-- A command whose start is a parameter. -/
def cutting : Template :=
  ⟨"cut %\x7bdynamic.start\x7d", .text "cut ".toList (.reference start .done)⟩

theorem resolves_along_walk_unset :
    Template.parse cutting.source = .ok cutting ∧
      ∃ absence, (cutting.resolveArgv .global).result .empty =
        (.error (.paramNotFound (String.ofList start.spelling) absence), .empty) := by
  have hparse : Template.parse cutting.source = .ok cutting := by decide +kernel
  refine ⟨hparse, ?_⟩
  obtain ⟨⟨ms, out, s', hwalk, -, hresolves⟩, -⟩ := resolves_along_walk hparse .global .empty
  have hunset (v : String) : ¬ Binds .empty .global start v := by
    rintro ⟨sel, referent, -, ⟨⟩, hv⟩
    cases hv with
    | param h => cases h
  rcases hwalk with _ | _ | ⟨_, hwalk⟩
  rcases hwalk with _ | _ | _ | ⟨hb, _⟩ | _
  · exact absurd hb (hunset _)
  · cases hresolves with
    | missing absence _ _ _ _ hargv _ => exact ⟨absence, hargv⟩

end Resolve

end MediaPipeline.Template
