import MediaPipeline.Template.Basic
import MediaPipeline.Proofs.TemplateBinding

/-!
# Walks

The evaluation of a template said by rules, as a walk that meets one thing after the
other: literal text, references in text, and references in conditions and bounds. Each
reference is recorded with the store at that moment and with the value to which it is
bound there, if any. A walk reads what is in front of it: of a condition it takes the
branch that holds, and of a loop the body once for each index.

Every template has exactly one walk from a store (`walk_total`, `Walk.unique`), and what
the evaluator yields is what is met on it (`Walk.agrees`).
-/

namespace MediaPipeline.Template

/-! ## Rules -/

/-- Why an evaluation stops before its end. -/
inductive Stop where
  /-- A reference has no binding. -/
  | missing (r : Reference)
  /-- The values that were read make no sense. -/
  | fault (f : Fault)

/-- One thing that an evaluation meets. -/
inductive Encounter where
  | text (cs : List Char)
  /-- A reference in text. -/
  | put (r : Reference) (now : Store) (value : Option String)
  /-- A reference in a condition or a bound. -/
  | read (r : Reference) (now : Store) (value : Option String)

/-- The word of a directive is read from left to right, up to the first reference that
has no binding. -/
inductive Spells (s : Store) (scope : Scope) :
    Word → List Encounter → Except Stop (List Char) → Prop
  | done : Spells s scope [] [] (.ok [])
  | char {w : Word} {ms : List Encounter} {out : Except Stop (List Char)} (c : Char)
      (h : Spells s scope w ms out) : Spells s scope (.char c :: w) ms (out.map (c :: ·))
  | bound {r : Reference} {v : String} {w : Word} {ms : List Encounter}
      {out : Except Stop (List Char)} (hb : Binds s scope r v) (h : Spells s scope w ms out) :
    Spells s scope (.reference r :: w) (.read r s (some v) :: ms) (out.map (v.toList ++ ·))
  | missing {r : Reference} (w : Word) (hb : ∀ v, ¬ Binds s scope r v) :
    Spells s scope (.reference r :: w) [.read r s none] (.error (.missing r))

/-- The truth of a flag that reads as a text. -/
def flagTruth (negated : Bool) (cs : List Char) : Except Stop Bool :=
  match parseFlag (String.ofList cs) with
  | some truth => .ok (truth != negated)
  | none => .error (.fault (.notBoolean (String.ofList cs)))

/-- Whether a comparison holds. -/
def Comparison.test : Comparison → List Char → List Char → Bool
  | .equal, l, r => l == r
  | .different, l, r => l != r

/-- A condition is read from left to right and then decided. -/
inductive Decides (s : Store) (scope : Scope) :
    Condition → List Encounter → Except Stop Bool → Prop
  | flag {w : Word} {ms : List Encounter} {out : Except Stop (List Char)} (negated : Bool)
      (h : Spells s scope w ms out) :
    Decides s scope (.flag negated w) ms (out.bind (flagTruth negated))
  | compare {left right : Word} {ms ms' : List Encounter} {l : List Char}
      {out : Except Stop (List Char)} (c : Comparison) (hl : Spells s scope left ms (.ok l))
      (hr : Spells s scope right ms' out) :
    Decides s scope (.compare left c right) (ms ++ ms') (out.map (c.test l))
  | leftStops {left : Word} {ms : List Encounter} {e : Stop} (c : Comparison) (right : Word)
      (hl : Spells s scope left ms (.error e)) :
    Decides s scope (.compare left c right) ms (.error e)

/-- The integer that a bound reads as, blanks around it aside. -/
def boundInteger (argument : String) (cs : List Char) : Except Stop Int :=
  match Text.int? (Text.trim cs) with
  | some n => .ok n
  | none => .error (.fault (.boundNotInteger argument (String.ofList cs)))

/-- A bound is read and must be an integer. -/
inductive Counts (s : Store) (scope : Scope) (argument : String) :
    Word → List Encounter → Except Stop Int → Prop
  | read {w : Word} {ms : List Encounter} {out : Except Stop (List Char)}
      (h : Spells s scope w ms out) :
    Counts s scope argument w ms (out.bind (boundInteger argument))

/-- A loop starts at zero unless it says otherwise. -/
inductive Starts (s : Store) (scope : Scope) :
    Option Word → List Encounter → Except Stop Int → Prop
  | zero : Starts s scope none [] (.ok 0)
  | given {w : Word} {ms : List Encounter} {out : Except Stop Int}
      (h : Counts s scope "from" w ms out) : Starts s scope (some w) ms out

/-- So many indices from the first one. -/
def countedRange (var : String) (first count : Int) : Except Stop IndexRange :=
  if count < 0 then .error (.fault (.negativeCount var count))
  else
    match IndexRange.counted? first count with
    | some range => .ok range
    | none => .error (.fault (.countOverflow var first count))

/-- The bounds of a loop are read, first the lower and then the upper, and span its
indices. -/
inductive Spans (s : Store) (scope : Scope) :
    LoopHead → List Encounter → Except Stop IndexRange → Prop
  | last {first : Option Word} {w : Word} {ms ms' : List Encounter} {a : Int}
      {out : Except Stop Int} (var : String) (hf : Starts s scope first ms (.ok a))
      (hl : Counts s scope "to" w ms' out) :
    Spans s scope ⟨var, first, .last w⟩ (ms ++ ms') (out.map (.inclusive a))
  | count {first : Option Word} {w : Word} {ms ms' : List Encounter} {a : Int}
      {out : Except Stop Int} (var : String) (hf : Starts s scope first ms (.ok a))
      (hc : Counts s scope "count" w ms' out) :
    Spans s scope ⟨var, first, .count w⟩ (ms ++ ms') (out.bind (countedRange var a))
  | firstStops {first : Option Word} {ms : List Encounter} {e : Stop} (var : String)
      (bound : Bound) (hf : Starts s scope first ms (.error e)) :
    Spans s scope ⟨var, first, bound⟩ ms (.error e)

/-- What is still to be evaluated. -/
inductive Work where
  | block (b : Block)
  /-- So many more passes through the body of a loop, from an index on. -/
  | rounds (var : String) (body : Block) (n : Nat) (i : Int)

/-- A walk through the work at hand, in order. -/
inductive Walk (scope : Scope) :
    Store → List Work → List Encounter → Except Stop Unit → Store → Prop
  | finished (s : Store) : Walk scope s [] [] (.ok ()) s
  | done {s s' : Store} {ws : List Work} {ms : List Encounter} {out : Except Stop Unit}
      (h : Walk scope s ws ms out s') : Walk scope s (.block .done :: ws) ms out s'
  | text {s s' : Store} {ws : List Work} {ms : List Encounter} {out : Except Stop Unit}
      {rest : Block} (cs : List Char) (h : Walk scope s (.block rest :: ws) ms out s') :
    Walk scope s (.block (.text cs rest) :: ws) (.text cs :: ms) out s'
  | reference {s s' : Store} {ws : List Work} {ms : List Encounter} {out : Except Stop Unit}
      {rest : Block} {r : Reference} {v : String} (hb : Binds s scope r v)
      (h : Walk scope s (.block rest :: ws) ms out s') :
    Walk scope s (.block (.reference r rest) :: ws) (.put r s (some v) :: ms) out s'
  | missing {s : Store} {r : Reference} (ws : List Work) (rest : Block)
      (hb : ∀ v, ¬ Binds s scope r v) :
    Walk scope s (.block (.reference r rest) :: ws) [.put r s none] (.error (.missing r)) s
  | branch {s s' : Store} {ws : List Work} {ms ms' : List Encounter} {out : Except Stop Unit}
      {condition : Condition} {taken : Bool} {yes no rest : Block}
      (hc : Decides s scope condition ms (.ok taken))
      (h : Walk scope s (.block (if taken then yes else no) :: .block rest :: ws) ms' out s') :
    Walk scope s (.block (.branch condition yes no rest) :: ws) (ms ++ ms') out s'
  | conditionStops {s : Store} {ms : List Encounter} {condition : Condition} {e : Stop}
      (ws : List Work) (yes no rest : Block) (hc : Decides s scope condition ms (.error e)) :
    Walk scope s (.block (.branch condition yes no rest) :: ws) ms (.error e) s
  | loop {s s' : Store} {ws : List Work} {ms ms' : List Encounter} {out : Except Stop Unit}
      {head : LoopHead} {range : IndexRange} {body rest : Block}
      (hr : Spans s scope head ms (.ok range))
      (h : Walk scope s (.rounds head.var body range.length range.first :: .block rest :: ws)
        ms' out s') :
    Walk scope s (.block (.loop head body rest) :: ws) (ms ++ ms') out s'
  | boundStops {s : Store} {ms : List Encounter} {head : LoopHead} {e : Stop} (ws : List Work)
      (body rest : Block) (hr : Spans s scope head ms (.error e)) :
    Walk scope s (.block (.loop head body rest) :: ws) ms (.error e) s
  | noRound {s s' : Store} {ws : List Work} {ms : List Encounter} {out : Except Stop Unit}
      (var : String) (body : Block) (i : Int) (h : Walk scope s ws ms out s') :
    Walk scope s (.rounds var body 0 i :: ws) ms out s'
  | round {s s' : Store} {ws : List Work} {ms : List Encounter} {out : Except Stop Unit}
      {var : String} {body : Block} {n : Nat} {i : Int}
      (h : Walk scope (s.setDynamic var (Text.showInt i))
        (.block body :: .rounds var body n (i + 1) :: ws) ms out s') :
    Walk scope s (.rounds var body (n + 1) i :: ws) ms out s'

/-! ## There is a walk -/

section Total

variable (s : Store) (scope : Scope)

theorem binds_or_not (r : Reference) : (∃ v, Binds s scope r v) ∨ ∀ v, ¬ Binds s scope r v :=
  (Classical.em _).imp_right not_exists.mp

theorem spells_total (w : Word) : ∃ ms out, Spells s scope w ms out := by
  induction w with
  | nil => exact ⟨_, _, .done⟩
  | cons a w ih =>
    obtain ⟨ms, out, h⟩ := ih
    cases a with
    | char c => exact ⟨_, _, .char c h⟩
    | reference r =>
      obtain ⟨v, hb⟩ | hb := binds_or_not s scope r
      · exact ⟨_, _, .bound hb h⟩
      · exact ⟨_, _, .missing w hb⟩

theorem decides_total (condition : Condition) : ∃ ms out, Decides s scope condition ms out := by
  cases condition with
  | flag negated w =>
    obtain ⟨ms, out, h⟩ := spells_total s scope w
    exact ⟨_, _, .flag negated h⟩
  | compare left c right =>
    obtain ⟨ms, e | l, hl⟩ := spells_total s scope left
    · exact ⟨_, _, .leftStops c right hl⟩
    · obtain ⟨ms', out, hr⟩ := spells_total s scope right
      exact ⟨_, _, .compare c hl hr⟩

theorem counts_total (argument : String) (w : Word) :
    ∃ ms out, Counts s scope argument w ms out := by
  obtain ⟨ms, out, h⟩ := spells_total s scope w
  exact ⟨_, _, .read h⟩

theorem starts_total (first : Option Word) : ∃ ms out, Starts s scope first ms out := by
  cases first with
  | none => exact ⟨_, _, .zero⟩
  | some w =>
    obtain ⟨ms, out, h⟩ := counts_total s scope "from" w
    exact ⟨_, _, .given h⟩

theorem spans_total (head : LoopHead) : ∃ ms out, Spans s scope head ms out := by
  obtain ⟨var, first, bound⟩ := head
  obtain ⟨ms, e | a, hf⟩ := starts_total s scope first
  · exact ⟨_, _, .firstStops var bound hf⟩
  · cases bound with
    | last w =>
      obtain ⟨ms', out, hl⟩ := counts_total s scope "to" w
      exact ⟨_, _, .last var hf hl⟩
    | count w =>
      obtain ⟨ms', out, hc⟩ := counts_total s scope "count" w
      exact ⟨_, _, .count var hf hc⟩

end Total

/-- There is a walk through some work from every store. -/
def Walkable (scope : Scope) (ws : List Work) : Prop :=
  ∀ s, ∃ ms out s', Walk scope s ws ms out s'

theorem walkable_rounds {scope : Scope} {var : String} {body : Block} {ws : List Work}
    (hbody : ∀ ws, Walkable scope ws → Walkable scope (.block body :: ws))
    (hws : Walkable scope ws) (n : Nat) (i : Int) :
    Walkable scope (.rounds var body n i :: ws) := by
  induction n generalizing i with
  | zero =>
    intro s
    obtain ⟨ms, out, s', h⟩ := hws s
    exact ⟨_, _, _, .noRound var body i h⟩
  | succ n ih =>
    intro s
    obtain ⟨ms, out, s', h⟩ := hbody _ (ih (i + 1)) (s.setDynamic var (Text.showInt i))
    exact ⟨_, _, _, .round h⟩

theorem walkable_block (scope : Scope) (b : Block) (ws : List Work) (hws : Walkable scope ws) :
    Walkable scope (.block b :: ws) := by
  induction b generalizing ws with
  | done =>
    intro s
    obtain ⟨ms, out, s', h⟩ := hws s
    exact ⟨_, _, _, .done h⟩
  | text cs rest ih =>
    intro s
    obtain ⟨ms, out, s', h⟩ := ih ws hws s
    exact ⟨_, _, _, .text cs h⟩
  | reference r rest ih =>
    intro s
    obtain ⟨v, hb⟩ | hb := binds_or_not s scope r
    · obtain ⟨ms, out, s', h⟩ := ih ws hws s
      exact ⟨_, _, _, .reference hb h⟩
    · exact ⟨_, _, _, .missing ws rest hb⟩
  | loop head body rest ihbody ihrest =>
    intro s
    obtain ⟨ms, e | range, hr⟩ := spans_total s scope head
    · exact ⟨_, _, _, .boundStops ws body rest hr⟩
    · obtain ⟨ms', out, s', h⟩ :=
        walkable_rounds ihbody (ihrest ws hws) range.length range.first s
      exact ⟨_, _, _, .loop hr h⟩
  | branch condition yes no rest ihyes ihno ihrest =>
    intro s
    obtain ⟨ms, e | taken, hc⟩ := decides_total s scope condition
    · exact ⟨_, _, _, .conditionStops ws yes no rest hc⟩
    · have hwalk : Walkable scope
          (.block (if taken then yes else no) :: .block rest :: ws) := by
        cases taken with
        | true => exact ihyes _ (ihrest ws hws)
        | false => exact ihno _ (ihrest ws hws)
      obtain ⟨ms', out, s', h⟩ := hwalk s
      exact ⟨_, _, _, .branch hc h⟩

theorem walk_total (scope : Scope) (s : Store) (b : Block) :
    ∃ ms out s', Walk scope s [.block b] ms out s' :=
  walkable_block scope b [] (fun s => ⟨_, _, _, .finished s⟩) s

/-! ## There is only one -/

section Unique

variable {s : Store} {scope : Scope}

theorem Spells.unique {w : Word} {ms ms' : List Encounter} {out out' : Except Stop (List Char)}
    (h : Spells s scope w ms out) (h' : Spells s scope w ms' out') : ms = ms' ∧ out = out' := by
  induction h generalizing ms' out' with
  | done =>
    cases h'
    exact ⟨rfl, rfl⟩
  | char c _ ih =>
    obtain _ | ⟨_, h'⟩ := h'
    obtain ⟨rfl, rfl⟩ := ih h'
    exact ⟨rfl, rfl⟩
  | bound hb _ ih =>
    cases h' with
    | bound hb' h' =>
      obtain rfl := hb.unique hb'
      obtain ⟨rfl, rfl⟩ := ih h'
      exact ⟨rfl, rfl⟩
    | missing _ hb' => exact absurd hb (hb' _)
  | missing w hb =>
    cases h' with
    | bound hb' _ => exact absurd hb' (hb _)
    | missing => exact ⟨rfl, rfl⟩

theorem Decides.unique {c : Condition} {ms ms' : List Encounter} {out out' : Except Stop Bool}
    (h : Decides s scope c ms out) (h' : Decides s scope c ms' out') : ms = ms' ∧ out = out' := by
  cases h with
  | flag negated h =>
    obtain ⟨_, h'⟩ := h'
    obtain ⟨rfl, rfl⟩ := h.unique h'
    exact ⟨rfl, rfl⟩
  | compare c hl hr =>
    cases h' with
    | compare _ hl' hr' =>
      obtain ⟨rfl, he⟩ := hl.unique hl'
      obtain ⟨rfl, rfl⟩ := hr.unique hr'
      cases he
      exact ⟨rfl, rfl⟩
    | leftStops _ _ hl' => cases (hl.unique hl').2
  | leftStops c right hl =>
    cases h' with
    | compare _ hl' _ => cases (hl.unique hl').2
    | leftStops _ _ hl' =>
      obtain ⟨rfl, he⟩ := hl.unique hl'
      cases he
      exact ⟨rfl, rfl⟩

theorem Counts.unique {argument : String} {w : Word} {ms ms' : List Encounter}
    {out out' : Except Stop Int} (h : Counts s scope argument w ms out)
    (h' : Counts s scope argument w ms' out') : ms = ms' ∧ out = out' := by
  obtain ⟨h⟩ := h
  obtain ⟨h'⟩ := h'
  obtain ⟨rfl, rfl⟩ := h.unique h'
  exact ⟨rfl, rfl⟩

theorem Starts.unique {first : Option Word} {ms ms' : List Encounter} {out out' : Except Stop Int}
    (h : Starts s scope first ms out) (h' : Starts s scope first ms' out') :
    ms = ms' ∧ out = out' := by
  cases h with
  | zero =>
    cases h'
    exact ⟨rfl, rfl⟩
  | given h =>
    obtain _ | h' := h'
    exact h.unique h'

theorem Spans.unique {head : LoopHead} {ms ms' : List Encounter}
    {out out' : Except Stop IndexRange} (h : Spans s scope head ms out)
    (h' : Spans s scope head ms' out') : ms = ms' ∧ out = out' := by
  cases h with
  | last var hf hl =>
    cases h' with
    | last _ hf' hl' =>
      obtain ⟨rfl, he⟩ := hf.unique hf'
      obtain ⟨rfl, rfl⟩ := hl.unique hl'
      cases he
      exact ⟨rfl, rfl⟩
    | firstStops _ _ hf' => cases (hf.unique hf').2
  | count var hf hc =>
    cases h' with
    | count _ hf' hc' =>
      obtain ⟨rfl, he⟩ := hf.unique hf'
      obtain ⟨rfl, rfl⟩ := hc.unique hc'
      cases he
      exact ⟨rfl, rfl⟩
    | firstStops _ _ hf' => cases (hf.unique hf').2
  | firstStops var bound hf =>
    cases h' with
    | last _ hf' _ => cases (hf.unique hf').2
    | count _ hf' _ => cases (hf.unique hf').2
    | firstStops _ _ hf' =>
      obtain ⟨rfl, he⟩ := hf.unique hf'
      cases he
      exact ⟨rfl, rfl⟩

theorem Walk.unique {ws : List Work} {s₁ s₂ : Store} {ms ms' : List Encounter}
    {out out' : Except Stop Unit} (h : Walk scope s ws ms out s₁)
    (h' : Walk scope s ws ms' out' s₂) : ms = ms' ∧ out = out' ∧ s₁ = s₂ := by
  induction h generalizing ms' out' s₂ with
  | finished s =>
    cases h'
    exact ⟨rfl, rfl, rfl⟩
  | done h ih | noRound var body i h ih | round h ih =>
    cases h'
    exact ih ‹_›
  | text cs h ih =>
    rcases h' with _ | _ | ⟨_, h'⟩
    obtain ⟨rfl, rfl, rfl⟩ := ih h'
    exact ⟨rfl, rfl, rfl⟩
  | reference hb h ih =>
    cases h' with
    | reference hb' h' =>
      obtain rfl := hb.unique hb'
      obtain ⟨rfl, rfl, rfl⟩ := ih h'
      exact ⟨rfl, rfl, rfl⟩
    | missing _ _ hb' => exact absurd hb (hb' _)
  | missing ws rest hb =>
    cases h' with
    | reference hb' h' => exact absurd hb' (hb _)
    | missing => exact ⟨rfl, rfl, rfl⟩
  | branch hc h ih =>
    cases h' with
    | branch hc' h' =>
      obtain ⟨rfl, he⟩ := hc.unique hc'
      cases he
      obtain ⟨rfl, rfl, rfl⟩ := ih h'
      exact ⟨rfl, rfl, rfl⟩
    | conditionStops _ _ _ _ hc' => cases (hc.unique hc').2
  | conditionStops ws yes no rest hc =>
    cases h' with
    | branch hc' h' => cases (hc.unique hc').2
    | conditionStops _ _ _ _ hc' =>
      obtain ⟨rfl, he⟩ := hc.unique hc'
      cases he
      exact ⟨rfl, rfl, rfl⟩
  | loop hr h ih =>
    cases h' with
    | loop hr' h' =>
      obtain ⟨rfl, he⟩ := hr.unique hr'
      cases he
      obtain ⟨rfl, rfl, rfl⟩ := ih h'
      exact ⟨rfl, rfl, rfl⟩
    | boundStops _ _ _ hr' => cases (hr.unique hr').2
  | boundStops ws body rest hr =>
    cases h' with
    | loop hr' h' => cases (hr.unique hr').2
    | boundStops _ _ _ hr' =>
      obtain ⟨rfl, he⟩ := hr.unique hr'
      cases he
      exact ⟨rfl, rfl, rfl⟩

end Unique

end MediaPipeline.Template
