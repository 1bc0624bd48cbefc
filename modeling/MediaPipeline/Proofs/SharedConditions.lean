import MediaPipeline.Proofs.EvaluationGuarantees
import MediaPipeline.Proofs.TemplateResolution
import MediaPipeline.Proofs.TemplateRoundTrip

/-!
# Conditions of guards and of directives

A guard and an `%if` directive have the same conditions, but a directive is cut out first: it
ends at the first percent sign that does not begin a reference. A condition without such a
percent sign means the same in both, and where it fails, it fails for the same cause; of any
other one the directive reads the part before the percent sign (`choice_of_guard`).
-/

namespace MediaPipeline

/-- The same cause, reported for a template with another text. -/
def Cause.inText (text : String) : Cause → Cause
  | .template _ fault => .template text fault
  | cause => cause

namespace Template

/-! ## Where a directive ends -/

/-- A text in a directive: it is passed over, it has a percent sign that ends the directive,
or a reference that is not closed. -/
inductive DirectiveText (cs : List Char) : Prop
  | passes (h : Passable cs)
  | ends {before after : List Char} (hcs : cs = before ++ '%' :: after) (h : Passable before)
      (hafter : after.head? ≠ some openBrace)
  | opens {before after : List Char} (hcs : cs = before ++ '%' :: openBrace :: after)
      (h : Passable before) (hafter : closeBrace ∉ after)

theorem DirectiveText.after {cs ds : List Char} (h : DirectiveText cs) (hds : Passable ds) :
    DirectiveText (ds ++ cs) := by
  cases h with
  | passes h => exact .passes (hds.append h)
  | ends hcs h hafter =>
    exact .ends (by rw [hcs, List.append_assoc]) (hds.append h) hafter
  | opens hcs h hafter =>
    exact .opens (by rw [hcs, List.append_assoc]) (hds.append h) hafter

/-- Every text is of one of these kinds, also from the percent sign of a reference on that is
being passed over. -/
theorem directiveText_scanned (cs : List Char) :
    DirectiveText cs ∧ ∀ body, closeBrace ∉ body → (body ++ cs).head? = some openBrace →
      DirectiveText ('%' :: (body ++ cs)) := by
  induction cs with
  | nil =>
    refine ⟨.passes .nil, fun body hbody hopen => ?_⟩
    rw [List.append_nil] at hopen ⊢
    obtain ⟨after, rfl⟩ := List.head?_eq_some_iff.mp hopen
    exact .opens (List.nil_append _).symm .nil fun hmem => hbody (List.mem_cons_of_mem _ hmem)
  | cons c cs ih =>
    constructor
    · by_cases hc : c = '%'
      · subst hc
        by_cases hopen : cs.head? = some openBrace
        · exact ih.2 [] List.not_mem_nil hopen
        · exact .ends (List.nil_append _).symm .nil hopen
      · exact ih.1.after (.char hc .nil)
    · intro body hbody hopen
      by_cases hc : c = closeBrace
      · subst hc
        rcases body with _ | ⟨d, after⟩
        · cases hopen
        · obtain rfl : d = openBrace := Option.some.inj hopen
          have hclosed : closeBrace ∉ after := fun hmem => hbody (List.mem_cons_of_mem _ hmem)
          have hreference := Passable.reference (r := ⟨.dynamic, none, "", after⟩) hclosed .nil
          have hspelling : '%' :: (openBrace :: after ++ closeBrace :: cs) =
              Reference.spelling ⟨.dynamic, none, "", after⟩ ++ [] ++ cs := by
            simp [Reference.spelling, spellingOf]
          rw [hspelling]
          exact ih.1.after hreference
      · have hnext := ih.2 (body ++ [c]) (by simp [hbody, Ne.symm hc]) (by simpa using hopen)
        simpa using hnext

theorem directiveText (cs : List Char) : DirectiveText cs := (directiveText_scanned cs).1

/-! ## Words -/

/-- The text for messages has no part in what is read. -/
theorem splitFrom_anyText {text text' cs : List Char} {s : SplitState} {ws : List Word}
    (h : splitFrom text s cs = .ok ws) : splitFrom text' s cs = .ok ws := by
  fun_induction splitFrom text s cs generalizing ws with
  | case1 | case2 | case4 => cases h
  | case3 s hquote hreference =>
    rw [splitFrom.eq_def]
    simpa only [hquote, hreference] using h
  | case5 | case6 | case7 | case8 | case9 | case10 | case11 | case12 =>
    rename_i ih
    rw [splitFrom.eq_def]
    simp_all
  | case13 s c cs hs hpercent hescape hquote ih =>
    rw [splitFrom.eq_def, hs]
    dsimp only
    rw [if_neg hpercent, if_neg hescape, if_pos hquote, ← hs]
    exact ih h
  | case14 s c cs hs hpercent hescape hquote hopen ih =>
    rw [splitFrom.eq_def, hs]
    dsimp only
    rw [if_neg hpercent, if_neg hescape, if_neg hquote, if_pos hopen]
    exact ih h
  | case15 s c cs hs hpercent hescape hquote hopen hblank ih =>
    obtain ⟨vs, hvs, rfl⟩ := map_eq_ok.mp h
    rw [splitFrom.eq_def, hs]
    dsimp only
    rw [if_neg hpercent, if_neg hescape, if_neg hquote, if_neg hopen, if_pos hblank, ← hs, ih hvs]
    rfl
  | case16 s c cs hs hpercent hescape hquote hopen hblank ih =>
    rw [splitFrom.eq_def, hs]
    dsimp only
    rw [if_neg hpercent, if_neg hescape, if_neg hquote, if_neg hopen, if_neg hblank]
    exact ih h

/-- A condition is split alike with and without the space in front of it. -/
theorem splitWords_space {cs : List Char} {ws : List Word} :
    splitWords (' ' :: cs) = .ok ws ↔ splitWords cs = .ok ws := by
  have hspace : splitWords (' ' :: cs) = splitFrom (' ' :: cs) (outside none) cs :=
    splitFrom_leadingSpace
  rw [hspace]
  exact ⟨splitFrom_anyText, splitFrom_anyText⟩

theorem guard_parse_eq_ok {source : String} {g : Guard} :
    Guard.parse source = .ok g ↔
      g.source = source ∧ ∃ ws, splitWords source.toList = .ok ws ∧
        Condition.ofWords ws = .ok g.condition := by
  rw [← bind_eq_ok]
  obtain ⟨text, condition⟩ := g
  unfold Guard.parse
  cases hread : splitWords source.toList >>= Condition.ofWords with
  | ok read => simp [eq_comm]
  | error fault => simp

/-! ## Evaluation -/

section Eval

variable {s : Store} {scope : Scope}

/-- A condition means the same in another text, up to what is said of the text. -/
theorem eval_inText (c : Condition) (source text : String) :
    c.eval s scope text = (c.eval s scope source).mapError (·.inText text) := by
  have hword (w : Word) : FailsWith (fun cause => cause.inText text = cause) (w.eval s scope) := by
    refine failsWith_word (fun r cause hr => ?_) w
    obtain ⟨absence, rfl⟩ := resolve_error hr
    rfl
  cases c with
  | flag negated w =>
    rw [Condition.eval, Condition.eval]
    cases hw : w.eval s scope with
    | error cause => exact congrArg Except.error (hword w cause hw).symm
    | ok value =>
      simp only [bind, Except.bind]
      cases parseFlag (String.ofList value) <;> rfl
  | compare left comparison right =>
    rw [Condition.eval, Condition.eval]
    cases hl : left.eval s scope with
    | error cause => exact congrArg Except.error (hword left cause hl).symm
    | ok l =>
      cases hr : right.eval s scope with
      | error cause => exact congrArg Except.error (hword right cause hr).symm
      | ok r => rfl

/-- What is put out for an outcome of the condition. -/
def chosen (truth : Bool) : String := if truth then "yes" else "no"

theorem render_choice (condition : Condition) (source : String) :
    (Template.render ⟨source, choice condition⟩ scope).result s =
      ((condition.eval s scope source).map chosen, s) := by
  have heval : (Template.eval ⟨source, choice condition⟩ scope).result s =
      ((condition.eval s scope source).map fun truth => [.text (chosen truth).toList], s) := by
    rw [Template.eval, choice, Block.eval, StoreM.result_read]
    cases condition.eval s scope source with
    | error cause => rfl
    | ok truth => cases truth <;> rfl
  cases hcondition : condition.eval s scope source with
  | error cause =>
    rw [hcondition] at heval
    exact (resolve_of_error heval).2
  | ok truth =>
    rw [hcondition] at heval
    rw [(resolve_of_ok heval).2]
    cases truth <;> rfl

end Eval

/-! ## Choices -/

/-- A choice as a template. -/
def choiceTemplate (condition : String) : String := String.ofList (choiceText condition.toList)

theorem scan_argument_open {body cs : List Char} (hcs : closeBrace ∉ cs) :
    ∃ fault, scan (.argument body) cs = .error fault := by
  induction cs generalizing body with
  | nil => exact ⟨_, rfl⟩
  | cons c cs ih =>
    simp only [List.mem_cons, not_or] at hcs
    rw [scan, if_neg (Ne.symm hcs.1)]
    exact ih hcs.2

section Choices

variable {before after : List Char}

/-- Having passed over the beginning of the condition, the scanner is inside the directive. -/
theorem tokenize_choiceText_append (hbefore : Passable before) (cs : List Char) :
    tokenize (choiceText (before ++ cs)) =
      scan (.directive (before.reverse ++ "if ".toList.reverse))
        (cs ++ '%' :: "yes%else%no%endif%".toList) := by
  have hspace : ' ' ∈ "if ".toList.reverse := by decide
  rw [tokenize, choiceText, List.append_assoc, Opens.condition.scan, List.append_assoc,
    scan_pass hbefore hspace]

/-- A reference that is not closed in the condition is not closed at all. -/
theorem tokenize_choiceText_open (hbefore : Passable before) (hafter : closeBrace ∉ after) :
    ∃ fault, tokenize (choiceText (before ++ '%' :: openBrace :: after)) = .error fault := by
  have htail : closeBrace ∉ openBrace :: after ++ '%' :: "yes%else%no%endif%".toList := by
    have hfixed : closeBrace ∉ '%' :: "yes%else%no%endif%".toList := by decide
    simp only [List.cons_append, List.mem_cons, List.mem_append, not_or]
    exact ⟨by decide, hafter, by simpa using hfixed⟩
  have hnone : closer? (before.reverse ++ "if ".toList.reverse).reverse = none :=
    closer?_eq_none (by simp)
  rw [tokenize_choiceText_append hbefore, List.cons_append, scan, if_pos rfl, if_pos ⟨rfl, hnone⟩]
  exact scan_argument_open htail

/-- The condition is read from what stands before the percent sign that ends the directive. -/
theorem openers_choiceText {tree : Block} (hbefore : Passable before)
    (hafter : after.head? ≠ some openBrace)
    (h : (tokenize (choiceText (before ++ '%' :: after)) >>= Block.parse) = .ok tree) :
    ∃ words condition, splitWords before = .ok words ∧
      Condition.ofWords words = .ok condition ∧ tree.openers.head? = some (.branch condition) := by
  have hrest : (after ++ '%' :: "yes%else%no%endif%".toList).head? ≠ some openBrace := by
    cases after with
    | nil => exact show some '%' ≠ some openBrace by decide
    | cons c cs => exact hafter
  have hscan : tokenize (choiceText (before ++ '%' :: after)) = (do
      let token ← parseDirective ("if ".toList ++ before)
      let tokens ← scan .text (after ++ '%' :: "yes%else%no%endif%".toList)
      pure (token :: tokens)) := by
    rw [tokenize_choiceText_append hbefore, List.cons_append, scan, if_pos rfl,
      if_neg fun hopen => hrest hopen.1, List.reverse_append, List.reverse_reverse,
      List.reverse_reverse]
  rw [hscan, Opens.condition.parseDirective] at h
  obtain ⟨ts, hts, hparse⟩ := bind_eq_ok.mp h
  obtain ⟨token, htoken, hts⟩ := bind_eq_ok.mp hts
  obtain ⟨words, hwords, htoken⟩ := bind_eq_ok.mp htoken
  obtain ⟨tokens, -, hts⟩ := bind_eq_ok.mp hts
  cases htoken
  cases hts
  obtain ⟨condition, hcondition, hparse⟩ := bind_eq_ok.mp hparse
  refine ⟨words, condition, splitWords_space.mp hwords, hcondition, ?_⟩
  -- The directive opens the first block of the tree.
  have hopeners := parseFrom_openers hparse
  cases hfirst : tree.openers with
  | nil => simp [hfirst, openersIn, Frame.openers, Block.openers] at hopeners
  | cons opener openers =>
    simp only [hfirst, openersIn, Frame.openers, Block.openers, List.map_cons, List.map_nil,
      List.reverse_singleton, List.flatMap_cons, List.flatMap_nil, List.nil_append, List.append_nil,
      List.singleton_append, List.cons.injEq, Except.ok.injEq] at hopeners
    exact congrArg some hopeners.1

end Choices

/-- What a guard accepts is the condition of a choice if each percent sign begins a reference:
the choice is decided as the guard is, and fails for the same cause. Otherwise the condition
of the choice is the one that ends at the first other percent sign. -/
theorem choice_of_guard {source : String} {g : Guard} (h : Guard.parse source = .ok g) :
    (Passable source.toList → ∃ t, Template.parse (choiceTemplate source) = .ok t ∧
      ∀ scope s, (t.render scope).result s =
        (((g.eval s scope).map chosen).mapError (·.inText t.source), s)) ∧
    (¬ Passable source.toList → ∀ t, Template.parse (choiceTemplate source) = .ok t →
      ∃ before after g', source.toList = before ++ '%' :: after ∧ Passable before ∧
        after.head? ≠ some openBrace ∧ Guard.parse (String.ofList before) = .ok g' ∧
        t.tree.openers.head? = some (.branch g'.condition)) := by
  obtain ⟨hsource, words, hwords, hcondition⟩ := guard_parse_eq_ok.mp h
  refine ⟨fun hpass => ?_, fun hpass t ht => ?_⟩
  · refine ⟨⟨choiceTemplate source, choice g.condition⟩, ?_, fun scope s => ?_⟩
    · rw [parse_eq_ok, choiceTemplate, String.toList_ofList]
      exact tokenize_choiceText hpass (splitWords_space.mpr hwords) hcondition
    · rw [render_choice, eval_inText g.condition g.source, Guard.eval]
      cases g.condition.eval s scope g.source <;> rfl
  · have hparse : (tokenize (choiceText source.toList) >>= Block.parse) = .ok t.tree := by
      rw [← String.toList_ofList (l := choiceText source.toList), ← parse_eq_ok,
        ← choiceTemplate, ht, ← (parse_readFrom ht).1]
    cases directiveText source.toList with
    | passes h => exact absurd h hpass
    | opens hcs hbefore hafter =>
      obtain ⟨fault, hfault⟩ := tokenize_choiceText_open hbefore hafter
      rw [hcs, hfault] at hparse
      cases hparse
    | @ends before after hcs hbefore hafter =>
      rw [hcs] at hparse
      obtain ⟨ws, condition, hws, hcondition, hopeners⟩ :=
        openers_choiceText hbefore hafter hparse
      have hguard : Guard.parse (String.ofList before) = .ok ⟨String.ofList before, condition⟩ :=
        guard_parse_eq_ok.mpr ⟨rfl, ws, by rwa [String.toList_ofList], hcondition⟩
      exact ⟨before, after, _, hcs, hbefore, hafter, hguard, hopeners⟩

/-- A first percent sign that begins no reference. -/
theorem not_passable {before after : List Char} (hbefore : '%' ∉ before)
    (hafter : after.head? ≠ some openBrace) : ¬ Passable (before ++ '%' :: after) := by
  generalize hcs : before ++ '%' :: after = cs
  intro h
  induction h generalizing before with
  | nil => exact List.append_ne_nil_of_right_ne_nil _ (List.cons_ne_nil _ _) hcs
  | char hc _ ih =>
    cases before with
    | nil => exact hc (List.cons.inj hcs).1.symm
    | cons c before => exact ih (fun h => hbefore (List.mem_cons_of_mem _ h)) (List.cons.inj hcs).2
  | reference hr _ _ =>
    cases before with
    | nil =>
      rw [(List.cons.inj hcs).2] at hafter
      exact hafter rfl
    | cons c before => exact hbefore ((List.cons.inj hcs).1 ▸ List.mem_cons_self)

/-- A comparison that holds: both sides are `50%`. -/
def halves : Condition :=
  .compare ("50%".toList.map .char) .equal ("50%".toList.map .char)

/-- What becomes of it in a directive: a flag that is neither true nor false. -/
def halved (yes : String) : Block :=
  .branch (.flag false ("50".toList.map .char)) (.text yes.toList .done) (.text "no".toList .done)
    .done

theorem choice_of_guard_compared :
    (∃ g, Guard.parse "%\x7bdynamic.x\x7d == a" = .ok g ∧
      Passable "%\x7bdynamic.x\x7d == a".toList ∧
      ∃ t, Template.parse "%if %\x7bdynamic.x\x7d == a%yes%else%no%endif%" = .ok t ∧
        ∀ scope s, (t.render scope).result s =
          (((g.eval s scope).map chosen).mapError (·.inText t.source), s)) ∧
    (∃ g, Guard.parse "50% == 50%" = .ok g ∧ ¬ Passable "50% == 50%".toList ∧
      ∀ t, Template.parse "%if 50% == 50%%yes%else%no%endif%" = .ok t →
        ∃ before after g', "50% == 50%".toList = before ++ '%' :: after ∧ Passable before ∧
          after.head? ≠ some openBrace ∧ Guard.parse (String.ofList before) = .ok g' ∧
          t.tree.openers.head? = some (.branch g'.condition)) := by
  have hreference : Guard.parse "%\x7bdynamic.x\x7d == a" = .ok ⟨"%\x7bdynamic.x\x7d == a",
      .compare [.reference dynamicX] .equal [.char 'a']⟩ := by decide +kernel
  have hpass : Passable "%\x7bdynamic.x\x7d == a".toList := by
    have hafter : Passable " == a".toList := .of_not_mem (by decide)
    have hclosed : closeBrace ∉ dynamicX.body := by decide
    exact .reference hclosed hafter
  have hhalves : Guard.parse "50% == 50%" = .ok ⟨"50% == 50%", halves⟩ := by decide +kernel
  have hbefore : '%' ∉ "50".toList := by decide
  have hafter : " == 50%".toList.head? ≠ some openBrace := by decide
  have hnotPass : ¬ Passable "50% == 50%".toList := not_passable hbefore hafter
  exact ⟨⟨_, hreference, hpass, (choice_of_guard hreference).1 hpass⟩,
    _, hhalves, hnotPass, (choice_of_guard hhalves).2 hnotPass⟩

/-- A guard that holds, and the choice with its condition, which cannot be decided. -/
def CutShort (source : String) : Prop :=
  (∃ g, Guard.parse source = .ok g ∧ g.eval .empty .global = .ok true) ∧
    ∃ t cause, Template.parse (choiceTemplate source) = .ok t ∧
      (t.render .global).result .empty = (.error cause, .empty)

theorem cutShort_of_parse {source : String} (yes : String)
    (hguard : Guard.parse source = .ok ⟨source, halves⟩)
    (htemplate : Template.parse (choiceTemplate source) =
      .ok ⟨choiceTemplate source, halved yes⟩) : CutShort source := by
  have heval : Condition.eval .empty .global source halves = .ok true := rfl
  exact ⟨⟨_, hguard, heval⟩, _, .template _ (.notBoolean "50"), htemplate, rfl⟩

/-- However the percent signs of a guard are written, in a directive the first one is its end. -/
theorem percent_ends_directive :
    CutShort "50% == 50%" ∧ CutShort "50%% == 50%%" ∧ CutShort "50\\% == 50\\%" := by
  have hplain : CutShort "50% == 50%" :=
    cutShort_of_parse " == 50%yes" (by decide +kernel) (by decide +kernel)
  have hdoubled : CutShort "50%% == 50%%" :=
    cutShort_of_parse "% == 50%%yes" (by decide +kernel) (by decide +kernel)
  have hescaped : CutShort "50\\% == 50\\%" :=
    cutShort_of_parse " == 50\\%yes" (by decide +kernel) (by decide +kernel)
  exact ⟨hplain, hdoubled, hescaped⟩

end Template

end MediaPipeline
