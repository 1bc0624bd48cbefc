import MediaPipeline.Pipeline.Compile
import MediaPipeline.Proofs.PrintedTemplate

/-!
# Loops as they are written

A loop is written with the same texts in two places: in a directive of a template, where an
argument is a key with a text, and in a declared operation, where it is a template of its
own. Texts without blanks, quotes, backslashes and percent signs stand for themselves in
both: each becomes one word of the directive, and the whole text of its template
(`LoopTexts.parseDirective_written`, `LoopTexts.compile_decl`).
-/

namespace MediaPipeline

open Template

/-- A text as a word of a directive. -/
def literalWord (text : String) : Word := text.toList.map .char

/-- A text as a template. -/
def literalTemplate (text : String) : Template :=
  ⟨text, if text.toList = [] then .done else .text text.toList .done⟩

/-- The bound of a loop as it is written. -/
inductive BoundText where
  /-- The last index, included. -/
  | last (text : String)
  /-- The number of iterations. -/
  | count (text : String)

namespace BoundText

/-- The text of a bound. -/
def text : BoundText → String
  | last text => text
  | count text => text

/-- The key of a bound in a directive. -/
def key : BoundText → List Char
  | last _ => "to".toList
  | count _ => "count".toList

/-- The bound of the loop in a template. -/
def word : BoundText → Bound
  | last text => .last (literalWord text)
  | count text => .count (literalWord text)

/-- The bound of the compiled loop. -/
def compiled : BoundText → LoopBound
  | last text => .last (literalTemplate text)
  | count text => .count (literalTemplate text)

theorem isIdentifier_key (b : BoundText) : isIdentifier b.key = true := by
  cases b with
  | last text => exact show isIdentifier "to".toList = true by decide
  | count text => exact show isIdentifier "count".toList = true by decide

end BoundText

/-- What is written of a loop besides its variable. -/
structure LoopTexts where
  first : Option String
  bound : BoundText

namespace LoopTexts

/-- Every text of a loop. -/
def texts (t : LoopTexts) : List String := t.first.toList ++ [t.bound.text]

/-- Every character stands for itself. -/
def IsPlain (t : LoopTexts) : Prop := ∀ text ∈ t.texts, ∀ c ∈ text.toList, Plain c

/-! ## In a template -/

/-- The head of the loop in a template. -/
def head (t : LoopTexts) (var : String) : LoopHead where
  var := var
  first := t.first.map literalWord
  bound := t.bound.word

/-- The keys and texts of a directive, in order. -/
def arguments (t : LoopTexts) : List (List Char × String) :=
  (t.first.map fun text => ("from".toList, text)).toList ++ [(t.bound.key, t.bound.text)]

/-- What stands in the directive after its keyword. -/
def written (t : LoopTexts) (var : String) : List Char :=
  var.toList ++ t.arguments.flatMap fun a => ' ' :: (a.1 ++ '=' :: a.2.toList)

/-! ## In a pipeline -/

/-- The declared loop. -/
def decl (t : LoopTexts) (var : String) : LoopDecl where
  var := var
  first := t.first
  last := match t.bound with
    | .last text => some text
    | .count _ => none
  count := match t.bound with
    | .last _ => none
    | .count text => some text

/-- The compiled loop. -/
def compiled (t : LoopTexts) (name : OperationName) (var : String) : LoopTemplate where
  name := name
  var := var
  first := t.first.map literalTemplate
  bound := t.bound.compiled

end LoopTexts

namespace Template

/-! ## Directives -/

theorem references_literalWord (text : String) : (literalWord text).references = [] := by
  rw [literalWord, Word.references, List.filterMap_map]
  exact List.filterMap_eq_nil_iff.mpr fun _ _ => rfl

/-- The arguments of a directive become one word each. -/
theorem splitFrom_written {source : List Char} {arguments : List (List Char × String)}
    (hplain : ∀ a ∈ arguments, ∀ c ∈ a.1 ++ '=' :: a.2.toList, Plain c) (acc : List Atom) :
    splitFrom source (outside (some acc))
        (arguments.flatMap fun a => ' ' :: (a.1 ++ '=' :: a.2.toList)) =
      .ok (acc.reverse :: arguments.map fun a => argumentWord a.1 (literalWord a.2)) := by
  induction arguments generalizing acc with
  | nil => exact splitFrom_last acc
  | cons a rest ih =>
    obtain ⟨ha, hrest⟩ := List.forall_mem_cons.mp hplain
    rw [List.flatMap_cons, List.cons_append, splitFrom_space,
      splitFrom_plains ha (List.append_ne_nil_of_right_ne_nil _ (List.cons_ne_nil _ _)), ih hrest]
    simp [argumentWord, literalWord, Except.map]

end Template

namespace LoopTexts

variable {t : LoopTexts} {var : String}

theorem IsPlain.arguments (ht : t.IsPlain) :
    ∀ a ∈ t.arguments, ∀ c ∈ a.1 ++ '=' :: a.2.toList, Plain c := by
  have hargument {key : List Char} {text : String} (hkey : isIdentifier key = true)
      (htext : ∀ c ∈ text.toList, Plain c) : ∀ c ∈ key ++ '=' :: text.toList, Plain c :=
    List.forall_mem_append.mpr ⟨(plain_of_isIdentifier hkey).1,
      List.forall_mem_cons.mpr ⟨.equals, htext⟩⟩
  have hfrom : isIdentifier "from".toList = true := by decide
  obtain ⟨hfirst, hbound⟩ := List.forall_mem_append.mp ht
  refine List.forall_mem_append.mpr ⟨fun a ha => ?_, List.forall_mem_singleton.mpr ?_⟩
  · obtain ⟨text, htext, rfl⟩ := Option.map_eq_some_iff.mp (Option.mem_toList.mp ha)
    exact hargument hfrom (hfirst text (Option.mem_toList.mpr htext))
  · exact hargument t.bound.isIdentifier_key (List.forall_mem_singleton.mp hbound)

theorem arguments_head (t : LoopTexts) (var : String) :
    (t.head var).arguments = t.arguments.map fun a => (a.1, literalWord a.2) := by
  obtain ⟨first, bound⟩ := t
  cases first <;> cases bound <;> rfl

theorem dependsOn_head (t : LoopTexts) (var : String) :
    ∀ w ∈ (t.head var).words, w.dependsOn var = false := by
  have hword (text : String) : (literalWord text).dependsOn var = false := by
    rw [Word.dependsOn, references_literalWord]
    rfl
  refine List.forall_mem_append.mpr ⟨fun w hw => ?_, List.forall_mem_singleton.mpr ?_⟩
  · obtain ⟨text, -, rfl⟩ := Option.map_eq_some_iff.mp (Option.mem_toList.mp hw)
    exact hword text
  · obtain ⟨first, bound⟩ := t
    cases bound with
    | last text => exact hword text
    | count text => exact hword text

/-- The directive opens a loop with this head. -/
theorem parseDirective_written (ht : t.IsPlain) (hvar : isIdentifier var.toList = true) :
    parseDirective ("for ".toList ++ t.written var) = .ok (.openLoop var (t.head var).collected) := by
  obtain ⟨hplain, hne⟩ := plain_of_isIdentifier hvar
  have hwords : splitWords (' ' :: t.written var) = .ok (var.toList.map .char ::
      (t.head var).arguments.map fun a => argumentWord a.1 a.2) := by
    rw [splitWords]
    refine splitFrom_leadingSpace.trans ?_
    rw [written, splitFrom_plains hplain hne, splitFrom_written ht.arguments, arguments_head]
    simp
  rw [Opens.loop.parseDirective, hwords]
  simp only [bind, Except.bind, pure, Except.pure, parseLoop, literal?_map_char, hvar, if_true,
    parseArguments_words _ (equals_not_mem_key _), String.ofList_toList, LoopHead.collected]

/-- The directive is read in front of any text, unless the text makes its percent sign the
beginning of a reference. -/
theorem tokenize_written (ht : t.IsPlain) (hvar : isIdentifier var.toList = true)
    {after : List Char} (hafter : after.head? ≠ some openBrace) :
    tokenize ('%' :: ("for ".toList ++ t.written var ++ '%' :: after)) =
      (tokenize after).map (.openLoop var (t.head var).collected :: ·) := by
  have hpass : Passable (t.written var) := by
    refine .of_not_mem fun hpercent => ?_
    rcases List.mem_append.mp hpercent with hpercent | hpercent
    · exact ((plain_of_isIdentifier hvar).1 _ hpercent).percent rfl
    · obtain ⟨a, ha, hpercent⟩ := List.mem_flatMap.mp hpercent
      rcases List.mem_cons.mp hpercent with hpercent | hpercent
      · exact absurd hpercent (by decide)
      · exact (ht.arguments a ha _ hpercent).percent rfl
  exact scan_opening .loop hpass (parseDirective_written ht hvar) hafter

/-- The loop is closed with its head. -/
theorem closeFrame_written (t : LoopTexts) (var : String) (body before : Block)
    (frames : List Frame) :
    closeFrame .endFor body (.loop var (t.head var).collected before :: frames) =
      .ok (before ++ .loop (t.head var) body .done, frames) := by
  have hhead : LoopHead.ofArguments var (t.head var).collected = .ok (t.head var) :=
    ofArguments_collected (dependsOn_head t var)
  rw [closeFrame, if_pos rfl, hhead]
  rfl

/-! ## Declared loops -/

theorem printText_plain {cs : List Char} (h : ∀ c ∈ cs, Plain c) : printText cs = cs := by
  induction cs with
  | nil => rfl
  | cons c cs ih =>
    obtain ⟨hc, hcs⟩ := List.forall_mem_cons.mp h
    show (if c = '%' then ['%', '%'] else [c]) ++ printText cs = _
    rw [if_neg hc.percent, ih hcs]
    rfl

theorem parse_literal {text : String} (h : ∀ c ∈ text.toList, Plain c) :
    Template.parse text = .ok (literalTemplate text) := by
  have htokens := tokenize_printText text.toList
  rw [printText_plain h] at htokens
  rw [Template.parse, htokens]
  rfl

theorem referencesVar_literalTemplate (text var : String) :
    (literalTemplate text).referencesVar var = false := by
  unfold literalTemplate Template.referencesVar
  by_cases hnil : text.toList = []
  · rw [if_pos hnil]
    rfl
  · rw [if_neg hnil]
    rfl

/-- The declared loop is compiled. -/
theorem compile_decl (ht : t.IsPlain) (hvar : isIdentifier var.toList = true)
    (source position : String) :
    Compile.loop source position (t.decl var) = .ok (t.compiled ⟨"for " ++ var, source⟩ var) := by
  obtain ⟨hfirst, hbound⟩ := List.forall_mem_append.mp ht
  have hparseBound : Compile.loopBound ⟨"for " ++ var, source⟩ position (t.decl var) =
      .ok t.bound.compiled := by
    have hparse := parse_literal (List.forall_mem_singleton.mp hbound)
    unfold Compile.loopBound decl
    cases hb : t.bound with
    | last text | count text =>
      rw [hb, BoundText.text] at hparse
      simp only [hparse]
      rfl
  have hparseFirst : t.first.mapM Template.parse = .ok (t.first.map literalTemplate) := by
    cases hf : t.first with
    | none => rfl
    | some text =>
      have hparse := parse_literal (hfirst text (Option.mem_toList.mpr hf))
      show (some <$> Template.parse text : Except Cause (Option Template)) = _
      rw [hparse]
      rfl
  -- Without references the bounds cannot depend on the variable of the loop.
  have hindependent : ((t.first.map literalTemplate).toList ++ [t.bound.compiled.template]).any
      (·.referencesVar var) = false := by
    cases t.first <;> cases t.bound <;>
      simp [referencesVar_literalTemplate, BoundText.compiled, LoopBound.template]
  unfold Compile.loop
  rw [show (t.decl var).var = var from rfl, show (t.decl var).first = t.first from rfl, hvar]
  simp only [Bool.not_true, Bool.false_eq_true, if_false, bind, Except.bind, hparseBound,
    hparseFirst, Compile.placed, hindependent]
  rfl

end LoopTexts

end MediaPipeline
