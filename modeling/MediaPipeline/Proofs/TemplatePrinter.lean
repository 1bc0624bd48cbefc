import MediaPipeline.Proofs.ParsedTemplate

/-!
# Printing templates

A printer for block trees: words are printed between double quotes with quotes and
backslashes escaped, text with percent signs doubled, references and directives as they
are written. What it makes of a word and of a directive is split and read back as it was
(`splitFrom_print`, `parseDirective_condition`, `parseDirective_loop`), as long as no word
has a percent sign in its text.
-/

namespace MediaPipeline.Template

/-! ## The printer -/

/-- Text with every percent sign doubled. -/
def printText (cs : List Char) : List Char :=
  cs.flatMap fun c => if c = '%' then ['%', '%'] else [c]

/-- An element of a word between double quotes. -/
def Atom.print : Atom → List Char
  | .char c => if c = '"' ∨ c = '\\' then ['\\', c] else [c]
  | .reference r => r.spelling

/-- A word between double quotes. -/
def Word.print (w : Word) : List Char := '"' :: (w.flatMap Atom.print ++ ['"'])

/-- The words of a condition. -/
def Condition.words : Condition → List Word
  | .flag false w => [w]
  | .flag true w => [.char '!' :: w]
  | .compare left c right => [left, c.spelling.map .char, right]

/-- What stands between the percent signs of a condition, after the keyword. -/
def Condition.print : Condition → List Char
  | .flag false w => Word.print w
  | .flag true w => Word.print (.char '!' :: w)
  | .compare left c right => Word.print left ++ ' ' :: (c.spelling ++ ' ' :: Word.print right)

/-- The key of a bound. -/
def Bound.key : Bound → List Char
  | .last _ => "to".toList
  | .count _ => "count".toList

/-- An argument of a loop. -/
def printArgument (key : List Char) (w : Word) : List Char := key ++ '=' :: Word.print w

/-- What stands between the percent signs of a loop, after the keyword. -/
def LoopHead.print (head : LoopHead) : List Char :=
  head.var.toList ++ ' ' :: ((head.first.map (printArgument "from".toList)).getD [] ++
    ' ' :: printArgument head.bound.key head.bound.word)

/-- A block as text. -/
def Block.print : Block → List Char
  | .done => []
  | .text cs rest => printText cs ++ rest.print
  | .reference r rest => r.spelling ++ rest.print
  | .loop head body rest =>
    '%' :: ("for ".toList ++ head.print ++
      '%' :: (body.print ++ (Closer.endFor.spelling.toList ++ rest.print)))
  | .branch condition yes no rest =>
    '%' :: ("if ".toList ++ condition.print ++
      '%' :: (yes.print ++ ((if no = .done then [] else Closer.otherwise.spelling.toList ++ no.print) ++
        (Closer.endIf.spelling.toList ++ rest.print))))

/-- The words in the directives of a block, in order. -/
def Block.directiveWords : Block → List Word
  | .done => []
  | .text _ rest => rest.directiveWords
  | .reference _ rest => rest.directiveWords
  | .loop head body rest => head.words ++ body.directiveWords ++ rest.directiveWords
  | .branch condition yes no rest =>
    condition.operands ++ yes.directiveWords ++ no.directiveWords ++ rest.directiveWords

/-! ## Words are read back -/

/-- A word that the printer can write: its references are as they are read, and its text
has no percent sign. -/
structure Word.Printable (w : Word) : Prop where
  references : ∀ r, Atom.reference r ∈ w → Reference.parse r.body = .ok r ∧ closeBrace ∉ r.body
  text : Atom.char '%' ∉ w

section Steps

variable {text cs : List Char} {s : SplitState} {body : List Char} {c d : Char}

theorem splitFrom_close {r : Reference} (hs : s.reference = some body)
    (hr : Reference.parse body.reverse = .ok r) :
    splitFrom text s (closeBrace :: cs) =
      splitFrom text (SplitState.push { s with reference := none } (.reference r)) cs := by
  rw [splitFrom.eq_def]
  simp only [hs, if_true, hr]

theorem splitFrom_inReference (hs : s.reference = some body) (hc : c ≠ closeBrace) :
    splitFrom text s (c :: cs) = splitFrom text { s with reference := some (c :: body) } cs := by
  rw [splitFrom.eq_def]
  simp only [hs, hc, if_false]

theorem splitFrom_open (hs : s.reference = none) :
    splitFrom text s ('%' :: openBrace :: cs) =
      splitFrom text { s with reference := some [] } cs := by
  rw [splitFrom.eq_def]
  simp only [hs, if_true]

theorem splitFrom_escape (hs : s.reference = none) (hq : s.quote ≠ some '\'') :
    splitFrom text s ('\\' :: d :: cs) = splitFrom text (s.push (.char d)) cs := by
  have hc : '\\' ≠ '%' := by decide
  rw [splitFrom.eq_def]
  simp only [hs, hc, if_false, hq, ne_eq, not_false_eq_true, and_self, if_true]

theorem splitFrom_endQuote (hs : s.reference = none) (hq : s.quote = some '"') :
    splitFrom text s ('"' :: cs) = splitFrom text { s with quote := none } cs := by
  have hc : '"' ≠ '%' ∧ '"' ≠ '\\' := by decide
  rw [splitFrom.eq_def]
  simp only [hs, hc, hq, if_false, false_and, if_true]

theorem splitFrom_startQuote (hs : s.reference = none) (hq : s.quote = none) :
    splitFrom text s ('"' :: cs) = splitFrom text { s.touch with quote := some '"' } cs := by
  have hc : '"' ≠ '%' ∧ '"' ≠ '\\' := by decide
  rw [splitFrom.eq_def]
  simp only [hs, hc, hq, if_false, false_and, reduceCtorEq, or_true, and_self, if_true]

theorem splitFrom_blank (hs : s.reference = none) (hq : s.quote = none) :
    splitFrom text s (' ' :: cs) =
      (splitFrom text { s with word := none } cs).map (s.pending ++ ·) := by
  have hc : ' ' ≠ '%' ∧ ' ' ≠ '\\' ∧ ' ' ≠ '\'' ∧ ' ' ≠ '"' := by decide
  have hblank : Text.isBlank ' ' = true := by decide
  rw [splitFrom.eq_def]
  simp only [hs, hc, hq, hblank, if_false, false_and, reduceCtorEq, or_false, and_self, if_true]

/-- In quotes only the quote, backslashes and references are special. -/
theorem splitFrom_quoted (hs : s.reference = none) (hq : s.quote = some '"') (hc : c ≠ '%')
    (hquote : c ≠ '"') (hbackslash : c ≠ '\\') :
    splitFrom text s (c :: cs) = splitFrom text (s.push (.char c)) cs := by
  rw [splitFrom.eq_def]
  simp only [hs, hc, hq, hbackslash, hquote.symm, Option.some.injEq, if_false, false_and,
    reduceCtorEq, and_false]

/-- A character that stands for itself outside quotes. -/
structure Plain (c : Char) : Prop where
  percent : c ≠ '%'
  backslash : c ≠ '\\'
  single : c ≠ '\''
  double : c ≠ '"'
  blank : Text.isBlank c = false

theorem splitFrom_plain (hs : s.reference = none) (hq : s.quote = none) (hc : Plain c) :
    splitFrom text s (c :: cs) = splitFrom text (s.push (.char c)) cs := by
  rw [splitFrom.eq_def]
  simp only [hs, hq, hc.percent, hc.backslash, hc.single, hc.double, hc.blank, if_false, false_and,
    reduceCtorEq, or_false, Bool.false_eq_true]

end Steps

section Words

variable {text rest : List Char}

theorem Word.ReadFrom.printable {source : List Char} {w : Word} (h : w.ReadFrom source)
    (hw : Atom.char '%' ∉ w) : w.Printable :=
  ⟨fun r hr => ⟨(h r hr).parsed, (h r hr).closed⟩, hw⟩

theorem Word.Printable.tail {a : Atom} {w : Word} (h : Word.Printable (a :: w)) : w.Printable :=
  ⟨fun r hr => h.references r (List.mem_cons_of_mem _ hr),
    fun hw => h.text (List.mem_cons_of_mem _ hw)⟩

theorem splitFrom_body {s : SplitState} {body cs : List Char} {r : Reference}
    (hs : s.reference = some body) (hr : Reference.parse (body.reverse ++ cs) = .ok r)
    (hcs : closeBrace ∉ cs) :
    splitFrom text s (cs ++ closeBrace :: rest) =
      splitFrom text (SplitState.push { s with reference := none } (.reference r)) rest := by
  induction cs generalizing s body with
  | nil =>
    rw [List.append_nil] at hr
    exact splitFrom_close hs hr
  | cons c cs ih =>
    simp only [List.mem_cons, not_or] at hcs
    rw [List.cons_append, splitFrom_inReference hs (Ne.symm hcs.1)]
    exact ih (s := { s with reference := some (c :: body) }) rfl (by simpa using hr) hcs.2

theorem splitFrom_spelling {s : SplitState} {r : Reference} (hs : s.reference = none)
    (hr : Reference.parse r.body = .ok r) (hclosed : closeBrace ∉ r.body) :
    splitFrom text s (r.spelling ++ rest) = splitFrom text (s.push (.reference r)) rest := by
  have hspelling : r.spelling ++ rest = '%' :: openBrace :: (r.body ++ closeBrace :: rest) := by
    simp [Reference.spelling, spellingOf]
  have hnone : { s with reference := none } = s := by rw [← hs]
  rw [hspelling, splitFrom_open hs,
    splitFrom_body (s := { s with reference := some [] }) rfl hr hclosed]
  exact congrArg (fun s => splitFrom text (SplitState.push s _) rest) hnone

/-- The splitter is in a double quote, and this is the word it has so far, last atom
first. -/
def inQuote (acc : List Atom) : SplitState := ⟨none, some '"', some acc⟩

/-- The splitter is outside quotes. -/
def outside (word : Option (List Atom)) : SplitState := ⟨none, none, word⟩

/-- What is printed between the quotes is read into the word at hand. -/
theorem splitFrom_atoms {w : Word} (hw : w.Printable) (acc : List Atom) :
    splitFrom text (inQuote acc) (w.flatMap Atom.print ++ rest) =
      splitFrom text (inQuote (w.reverse ++ acc)) rest := by
  induction w generalizing acc with
  | nil => rfl
  | cons a w ih =>
    rw [List.flatMap_cons, List.append_assoc, List.reverse_cons, List.append_assoc]
    refine Eq.trans ?_ (ih hw.tail (a :: acc))
    cases a with
    | char c =>
      have hc : c ≠ '%' := fun he => hw.text (he ▸ List.mem_cons_self)
      by_cases hescaped : c = '"' ∨ c = '\\'
      · rw [Atom.print, if_pos hescaped]
        exact splitFrom_escape rfl fun he => nomatch he
      · obtain ⟨hquote, hbackslash⟩ := not_or.mp hescaped
        rw [Atom.print, if_neg hescaped]
        exact splitFrom_quoted rfl rfl hc hquote hbackslash
    | reference r =>
      obtain ⟨hparse, hclosed⟩ := hw.references r List.mem_cons_self
      exact splitFrom_spelling rfl hparse hclosed

/-- A printed word joins the word at hand. -/
theorem splitFrom_print {w : Word} (hw : w.Printable) (word : Option (List Atom)) :
    splitFrom text (outside word) (Word.print w ++ rest) =
      splitFrom text (outside (some (w.reverse ++ word.getD []))) rest := by
  rw [Word.print, List.cons_append, List.append_assoc, splitFrom_startQuote rfl rfl]
  exact (splitFrom_atoms hw (word.getD [])).trans (splitFrom_endQuote rfl rfl)

theorem splitFrom_plains {cs : List Char} (hcs : ∀ c ∈ cs, Plain c) (hne : cs ≠ [])
    (word : Option (List Atom)) :
    splitFrom text (outside word) (cs ++ rest) =
      splitFrom text (outside (some ((cs.map Atom.char).reverse ++ word.getD []))) rest := by
  induction cs generalizing word with
  | nil => exact absurd rfl hne
  | cons c cs ih =>
    obtain ⟨hc, hcs⟩ := List.forall_mem_cons.mp hcs
    rw [List.cons_append, splitFrom_plain rfl rfl hc]
    by_cases hnil : cs = []
    · subst hnil
      rfl
    · refine (ih hcs hnil (some (.char c :: word.getD []))).trans ?_
      simp

theorem splitFrom_space (acc : List Atom) :
    splitFrom text (outside (some acc)) (' ' :: rest) =
      (splitFrom text (outside none) rest).map (acc.reverse :: ·) :=
  splitFrom_blank rfl rfl

theorem splitFrom_leadingSpace :
    splitFrom text (outside none) (' ' :: rest) = splitFrom text (outside none) rest := by
  rw [splitFrom_blank rfl rfl]
  show (splitFrom text (outside none) rest).map ([] ++ ·) = _
  cases splitFrom text (outside none) rest <;> rfl

theorem splitFrom_last (acc : List Atom) :
    splitFrom text (outside (some acc)) [] = .ok [acc.reverse] := by
  rw [splitFrom.eq_def]
  rfl

end Words

/-! ## Directives are read back -/

theorem Plain.equals : Plain '=' := ⟨by decide, by decide, by decide, by decide, by decide⟩

theorem plain_spelling (c : Comparison) : ∀ d ∈ c.spelling, Plain d := by
  have hbang : Plain '!' := ⟨by decide, by decide, by decide, by decide, by decide⟩
  cases c with
  | equal => exact List.forall_mem_cons.mpr ⟨.equals, List.forall_mem_singleton.mpr .equals⟩
  | different => exact List.forall_mem_cons.mpr ⟨hbang, List.forall_mem_singleton.mpr .equals⟩

section Conditions

variable {c : Condition}

theorem Word.Printable.bang {w : Word} (h : w.Printable) : Word.Printable (.char '!' :: w) := by
  refine ⟨fun r hr => h.references r ?_, fun hw => ?_⟩
  · exact (List.mem_cons.mp hr).resolve_left fun he => nomatch he
  · exact (List.mem_cons.mp hw).elim (fun he => by simp at he) h.text

theorem splitWords_condition (hc : ∀ w ∈ c.operands, w.Printable) :
    splitWords (' ' :: c.print) = .ok c.words := by
  have hword {text : List Char} {w : Word} (hw : w.Printable) :
      splitFrom text (outside none) (Word.print w) = .ok [w] := by
    have h : splitFrom text (outside none) (Word.print w ++ []) = _ := splitFrom_print hw none
    rw [List.append_nil] at h
    rw [h, splitFrom_last]
    simp
  rw [splitWords]
  refine splitFrom_leadingSpace.trans ?_
  cases c with
  | flag negated w =>
    have hw := hc w List.mem_cons_self
    cases negated with
    | false => exact hword hw
    | true => exact hword hw.bang
  | compare left c right =>
    have hleft := hc left List.mem_cons_self
    have hright := hc right (List.mem_cons_of_mem _ List.mem_cons_self)
    have hne : c.spelling ≠ [] := by cases c <;> exact List.cons_ne_nil _ _
    rw [Condition.print, splitFrom_print hleft, splitFrom_space,
      splitFrom_plains (plain_spelling c) hne, splitFrom_space, hword hright]
    simp [Condition.words, Except.map]

theorem ofWords_words (hc : ∀ w, c ≠ .flag false (.char '!' :: w)) :
    Condition.ofWords c.words = .ok c := by
  cases c with
  | flag negated w =>
    cases negated with
    | true => rfl
    | false =>
      rcases w with _ | ⟨⟨c⟩ | r, w⟩
      · rfl
      · have hne : c ≠ '!' := fun he => hc w (he ▸ rfl)
        simp only [Condition.words]
        unfold Condition.ofWords
        split <;> simp_all
      · rfl
  | compare left c right =>
    have hop : (Word.literal? (c.spelling.map .char)).bind Comparison.ofText? = some c := by
      cases c <;> decide
    simp only [Condition.words]
    unfold Condition.ofWords
    simp only [hop]

end Conditions

/-- The words of a loop's directive that give its arguments. -/
def argumentWord (key : List Char) (w : Word) : Word := key.map .char ++ .char '=' :: w

/-- The arguments of a loop, as they are written. -/
def LoopHead.arguments (head : LoopHead) : List (List Char × Word) :=
  (head.first.map fun w => ("from".toList, w)).toList ++ [(head.bound.key, head.bound.word)]

section Loops

variable {head : LoopHead}

theorem plain_of_isAlphanum {c : Char} (h : c.isAlphanum = true) : Plain c := by
  have hne (d : Char) (hd : d.isAlphanum = false) : c ≠ d := by
    rintro rfl
    rw [h] at hd
    cases hd
  exact ⟨hne _ (by decide), hne _ (by decide), hne _ (by decide), hne _ (by decide),
    Text.isBlank_of_isAlphanum h⟩

/-- The characters of names. -/
theorem mem_identifier {cs : List Char} (h : isIdentifier cs = true) :
    ∀ c ∈ cs, c.isAlphanum = true ∨ c = '_' ∨ c = '-' ∨ c = '.' := by
  cases cs with
  | nil => cases h
  | cons c cs =>
    simp only [isIdentifier, Bool.and_eq_true, Bool.or_eq_true, List.all_eq_true,
      beq_iff_eq] at h
    obtain ⟨hc, hcs⟩ := h
    refine List.forall_mem_cons.mpr ⟨?_, fun d hd => ?_⟩
    · rcases hc with hc | hc
      · exact .inl (by simp [Char.isAlphanum, hc])
      · exact .inr (.inl hc)
    · rcases hcs d hd with ((hd | hd) | hd) | hd
      · exact .inl hd
      · exact .inr (.inl hd)
      · exact .inr (.inr (.inl hd))
      · exact .inr (.inr (.inr hd))

theorem plain_of_isIdentifier {cs : List Char} (h : isIdentifier cs = true) :
    (∀ c ∈ cs, Plain c) ∧ cs ≠ [] := by
  refine ⟨fun c hc => ?_, fun hnil => ?_⟩
  · rcases mem_identifier h c hc with hc | rfl | rfl | rfl
    · exact plain_of_isAlphanum hc
    all_goals exact ⟨by decide, by decide, by decide, by decide, by decide⟩
  · subst hnil
    cases h

theorem splitKey?_argumentWord {key : List Char} (hkey : '=' ∉ key) (w : Word) :
    Word.splitKey? (argumentWord key w) = some (key, w) := by
  induction key with
  | nil => rfl
  | cons c key ih =>
    simp only [List.mem_cons, not_or] at hkey
    have h : Word.splitKey? (argumentWord (c :: key) w) =
        if c = '=' then some ([], argumentWord key w)
        else (Word.splitKey? (argumentWord key w)).map fun p => (c :: p.1, p.2) := rfl
    rw [h, if_neg (Ne.symm hkey.1), ih hkey.2]
    rfl

theorem plain_append_equals {key : List Char} (hkey : ∀ c ∈ key, Plain c) :
    ∀ c ∈ key ++ ['='], Plain c :=
  List.forall_mem_append.mpr ⟨hkey, List.forall_mem_singleton.mpr .equals⟩

theorem splitFrom_argument {text rest key : List Char} (hkey : ∀ c ∈ key, Plain c) {w : Word}
    (hw : w.Printable) :
    splitFrom text (outside none) (printArgument key w ++ rest) =
      splitFrom text (outside (some (argumentWord key w).reverse)) rest := by
  have hsplit : printArgument key w ++ rest = (key ++ ['=']) ++ (Word.print w ++ rest) := by
    simp [printArgument]
  rw [hsplit, splitFrom_plains (plain_append_equals hkey) (by simp), splitFrom_print hw]
  simp [argumentWord]

theorem plain_key (b : Bound) : ∀ c ∈ b.key, Plain c := by
  cases b with
  | last w => exact show ∀ c ∈ "to".toList, Plain c from (plain_of_isIdentifier (by decide)).1
  | count w => exact show ∀ c ∈ "count".toList, Plain c from (plain_of_isIdentifier (by decide)).1

theorem plain_from : ∀ c ∈ "from".toList, Plain c := (plain_of_isIdentifier (by decide)).1

theorem splitWords_loop (hvar : isIdentifier head.var.toList) (hwords : ∀ w ∈ head.words, w.Printable) :
    splitWords (' ' :: head.print) = .ok (head.var.toList.map .char ::
      head.arguments.map fun a => argumentWord a.1 a.2) := by
  obtain ⟨var, first, bound⟩ := head
  obtain ⟨hplain, hne⟩ := plain_of_isIdentifier hvar
  have hbound : bound.word.Printable :=
    hwords _ (List.mem_append_right _ (List.mem_singleton.mpr rfl))
  have hlast {text : List Char} : splitFrom text (outside none)
      (printArgument bound.key bound.word) = .ok [argumentWord bound.key bound.word] := by
    have h : splitFrom text (outside none) (printArgument bound.key bound.word ++ []) = _ :=
      splitFrom_argument (plain_key bound) hbound
    rw [List.append_nil] at h
    rw [h, splitFrom_last, List.reverse_reverse]
  rw [splitWords]
  refine splitFrom_leadingSpace.trans ?_
  rw [LoopHead.print, splitFrom_plains hplain hne, splitFrom_space]
  cases first with
  | none =>
    simp only [Option.map_none, Option.getD_none, List.nil_append]
    rw [splitFrom_leadingSpace, hlast]
    simp [LoopHead.arguments, Except.map]
  | some w =>
    have hfirst : w.Printable := hwords w (List.mem_append_left _ (List.mem_singleton.mpr rfl))
    simp only [Option.map_some, Option.getD_some]
    rw [splitFrom_argument plain_from hfirst, splitFrom_space, hlast]
    simp [LoopHead.arguments, Except.map]

theorem equals_not_mem_key (head : LoopHead) : ∀ a ∈ head.arguments, '=' ∉ a.1 := by
  have hfrom : '=' ∉ "from".toList := by decide
  have hbound : '=' ∉ head.bound.key := by
    cases head.bound with
    | last w => exact show '=' ∉ "to".toList by decide
    | count w => exact show '=' ∉ "count".toList by decide
  intro a ha
  rcases List.mem_append.mp ha with ha | ha
  · obtain ⟨w, -, rfl⟩ := Option.map_eq_some_iff.mp (Option.mem_toList.mp ha)
    exact hfrom
  · exact List.mem_singleton.mp ha ▸ hbound

theorem parseArguments_words (directive : List Char) {arguments : List (List Char × Word)}
    (hkeys : ∀ a ∈ arguments, '=' ∉ a.1) :
    parseArguments directive (arguments.map fun a => argumentWord a.1 a.2) =
      .ok (arguments.map fun a => (String.ofList a.1, a.2)) := by
  induction arguments with
  | nil => rfl
  | cons a as ih =>
    obtain ⟨ha, has⟩ := List.forall_mem_cons.mp hkeys
    simp only [List.map_cons, parseArguments, splitKey?_argumentWord ha, ih has]
    rfl

/-- The arguments of a loop's head, as they are collected. -/
def LoopHead.collected (head : LoopHead) : List (String × Word) :=
  head.arguments.map fun a => (String.ofList a.1, a.2)

theorem ofArguments_collected (h : ∀ w ∈ head.words, w.dependsOn head.var = false) :
    LoopHead.ofArguments head.var head.collected = .ok head := by
  obtain ⟨var, first, bound⟩ := head
  have hbound : bound.word.dependsOn var = false :=
    h _ (List.mem_append_right _ (List.mem_singleton.mpr rfl))
  have hfirst (w : Word) (hw : first = some w) : w.dependsOn var = false :=
    h w (List.mem_append_left _ (Option.mem_toList.mpr hw))
  cases first with
  | none =>
    cases bound <;> simp_all [LoopHead.ofArguments, LoopHead.collected, LoopHead.arguments,
      Bound.key, Bound.word, collectArguments, bind, Except.bind, pure, Except.pure]
  | some w =>
    have hw := hfirst w rfl
    cases bound <;> simp_all [LoopHead.ofArguments, LoopHead.collected, LoopHead.arguments,
      Bound.key, Bound.word, collectArguments, bind, Except.bind, pure, Except.pure]

end Loops

theorem closer?_eq_none {body : List Char} (h : ' ' ∈ body) : closer? body = none := by
  have hne (keyword : List Char) (hk : ' ' ∉ keyword) : body ≠ keyword := fun he => hk (he ▸ h)
  rw [closer?, if_neg (hne _ (by decide)), if_neg (hne _ (by decide)), if_neg (hne _ (by decide))]

/-- The keywords that open a block, with what reads the words after them. -/
inductive Opens : List Char → (List Char → List Word → Except Fault Token) → Prop
  | condition : Opens "if ".toList fun _ words => .ok (.openBranch words)
  | loop : Opens "for ".toList parseLoop

section Keywords

variable {keyword : List Char} {read : List Char → List Word → Except Fault Token}

theorem Opens.space (h : Opens keyword read) : ' ' ∈ keyword := by
  cases h <;> decide

theorem Opens.parseDirective (h : Opens keyword read) (cs : List Char) :
    parseDirective (keyword ++ cs) = (do
      let words ← splitWords (' ' :: cs)
      read (keyword ++ cs) words) := by
  rw [Template.parseDirective, closer?_eq_none (List.mem_append_left _ h.space)]
  cases h <;> rfl

end Keywords

theorem parseDirective_condition {c : Condition} (hc : ∀ w ∈ c.operands, w.Printable) :
    parseDirective ("if ".toList ++ c.print) = .ok (.openBranch c.words) := by
  rw [Opens.condition.parseDirective, splitWords_condition hc]
  rfl

theorem literal?_map_char (cs : List Char) : Word.literal? (cs.map .char) = some cs := by
  induction cs with
  | nil => rfl
  | cons c cs ih => simp only [List.map_cons, Word.literal?, ih, Option.map_some]

theorem parseDirective_loop {head : LoopHead} (hvar : isIdentifier head.var.toList)
    (hwords : ∀ w ∈ head.words, w.Printable) :
    parseDirective ("for ".toList ++ head.print) = .ok (.openLoop head.var head.collected) := by
  rw [Opens.loop.parseDirective, splitWords_loop hvar hwords]
  simp only [bind, Except.bind, pure, Except.pure, parseLoop, literal?_map_char, hvar, if_true,
    parseArguments_words _ (equals_not_mem_key head), String.ofList_toList, LoopHead.collected]

end MediaPipeline.Template
