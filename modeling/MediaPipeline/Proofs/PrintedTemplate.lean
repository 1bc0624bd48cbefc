import MediaPipeline.Proofs.TemplatePrinter

/-!
# Printed templates

What the scanner and the parser make of a printed tree. Directives are scanned to their
end since every percent sign in them begins a reference (`Passable`); the tokens of the
print are those of the tree (`scan_print`), and they are parsed to the tree
(`parseFrom_tokensThen`). `parse_print` puts them together: a tree without percent signs in
its directives is read as it was printed.
-/

namespace MediaPipeline.Template

/-! ## Tokens -/

/-- A text that the scanner passes over inside a directive. -/
inductive Passable : List Char → Prop
  | nil : Passable []
  | char {c : Char} {cs : List Char} (hc : c ≠ '%') (h : Passable cs) : Passable (c :: cs)
  | reference {r : Reference} {cs : List Char} (hr : closeBrace ∉ r.body) (h : Passable cs) :
    Passable (r.spelling ++ cs)

theorem Passable.append {cs ds : List Char} (hcs : Passable cs) (hds : Passable ds) :
    Passable (cs ++ ds) := by
  induction hcs with
  | nil => exact hds
  | char hc _ ih => exact .char hc ih
  | reference hr _ ih =>
    rw [List.append_assoc]
    exact .reference hr ih

theorem Passable.of_not_mem {cs : List Char} (h : '%' ∉ cs) : Passable cs := by
  induction cs with
  | nil => exact .nil
  | cons c cs ih =>
    simp only [List.mem_cons, not_or] at h
    exact .char (Ne.symm h.1) (ih h.2)

theorem Word.Printable.passable_atoms {w : Word} (hw : w.Printable) :
    Passable (w.flatMap Atom.print) := by
  induction w with
  | nil => exact .nil
  | cons a w ih =>
    rw [List.flatMap_cons]
    refine Passable.append ?_ (ih hw.tail)
    cases a with
    | char c =>
      have hc : c ≠ '%' := fun he => hw.text (he ▸ List.mem_cons_self)
      by_cases hescaped : c = '"' ∨ c = '\\'
      · rw [Atom.print, if_pos hescaped]
        exact .char (by decide) (.char hc .nil)
      · rw [Atom.print, if_neg hescaped]
        exact .char hc .nil
    | reference r =>
      have h := Passable.reference (hw.references r List.mem_cons_self).2 .nil
      rwa [List.append_nil] at h

theorem Word.Printable.passable {w : Word} (hw : w.Printable) : Passable (Word.print w) :=
  .char (by decide) (hw.passable_atoms.append (.char (by decide) .nil))

theorem passable_condition {c : Condition} (hc : ∀ w ∈ c.operands, w.Printable) :
    Passable c.print := by
  cases c with
  | flag negated w =>
    have hw := hc w List.mem_cons_self
    cases negated with
    | false => exact hw.passable
    | true => exact hw.bang.passable
  | compare left c right =>
    have hleft := hc left List.mem_cons_self
    have hright := hc right (List.mem_cons_of_mem _ List.mem_cons_self)
    have hspelling : '%' ∉ c.spelling := fun h => (plain_spelling c _ h).percent rfl
    exact hleft.passable.append (.char (by decide)
      ((Passable.of_not_mem hspelling).append (.char (by decide) hright.passable)))

theorem passable_argument {key : List Char} (hkey : ∀ c ∈ key, Plain c) {w : Word}
    (hw : w.Printable) : Passable (printArgument key w) :=
  (Passable.of_not_mem fun h => (hkey _ h).percent rfl).append (.char (by decide) hw.passable)

theorem passable_loop {head : LoopHead} (hvar : isIdentifier head.var.toList)
    (hwords : ∀ w ∈ head.words, w.Printable) : Passable head.print := by
  obtain ⟨var, first, bound⟩ := head
  have hplain : '%' ∉ var.toList := fun h => ((plain_of_isIdentifier hvar).1 _ h).percent rfl
  have hbound := passable_argument (plain_key bound)
    (hwords _ (List.mem_append_right _ (List.mem_singleton.mpr rfl)))
  refine (Passable.of_not_mem hplain).append (.char (by decide) (Passable.append ?_
    (.char (by decide) hbound)))
  cases first with
  | none => exact .nil
  | some w =>
    exact passable_argument plain_from (hwords w (List.mem_append_left _ (List.mem_singleton.mpr rfl)))

section Scan

variable {rest : List Char}

theorem scan_argument {body cs : List Char} (hcs : closeBrace ∉ cs) :
    scan (.argument body) (cs ++ closeBrace :: rest) =
      scan (.directive (closeBrace :: (cs.reverse ++ body))) rest := by
  induction cs generalizing body with
  | nil => simp only [List.nil_append, scan, if_true, List.reverse_nil]
  | cons c cs ih =>
    simp only [List.mem_cons, not_or] at hcs
    rw [List.cons_append, scan, if_neg (Ne.symm hcs.1), ih hcs.2]
    simp

theorem scan_pass {body cs : List Char} (hcs : Passable cs) (hbody : ' ' ∈ body) :
    scan (.directive body) (cs ++ rest) = scan (.directive (cs.reverse ++ body)) rest := by
  induction hcs generalizing body with
  | nil => rfl
  | @char c cs hc _ ih =>
    rw [List.cons_append, scan, if_neg hc, ih (List.mem_cons_of_mem _ hbody)]
    simp
  | @reference r cs hr _ ih =>
    have hnone : closer? body.reverse = none := closer?_eq_none (List.mem_reverse.mpr hbody)
    have hopen : closeBrace ∉ openBrace :: r.body := by
      simp only [List.mem_cons, not_or]
      exact ⟨by decide, hr⟩
    have hspelling : r.spelling ++ cs ++ rest =
        '%' :: (openBrace :: r.body ++ closeBrace :: (cs ++ rest)) := by
      simp [Reference.spelling, spellingOf]
    rw [hspelling, scan, if_pos rfl, if_pos ⟨rfl, hnone⟩, scan_argument hopen, ih (by simp [hbody])]
    simp [Reference.spelling, spellingOf]

theorem scan_directive {body cs : List Char} (hcs : Passable cs) (hbody : ' ' ∈ body)
    (hrest : rest.head? ≠ some openBrace) :
    scan (.directive body) (cs ++ '%' :: rest) = (do
      let token ← parseDirective (body.reverse ++ cs)
      let tokens ← scan .text rest
      pure (token :: tokens)) := by
  rw [scan_pass hcs hbody, scan, if_pos rfl, if_neg fun h => hrest h.1, List.reverse_append,
    List.reverse_reverse]

/-- A percent sign before a keyword starts a directive. -/
theorem scan_keyword {keyword : List Char} (hpercent : '%' ∉ keyword)
    (hbrace : keyword.head? ≠ some openBrace) (hne : keyword ≠ [])
    (hstarts : startsDirective (keyword ++ rest) = true) :
    scan .text ('%' :: (keyword ++ rest)) = scan (.directive keyword.reverse) rest := by
  have hchars {body cs : List Char} (hcs : '%' ∉ cs) :
      scan (.directive body) (cs ++ rest) = scan (.directive (cs.reverse ++ body)) rest := by
    induction cs generalizing body with
    | nil => rfl
    | cons c cs ih =>
      simp only [List.mem_cons, not_or] at hcs
      rw [List.cons_append, scan, if_neg (Ne.symm hcs.1), ih hcs.2]
      simp
  cases keyword with
  | nil => exact absurd rfl hne
  | cons d ds =>
    have hd : d ≠ '%' := fun he => hpercent (he ▸ List.mem_cons_self)
    have hopen : d ≠ openBrace := fun he => hbrace (congrArg some he)
    have hread : scan (.directive []) (d :: ds ++ rest) = _ := hchars hpercent
    rw [List.append_nil] at hread
    rw [← hread, List.cons_append, scan, if_pos rfl]
    simp only [hd, hopen, if_false]
    exact if_pos hstarts

theorem Opens.scan {keyword : List Char} {read : List Char → List Word → Except Fault Token}
    (h : Opens keyword read) :
    scan .text ('%' :: (keyword ++ rest)) = scan (.directive keyword.reverse) rest := by
  cases h with
  | condition =>
    exact scan_keyword (by decide) (by decide) (by decide) (by simp [startsDirective, Text.isBlank])
  | loop =>
    exact scan_keyword (by decide) (by decide) (by decide) (by simp [startsDirective, Text.isBlank])

/-- A directive that opens a block is read as it stands. -/
theorem scan_opening {keyword cs : List Char}
    {read : List Char → List Word → Except Fault Token} {token : Token}
    (hkeyword : Opens keyword read) (hcs : Passable cs)
    (htoken : parseDirective (keyword ++ cs) = .ok token) (hrest : rest.head? ≠ some openBrace) :
    scan .text ('%' :: (keyword ++ cs ++ '%' :: rest)) =
      (scan .text rest).map (token :: ·) := by
  have hspace : ' ' ∈ keyword.reverse := List.mem_reverse.mpr hkeyword.space
  rw [List.append_assoc, hkeyword.scan, scan_directive hcs hspace hrest, List.reverse_reverse, htoken]
  cases Template.scan .text rest <;> rfl

theorem scan_closer (closer : Closer) :
    scan .text (closer.spelling.toList ++ rest) = (scan .text rest).map (.close closer :: ·) := by
  have hclose (keyword : List Char) (hpercent : '%' ∉ keyword)
      (hbrace : keyword.head? ≠ some openBrace) (hne : keyword ≠ [])
      (hstarts : startsDirective (keyword ++ '%' :: rest) = true)
      (hcloser : closer? keyword = some closer) :
      scan .text ('%' :: (keyword ++ '%' :: rest)) = (scan .text rest).map (.close closer :: ·) := by
    have hparse : parseDirective keyword = .ok (.close closer) := by
      simp only [parseDirective, hcloser]
    rw [scan_keyword hpercent hbrace hne hstarts, scan, if_pos rfl, List.reverse_reverse, hcloser,
      if_neg (fun h => nomatch h.2), hparse]
    cases scan .text rest <;> rfl
  cases closer with
  | endFor =>
    exact hclose "endfor".toList (by decide) (by decide) (by decide)
      (by simp [startsDirective]) (by decide)
  | otherwise =>
    exact hclose "else".toList (by decide) (by decide) (by decide)
      (by simp [startsDirective]) (by decide)
  | endIf =>
    exact hclose "endif".toList (by decide) (by decide) (by decide)
      (by simp [startsDirective]) (by decide)

theorem scan_spellingOf {body : List Char} (hclosed : closeBrace ∉ body) :
    scan .text (spellingOf body ++ rest) = (do
      let r ← Reference.parse body
      let tokens ← scan .text rest
      pure (.reference r :: tokens)) := by
  have hbody {acc cs : List Char} (hcs : closeBrace ∉ cs) :
      scan (.reference acc) (cs ++ closeBrace :: rest) = (do
        let r ← Reference.parse (acc.reverse ++ cs)
        let tokens ← scan .text rest
        pure (.reference r :: tokens)) := by
    induction cs generalizing acc with
    | nil => rw [List.nil_append, List.append_nil, scan, if_pos rfl]
    | cons c cs ih =>
      simp only [List.mem_cons, not_or] at hcs
      rw [List.cons_append, scan, if_neg (Ne.symm hcs.1), ih hcs.2]
      simp
  have hspelling : spellingOf body ++ rest = '%' :: openBrace :: (body ++ closeBrace :: rest) := by
    simp [spellingOf]
  have hopen : openBrace ≠ '%' := by decide
  rw [hspelling, scan, if_pos rfl]
  simp only [hopen, if_false, if_true]
  exact hbody hclosed

theorem scan_spelling {r : Reference} (hr : Reference.parse r.body = .ok r)
    (hclosed : closeBrace ∉ r.body) :
    scan .text (r.spelling ++ rest) = (scan .text rest).map (.reference r :: ·) := by
  rw [Reference.spelling, scan_spellingOf hclosed, hr]
  cases scan .text rest <;> rfl

/-- Literal text joins the tokens after it. -/
def prependText (cs : List Char) (ts : List Token) : List Token := cs.foldr consText ts

theorem scan_printText (cs : List Char) :
    scan .text (printText cs ++ rest) = (scan .text rest).map (prependText cs) := by
  induction cs with
  | nil =>
    show scan .text rest = _
    cases scan .text rest <;> rfl
  | cons c cs ih =>
    have hstep : scan .text (printText (c :: cs) ++ rest) =
        (scan .text (printText cs ++ rest)).map (consText c) := by
      have hprint : printText (c :: cs) = (if c = '%' then ['%', '%'] else [c]) ++ printText cs := rfl
      rw [hprint, List.append_assoc]
      by_cases hc : c = '%'
      · subst hc
        rw [if_pos rfl, List.cons_append, List.cons_append, scan, if_pos rfl]
        simp only [if_true, List.nil_append]
      · rw [if_neg hc, List.cons_append, List.nil_append, scan.eq_def]
        exact if_neg hc
    rw [hstep, ih]
    cases scan .text rest <;> rfl

end Scan

/-! ## Trees -/

/-- The tokens of a block, in front of others. -/
def Block.tokensThen : Block → List Token → List Token
  | .done, ts => ts
  | .text cs rest, ts => prependText cs (rest.tokensThen ts)
  | .reference r rest, ts => .reference r :: rest.tokensThen ts
  | .loop head body rest, ts =>
    .openLoop head.var head.collected ::
      body.tokensThen (.close .endFor :: rest.tokensThen ts)
  | .branch condition yes no rest, ts =>
    let tail := .close .endIf :: rest.tokensThen ts
    .openBranch condition.words ::
      yes.tokensThen (if no = .done then tail else .close .otherwise :: no.tokensThen tail)

section Blocks

variable {source : List Char}

/-- What is printed begins with a brace only if the text does. -/
theorem head?_printText {cs rest : List Char} (hcs : cs.head? ≠ some openBrace)
    (hrest : cs = [] → rest.head? ≠ some openBrace) :
    (printText cs ++ rest).head? ≠ some openBrace := by
  cases cs with
  | nil => exact hrest rfl
  | cons c cs =>
    by_cases hc : c = '%'
    · subst hc
      exact show some '%' ≠ some openBrace by decide
    · have hprint : printText (c :: cs) = c :: printText cs := by simp [printText, hc]
      rw [hprint]
      exact hcs

theorem head?_print {b : Block} {rest : List Char} (hb : b.ReadFrom source)
    (hlead : b.leadingText.head? ≠ some openBrace) (hrest : rest.head? ≠ some openBrace) :
    (b.print ++ rest).head? ≠ some openBrace := by
  have hpercent : some '%' ≠ some openBrace := by decide
  cases b with
  | done => exact hrest
  | text cs b =>
    rw [Block.print, List.append_assoc]
    exact head?_printText hlead fun hnil => absurd hnil hb.1
  | reference r b => exact hpercent
  | loop head body b => exact hpercent
  | branch condition yes no b => exact hpercent

/-- No word of a directive has a percent sign in its text. -/
def Block.PercentFree (b : Block) : Prop := ∀ w ∈ b.directiveWords, Atom.char '%' ∉ w

theorem Block.percentFree_loop {head : LoopHead} {body rest : Block} :
    (Block.loop head body rest).PercentFree ↔
      (∀ w ∈ head.words, Atom.char '%' ∉ w) ∧ body.PercentFree ∧ rest.PercentFree := by
  simp only [PercentFree, directiveWords, List.forall_mem_append, and_assoc]

theorem Block.percentFree_branch {condition : Condition} {yes no rest : Block} :
    (Block.branch condition yes no rest).PercentFree ↔
      (∀ w ∈ condition.operands, Atom.char '%' ∉ w) ∧ yes.PercentFree ∧ no.PercentFree ∧
        rest.PercentFree := by
  simp only [PercentFree, directiveWords, List.forall_mem_append, and_assoc]

theorem Block.print_loop_append (head : LoopHead) (body b : Block) (rest : List Char) :
    (loop head body b).print ++ rest = '%' :: ("for ".toList ++ head.print ++
      '%' :: (body.print ++ (Closer.endFor.spelling.toList ++ (b.print ++ rest)))) := by
  simp only [print, List.cons_append, List.append_assoc]

theorem Block.print_branch_done_append (condition : Condition) (yes b : Block) (rest : List Char) :
    (branch condition yes done b).print ++ rest = '%' :: ("if ".toList ++ condition.print ++
      '%' :: (yes.print ++ (Closer.endIf.spelling.toList ++ (b.print ++ rest)))) := by
  simp only [print, if_true, List.nil_append, List.cons_append, List.append_assoc]

theorem Block.print_branch_append (condition : Condition) (yes b : Block) (rest : List Char)
    {no : Block} (hno : no ≠ done) :
    (branch condition yes no b).print ++ rest = '%' :: ("if ".toList ++ condition.print ++
      '%' :: (yes.print ++ (Closer.otherwise.spelling.toList ++
        (no.print ++ (Closer.endIf.spelling.toList ++ (b.print ++ rest)))))) := by
  simp only [print, if_neg hno, List.cons_append, List.append_assoc]

theorem head?_closer (closer : Closer) (rest : List Char) :
    (closer.spelling.toList ++ rest).head? ≠ some openBrace := by
  have hpercent : some '%' ≠ some openBrace := by decide
  cases closer <;> exact hpercent

/-- A condition is read as it was printed. -/
theorem scan_condition {c : Condition} {rest : List Char} (hc : c.ReadFrom source)
    (hfree : ∀ w ∈ c.operands, Atom.char '%' ∉ w) (hrest : rest.head? ≠ some openBrace) :
    scan .text ('%' :: ("if ".toList ++ c.print ++ '%' :: rest)) =
      (scan .text rest).map (.openBranch c.words :: ·) := by
  have hwords : ∀ w ∈ c.operands, w.Printable :=
    fun w hw => (hc.operands w hw).printable (hfree w hw)
  exact scan_opening .condition (passable_condition hwords) (parseDirective_condition hwords) hrest

/-- The head of a loop is read as it was printed. -/
theorem scan_loop {head : LoopHead} {rest : List Char} (hhead : head.ReadFrom source)
    (hfree : ∀ w ∈ head.words, Atom.char '%' ∉ w) (hrest : rest.head? ≠ some openBrace) :
    scan .text ('%' :: ("for ".toList ++ head.print ++ '%' :: rest)) =
      (scan .text rest).map (.openLoop head.var head.collected :: ·) := by
  have hwords : ∀ w ∈ head.words, w.Printable :=
    fun w hw => (hhead.words w hw).printable (hfree w hw)
  exact scan_opening .loop (passable_loop hhead.var hwords) (parseDirective_loop hhead.var hwords)
    hrest

theorem scan_print {b : Block} (hb : b.ReadFrom source) (hfree : b.PercentFree)
    (rest : List Char) :
    scan .text (b.print ++ rest) = (scan .text rest).map b.tokensThen := by
  induction b generalizing rest with
  | done =>
    show scan .text rest = _
    cases scan .text rest <;> rfl
  | text cs b ih =>
    rw [Block.print, List.append_assoc, scan_printText, ih hb.2.2 hfree, except_map_map]
    rfl
  | reference r b ih =>
    rw [Block.print, List.append_assoc, scan_spelling hb.1.parsed hb.1.closed, ih hb.2 hfree,
      except_map_map]
    rfl
  | loop head body b ihbody ih =>
    obtain ⟨hhead, hlead, hbody, hb⟩ := hb
    obtain ⟨hheadFree, hbodyFree, hbFree⟩ := Block.percentFree_loop.mp hfree
    rw [Block.print_loop_append,
      scan_loop hhead hheadFree (head?_print hbody hlead (head?_closer .endFor _)),
      ihbody hbody hbodyFree, scan_closer, ih hb hbFree, except_map_map, except_map_map,
      except_map_map]
    rfl
  | branch condition yes no b ihyes ihno ih =>
    obtain ⟨hcondition, hlead, hyes, hno, hb⟩ := hb
    obtain ⟨hconditionFree, hyesFree, hnoFree, hbFree⟩ := Block.percentFree_branch.mp hfree
    by_cases hdone : no = .done
    · subst hdone
      rw [Block.print_branch_done_append,
        scan_condition hcondition hconditionFree (head?_print hyes hlead (head?_closer .endIf _)),
        ihyes hyes hyesFree, scan_closer, ih hb hbFree, except_map_map, except_map_map,
        except_map_map]
      rfl
    · rw [Block.print_branch_append _ _ _ _ hdone,
        scan_condition hcondition hconditionFree
          (head?_print hyes hlead (head?_closer .otherwise _)),
        ihyes hyes hyesFree, scan_closer, ihno hno hnoFree, scan_closer, ih hb hbFree,
        except_map_map, except_map_map, except_map_map, except_map_map, except_map_map]
      congr 1
      funext ts
      simp only [Block.tokensThen, if_neg hdone, Function.comp_apply]

/-! ### Parsing -/

/-- A list of tokens does not begin with text. -/
def NoText (ts : List Token) : Prop := ∀ cs us, ts ≠ .text cs :: us

theorem prependText_eq {cs : List Char} {ts : List Token} (hne : cs ≠ []) (hts : NoText ts) :
    prependText cs ts = .text cs :: ts := by
  induction cs with
  | nil => exact absurd rfl hne
  | cons c cs ih =>
    by_cases hnil : cs = []
    · subst hnil
      rcases ts with _ | ⟨⟨⟩, ts⟩
      · rfl
      · exact absurd rfl (hts _ _)
      all_goals rfl
    · show consText c (prependText cs ts) = _
      rw [ih hnil]
      rfl

theorem noText_tokensThen {b : Block} {ts : List Token} (hb : b.ReadFrom source)
    (hlead : b.leadingText = []) (hts : b = .done → NoText ts) : NoText (b.tokensThen ts) := by
  cases b with
  | done => exact hts rfl
  | text cs b => exact absurd hlead hb.1
  | reference r b => exact fun cs us he => nomatch he
  | loop head body b => exact fun cs us he => nomatch he
  | branch condition yes no b => exact fun cs us he => nomatch he

theorem parseFrom_tokensThen {b : Block} (hb : b.ReadFrom source) (body : Block)
    (frames : List Frame) {ts : List Token} (hts : b.EndsText → NoText ts) :
    parseFrom body frames (b.tokensThen ts) = parseFrom (body ++ b) frames ts := by
  have hclose (closer : Closer) (us : List Token) : NoText (.close closer :: us) :=
    fun cs us he => nomatch he
  induction b generalizing body frames ts with
  | done =>
    rw [Block.append_done]
    rfl
  | text cs b ih =>
    obtain ⟨hne, hlead, hb⟩ := hb
    have hrest := noText_tokensThen hb hlead fun hdone => hts (.inl hdone)
    rw [Block.tokensThen, prependText_eq hne hrest]
    refine (ih hb _ frames fun he => hts (.inr he)).trans ?_
    rw [Block.append_assoc]
    rfl
  | reference r b ih =>
    refine (ih hb.2 _ frames hts).trans ?_
    rw [Block.append_assoc]
    rfl
  | loop head loopBody b ihbody ih =>
    obtain ⟨hhead, -, hloopBody, hb⟩ := hb
    refine (ihbody hloopBody .done (.loop head.var head.collected body :: frames)
      fun _ => hclose _ _).trans ?_
    rw [Block.done_append, parseFrom, closeFrame, if_pos rfl, ofArguments_collected hhead.independent]
    refine (ih hb _ frames hts).trans ?_
    rw [Block.append_assoc]
    rfl
  | branch condition yes no b ihyes ihno ih =>
    obtain ⟨hcondition, -, hyes, hno, hb⟩ := hb
    rw [Block.tokensThen, parseFrom, ofWords_words hcondition.unmarked]
    by_cases hdone : no = .done
    · rw [if_pos hdone]
      refine (ihyes hyes .done (.branch condition body :: frames) fun _ => hclose _ _).trans ?_
      refine (ih hb _ frames hts).trans ?_
      rw [Block.append_assoc, hdone]
      rfl
    · rw [if_neg hdone]
      refine (ihyes hyes .done (.branch condition body :: frames) fun _ => hclose _ _).trans ?_
      refine (ihno hno .done (.otherwise condition yes body :: frames) fun _ => hclose _ _).trans ?_
      refine (ih hb _ frames hts).trans ?_
      rw [Block.append_assoc]
      rfl

/-- A block without percent signs in its directives is read as it was printed. -/
theorem parse_print {b : Block} (hb : b.ReadFrom source) (hfree : b.PercentFree) :
    (tokenize b.print >>= Block.parse) = .ok b := by
  have hscan := scan_print hb hfree []
  rw [List.append_nil] at hscan
  have hparse : Block.parse (b.tokensThen []) = .ok b :=
    parseFrom_tokensThen hb .done [] fun _ cs us he => nomatch he
  rw [tokenize, hscan]
  exact hparse

/-! ### Text and choices -/

/-- Text as a block. -/
def textBlock (cs : List Char) : Block := if cs = [] then .done else .text cs .done

theorem tokensThen_textBlock (cs : List Char) : (textBlock cs).tokensThen = prependText cs := by
  unfold textBlock
  split_ifs with hnil
  · subst hnil
    rfl
  · rfl

theorem readFrom_textBlock (source cs : List Char) : (textBlock cs).ReadFrom source := by
  unfold textBlock
  split_ifs with hnil
  · trivial
  · exact ⟨hnil, rfl, trivial⟩

/-- Text with its percent signs doubled is read as the text. -/
theorem tokenize_printText (cs : List Char) :
    (tokenize (printText cs) >>= Block.parse) = .ok (textBlock cs) := by
  have hscan : scan .text (printText cs ++ []) = _ := scan_printText cs
  rw [List.append_nil, ← tokensThen_textBlock] at hscan
  have hparse : Block.parse ((textBlock cs).tokensThen []) = .ok (textBlock cs) :=
    parseFrom_tokensThen (readFrom_textBlock [] cs) .done [] fun _ cs us he => nomatch he
  rw [tokenize, hscan]
  exact hparse

/-- A choice between two texts, from what stands between the percent signs after `if`. -/
def choiceText (condition : List Char) : List Char :=
  '%' :: ("if ".toList ++ condition ++ '%' :: "yes%else%no%endif%".toList)

/-- The choice as a block. -/
def choice (condition : Condition) : Block :=
  .branch condition (.text "yes".toList .done) (.text "no".toList .done) .done

/-- A choice is read with the condition that its words make. -/
theorem tokenize_choiceText {cs : List Char} {words : List Word} {condition : Condition}
    (hcs : Passable cs) (hwords : splitWords (' ' :: cs) = .ok words)
    (hcondition : Condition.ofWords words = .ok condition) :
    (tokenize (choiceText cs) >>= Block.parse) = .ok (choice condition) := by
  have hdirective : parseDirective ("if ".toList ++ cs) = .ok (.openBranch words) := by
    rw [Opens.condition.parseDirective, hwords]
    rfl
  have hrest : "yes%else%no%endif%".toList = printText "yes".toList ++
      (Closer.otherwise.spelling.toList ++ (printText "no".toList ++
        (Closer.endIf.spelling.toList ++ []))) := by decide
  have hparse : Block.parse [.openBranch words, .text "yes".toList, .close .otherwise,
      .text "no".toList, .close .endIf] = .ok (choice condition) := by
    rw [Block.parse, parseFrom, hcondition]
    rfl
  rw [tokenize, choiceText, scan_opening .condition hcs hdirective (by decide), hrest,
    scan_printText, scan_closer, scan_printText, scan_closer]
  exact hparse

end Blocks

end MediaPipeline.Template
