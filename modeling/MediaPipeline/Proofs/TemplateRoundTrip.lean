import Mathlib.Control.Monad.Basic
import MediaPipeline.Proofs.MisreadDirectives

/-!
# Round trips

Printing the tree of a template and parsing the print again yields the same tree exactly
if no word of a directive has a percent sign in its text (`roundTrips_iff`). What a print
is read as is compared by what opens its blocks, in the order of the text: up to the first
word with a percent sign this is as in the tree, and there it differs (`misread_print`).
-/

namespace MediaPipeline.Template

/-! ## What opens the blocks of a template -/

/-- What opens a block. -/
inductive Opener where
  | loop (head : LoopHead)
  | branch (condition : Condition)

/-- What opens the blocks of a tree, in the order of the text. -/
def Block.openers : Block → List Opener
  | .done => []
  | .text _ rest => rest.openers
  | .reference _ rest => rest.openers
  | .loop head body rest => .loop head :: (body.openers ++ rest.openers)
  | .branch condition yes no rest =>
    .branch condition :: (yes.openers ++ (no.openers ++ rest.openers))

/-- What a token opens a block with, as far as it can. -/
def Token.opener? : Token → Option (Except Fault Opener)
  | .openLoop var arguments => some ((LoopHead.ofArguments var arguments).map .loop)
  | .openBranch words => some ((Condition.ofWords words).map .branch)
  | _ => none

/-- What a list of tokens opens blocks with. -/
def openersOf (ts : List Token) : List (Except Fault Opener) := ts.filterMap Token.opener?

theorem openersOf_cons (token : Token) (ts : List Token) :
    openersOf (token :: ts) = token.opener?.toList ++ openersOf ts := by
  rw [openersOf, List.filterMap_cons]
  cases token.opener? <;> rfl

/-- What opens an open block, after what stands before it. -/
def Frame.openers : Frame → List (Except Fault Opener)
  | .loop var arguments before =>
    before.openers.map .ok ++ [(LoopHead.ofArguments var arguments).map .loop]
  | .branch condition before => before.openers.map .ok ++ [.ok (.branch condition)]
  | .otherwise condition yes before =>
    before.openers.map .ok ++ .ok (.branch condition) :: yes.openers.map .ok

/-- What opens the open blocks, the outermost first. -/
def openersIn (frames : List Frame) : List (Except Fault Opener) :=
  frames.reverse.flatMap Frame.openers

theorem openersIn_cons (frame : Frame) (frames : List Frame) :
    openersIn (frame :: frames) = openersIn frames ++ frame.openers := by
  simp [openersIn]

theorem Block.openers_append (a b : Block) : (a ++ b).openers = a.openers ++ b.openers := by
  induction a with
  | done => rfl
  | text cs rest ih => exact ih
  | reference r rest ih => exact ih
  | loop head body rest _ ih =>
    rw [append_loop, openers, openers, ih]
    simp
  | branch condition yes no rest _ _ ih =>
    rw [append_branch, openers, openers, ih]
    simp

theorem closeFrame_openers {closer : Closer} {body body' : Block} {frames frames' : List Frame}
    (h : closeFrame closer body frames = .ok (body', frames')) :
    openersIn frames' ++ body'.openers.map .ok = openersIn frames ++ body.openers.map .ok := by
  rcases frames with _ | ⟨frame, frames⟩
  · cases h
  cases frame with
  | loop var arguments before =>
    simp only [closeFrame] at h
    split_ifs at h
    obtain ⟨head, hhead, h⟩ := bind_eq_ok.mp h
    cases h
    rw [openersIn_cons, Frame.openers, hhead, Block.openers_append]
    simp [Block.openers, Except.map]
  | branch condition before =>
    cases closer with
    | endIf =>
      cases h
      rw [openersIn_cons, Frame.openers, Block.openers_append]
      simp [Block.openers]
    | otherwise =>
      cases h
      rw [openersIn_cons, openersIn_cons, Frame.openers, Frame.openers]
      simp [Block.openers]
    | endFor => cases h
  | otherwise condition yes before =>
    simp only [closeFrame] at h
    split_ifs at h
    cases h
    rw [openersIn_cons, Frame.openers, Block.openers_append]
    simp [Block.openers]

/-- A tree has the openers of the tokens it is parsed from. -/
theorem parseFrom_openers {body b : Block} {frames : List Frame} {tokens : List Token}
    (h : parseFrom body frames tokens = .ok b) :
    b.openers.map .ok = openersIn frames ++ body.openers.map .ok ++ openersOf tokens := by
  induction tokens generalizing body frames with
  | nil =>
    cases frames with
    | nil =>
      cases h
      simp [openersIn, openersOf]
    | cons frame frames => cases h
  | cons token tokens ih =>
    rw [openersOf_cons]
    cases token with
    | text cs =>
      rw [ih h, Block.openers_append]
      simp [Block.openers, Token.opener?]
    | reference r =>
      rw [ih h, Block.openers_append]
      simp [Block.openers, Token.opener?]
    | openLoop var arguments =>
      rw [ih h, openersIn_cons]
      simp [Block.openers, Token.opener?, Frame.openers]
    | openBranch words =>
      obtain ⟨condition, hcondition, h⟩ := bind_eq_ok.mp h
      rw [ih h, openersIn_cons]
      simp [Block.openers, Token.opener?, Frame.openers, hcondition, Except.map]
    | close closer =>
      obtain ⟨⟨body', frames'⟩, hclose, h⟩ := bind_eq_ok.mp h
      rw [ih h, closeFrame_openers hclose]
      simp [Token.opener?]

theorem openersOf_prependText (cs : List Char) (ts : List Token) :
    openersOf (prependText cs ts) = openersOf ts := by
  induction cs with
  | nil => rfl
  | cons c cs ih =>
    rw [← ih]
    show openersOf (consText c (prependText cs ts)) = _
    rcases prependText cs ts with _ | ⟨⟨⟩, us⟩ <;> rfl

theorem opener?_condition {source : List Char} {c : Condition} (hc : c.ReadFrom source) :
    (Token.openBranch c.words).opener? = some (.ok (.branch c)) := by
  rw [Token.opener?, ofWords_words hc.unmarked]
  rfl

theorem opener?_loop {source : List Char} {head : LoopHead} (hhead : head.ReadFrom source) :
    (Token.openLoop head.var head.collected).opener? = some (.ok (.loop head)) := by
  rw [Token.opener?, ofArguments_collected hhead.independent]
  rfl

/-- A printed tree is read with its openers. -/
theorem openersOf_tokensThen {source : List Char} {b : Block} (hb : b.ReadFrom source)
    (ts : List Token) : openersOf (b.tokensThen ts) = b.openers.map .ok ++ openersOf ts := by
  have hclose (closer : Closer) (us : List Token) :
      openersOf (.close closer :: us) = openersOf us := rfl
  induction b generalizing ts with
  | done => rfl
  | text cs b ih => exact (openersOf_prependText cs _).trans (ih hb.2.2 ts)
  | reference r b ih => exact ih hb.2 ts
  | loop head body b ihbody ih =>
    obtain ⟨hhead, -, hbody, hb⟩ := hb
    rw [Block.tokensThen, openersOf_cons, opener?_loop hhead, ihbody hbody, hclose, ih hb]
    simp [Block.openers]
  | branch condition yes no b ihyes ihno ih =>
    obtain ⟨hcondition, -, hyes, hno, hb⟩ := hb
    rw [Block.tokensThen, openersOf_cons, opener?_condition hcondition, ihyes hyes]
    by_cases hdone : no = .done
    · rw [if_pos hdone, hclose, ih hb]
      simp [Block.openers, hdone]
    · rw [if_neg hdone, hclose, ihno hno, hclose, ih hb]
      simp [Block.openers]

/-! ## What a print is read as -/

/-- A text cannot be read, or not as something that opens with these blocks. -/
def Misread (os : List Opener) (cs : List Char) : Prop :=
  ∀ ts, scan .text cs = .ok ts → ¬ os.map .ok <+: openersOf ts

namespace Misread

variable {os : List Opener} {source rest : List Char}

theorem append (h : Misread os rest) (more : List Opener) : Misread (os ++ more) rest := by
  intro ts hts hprefix
  rw [List.map_append] at hprefix
  exact h ts hts ((List.prefix_append _ _).trans hprefix)

/-- What is read as it was printed does not make up for what follows. -/
theorem after {cs : List Char} {f : List Token → List Token} (h : Misread os rest)
    (first : List Opener) (hscan : scan .text cs = (scan .text rest).map f)
    (hf : ∀ ts, openersOf (f ts) = first.map .ok ++ openersOf ts) : Misread (first ++ os) cs := by
  intro ts hts hprefix
  obtain ⟨us, hus, rfl⟩ := map_eq_ok.mp (hscan ▸ hts)
  rw [hf, List.map_append, List.prefix_append_right_inj] at hprefix
  exact h us hus hprefix

theorem text (h : Misread os rest) (cs : List Char) : Misread os (printText cs ++ rest) :=
  h.after [] (scan_printText cs) (openersOf_prependText cs)

theorem reference {r : Reference} (h : Misread os rest) (hr : r.ReadFrom source) :
    Misread os (r.spelling ++ rest) :=
  h.after [] (scan_spelling hr.parsed hr.closed) fun _ => rfl

theorem closer (h : Misread os rest) (closer : Closer) :
    Misread os (closer.spelling.toList ++ rest) :=
  h.after [] (scan_closer closer) fun _ => rfl

theorem print {b : Block} (h : Misread os rest) (hb : b.ReadFrom source) (hfree : b.PercentFree) :
    Misread (b.openers ++ os) (b.print ++ rest) :=
  h.after b.openers (scan_print hb hfree rest) (openersOf_tokensThen hb)

/-- A directive that is not read as it was printed. -/
theorem opening {cs : List Char} {o : Opener}
    (h : ∀ ts, scan .text cs = .ok ts → ∃ token us, ts = token :: us ∧
      ∃ read, token.opener? = some read ∧ read ≠ .ok o) : Misread (o :: os) cs := by
  intro ts hts hprefix
  obtain ⟨token, us, rfl, read, hread, hne⟩ := h ts hts
  rw [openersOf_cons, hread] at hprefix
  exact hne (List.cons_prefix_cons.mp hprefix).1.symm

/-- Either a percent sign spoils the condition, or what follows is misread. -/
theorem condition {c : Condition} (hc : c.ReadFrom source) (hbrace : rest.head? ≠ some openBrace)
    (h : (∀ w ∈ c.operands, Atom.char '%' ∉ w) → Misread os rest) :
    Misread (.branch c :: os) ('%' :: ("if ".toList ++ c.print ++ '%' :: rest)) := by
  by_cases hfree : ∀ w ∈ c.operands, Atom.char '%' ∉ w
  · refine (h hfree).after [.branch c] (scan_condition hc hfree hbrace) fun ts => ?_
    rw [openersOf_cons, opener?_condition hc]
    rfl
  · refine opening fun ts hts => ?_
    obtain ⟨words, us, rfl, hne⟩ := scan_condition_percent hc (by simpa using hfree) hts
    refine ⟨_, us, rfl, _, rfl, fun hread => hne ?_⟩
    obtain ⟨c', hc', he⟩ := map_eq_ok.mp hread
    cases he
    exact ofWords_eq hc'

/-- Either a percent sign spoils the head of the loop, or what follows is misread. -/
theorem loop {head : LoopHead} (hhead : head.ReadFrom source)
    (hbrace : rest.head? ≠ some openBrace)
    (h : (∀ w ∈ head.words, Atom.char '%' ∉ w) → Misread os rest) :
    Misread (.loop head :: os) ('%' :: ("for ".toList ++ head.print ++ '%' :: rest)) := by
  by_cases hfree : ∀ w ∈ head.words, Atom.char '%' ∉ w
  · refine (h hfree).after [.loop head] (scan_loop hhead hfree hbrace) fun ts => ?_
    rw [openersOf_cons, opener?_loop hhead]
    rfl
  · refine opening fun ts hts => ?_
    obtain ⟨var, arguments, us, rfl, hne⟩ := scan_loop_percent hhead (by simpa using hfree) hts
    refine ⟨_, us, rfl, _, rfl, fun hread => hne ?_⟩
    obtain ⟨head', hhead', he⟩ := map_eq_ok.mp hread
    cases he
    exact hhead'

end Misread

/-- A tree with a percent sign in a directive is misread. -/
theorem misread_print {source : List Char} {b : Block} (hb : b.ReadFrom source)
    (hpercent : ¬ b.PercentFree) (rest : List Char) : Misread b.openers (b.print ++ rest) := by
  induction b generalizing rest with
  | done => exact absurd (fun _ h => nomatch h) hpercent
  | text cs b ih =>
    rw [Block.print, List.append_assoc]
    exact (ih hb.2.2 hpercent rest).text cs
  | reference r b ih =>
    rw [Block.print, List.append_assoc]
    exact (ih hb.2 hpercent rest).reference hb.1
  | loop head body b ihbody ih =>
    obtain ⟨hhead, hlead, hbody, hb⟩ := hb
    rw [Block.percentFree_loop, not_and, not_and] at hpercent
    rw [Block.print_loop_append]
    refine .loop hhead (head?_print hbody hlead (head?_closer .endFor _)) fun hheadFree => ?_
    by_cases hbodyFree : body.PercentFree
    · have hrest := ih hb (hpercent hheadFree hbodyFree) rest
      exact (hrest.closer .endFor).print hbody hbodyFree
    · exact (ihbody hbody hbodyFree _).append _
  | branch condition yes no b ihyes ihno ih =>
    obtain ⟨hcondition, hlead, hyes, hno, hb⟩ := hb
    rw [Block.percentFree_branch, not_and, not_and, not_and] at hpercent
    by_cases hdone : no = .done
    · subst hdone
      rw [Block.print_branch_done_append]
      refine .condition hcondition (head?_print hyes hlead (head?_closer .endIf _))
        fun hconditionFree => ?_
      by_cases hyesFree : yes.PercentFree
      · have hrest := ih hb (hpercent hconditionFree hyesFree fun _ h => nomatch h) rest
        exact (hrest.closer .endIf).print hyes hyesFree
      · exact (ihyes hyes hyesFree _).append _
    · rw [Block.print_branch_append _ _ _ _ hdone]
      refine .condition hcondition (head?_print hyes hlead (head?_closer .otherwise _))
        fun hconditionFree => ?_
      by_cases hyesFree : yes.PercentFree
      · refine Misread.print (.closer ?_ .otherwise) hyes hyesFree
        by_cases hnoFree : no.PercentFree
        · have hrest := ih hb (hpercent hconditionFree hyesFree hnoFree) rest
          exact (hrest.closer .endIf).print hno hnoFree
        · exact (ihno hno hnoFree _).append _
      · exact (ihyes hyes hyesFree _).append _

/-- A tree is read as it was printed exactly if no directive has a percent sign in a
word. -/
theorem parse_print_iff {source : List Char} {b : Block} (hb : b.ReadFrom source) :
    (tokenize b.print >>= Block.parse) = .ok b ↔ b.PercentFree := by
  refine ⟨fun h => ?_, parse_print hb⟩
  obtain ⟨ts, hts, hparse⟩ := bind_eq_ok.mp h
  refine Classical.byContradiction fun hpercent => ?_
  have hmisread := misread_print hb hpercent []
  rw [List.append_nil] at hmisread
  have hopeners : b.openers.map .ok = openersOf ts := parseFrom_openers hparse
  exact hmisread ts hts (hopeners ▸ List.prefix_rfl)

/-- The tree of a template as text. -/
def printed (t : Template) : String := String.ofList t.tree.print

theorem parse_eq_ok {source : String} {b : Block} :
    Template.parse source = .ok ⟨source, b⟩ ↔ (tokenize source.toList >>= Block.parse) = .ok b := by
  unfold Template.parse
  split <;> simp_all

/-- Parsing the print of a parsed template succeeds and yields the same tree exactly if
no word of a directive has a percent sign in its text. -/
theorem roundTrips_iff {source : String} {t : Template} (h : Template.parse source = .ok t) :
    (∃ t', Template.parse t.printed = .ok t' ∧ t'.tree = t.tree) ↔
      ∀ w ∈ t.tree.directiveWords, Atom.char '%' ∉ w := by
  have hread := (parse_readFrom h).2
  refine Iff.trans ?_ (parse_print_iff hread)
  have hchars : t.printed.toList = t.tree.print := String.toList_ofList
  rw [← hchars, ← parse_eq_ok]
  constructor
  · rintro ⟨t', ht', htree⟩
    have hsource := (parse_readFrom ht').1
    rw [ht', ← hsource, ← htree]
  · exact fun hparse => ⟨_, hparse, rfl⟩

/-! ## An escaped percent sign -/

/-- A condition that compares two words, with a text for either outcome. -/
def comparison (left right : Word) : Block :=
  .branch (.compare left .equal right) (.text "yes".toList .done) (.text "no".toList .done) .done

/-- The reference to the dynamic parameter `x`. -/
def dynamicX : Reference := ⟨.dynamic, none, "x", "dynamic.x".toList⟩

/-- The spelling of that reference as plain text. -/
def textX : Word := dynamicX.spelling.map .char

/-- A comparison as text, from what stands before and after the reference. -/
def comparisonText (before after : List Char) : List Char :=
  '%' :: ("if ".toList ++ (before ++ (dynamicX.spelling ++ after)) ++
    '%' :: "yes%else%no%endif%".toList)

/-- A comparison is read with the words that the splitter finds in it. -/
theorem parse_comparisonText {before after : List Char} {left right : Word}
    (hbefore : '%' ∉ before) (hafter : '%' ∉ after)
    (hwords : splitWords (' ' :: (before ++ (dynamicX.spelling ++ after))) =
      .ok [left, "==".toList.map .char, right]) :
    (tokenize (comparisonText before after) >>= Block.parse) = .ok (comparison left right) := by
  have hpassable : Passable (before ++ (dynamicX.spelling ++ after)) :=
    (Passable.of_not_mem hbefore).append (.reference (by decide) (.of_not_mem hafter))
  have hcondition : Condition.ofWords [left, "==".toList.map .char, right] =
      .ok (.compare left .equal right) :=
    ofWords_words (c := .compare left .equal right) fun _ he => nomatch he
  exact tokenize_choiceText hpassable hwords hcondition

/-- Between plain words a reference is read as one. -/
theorem parse_reference :
    Template.parse "%if %\x7bdynamic.x\x7d == a%yes%else%no%endif%" =
      .ok ⟨"%if %\x7bdynamic.x\x7d == a%yes%else%no%endif%",
        comparison [.reference dynamicX] [.char 'a']⟩ := by
  have hsource : "%if %\x7bdynamic.x\x7d == a%yes%else%no%endif%".toList =
      comparisonText [] " == a".toList := by decide
  rw [parse_eq_ok, hsource]
  exact parse_comparisonText (by decide) (by decide) (by decide +kernel)

theorem roundTrips_reference :
    ∃ t, Template.parse "%if %\x7bdynamic.x\x7d == a%yes%else%no%endif%" = .ok t ∧
      ∃ t', Template.parse t.printed = .ok t' ∧ t'.tree = t.tree :=
  ⟨_, parse_reference, (roundTrips_iff parse_reference).mpr (by decide)⟩

/-- Behind a backslash the spelling of a reference is plain text, but the print has no
backslash, and there it is a reference. -/
theorem print_changes_escaped :
    ∃ t t', Template.parse "%if \\%\x7bdynamic.x\x7d == a%yes%else%no%endif%" = .ok t ∧
      Template.parse t.printed = .ok t' ∧ t'.tree ≠ t.tree := by
  have hsource : "%if \\%\x7bdynamic.x\x7d == a%yes%else%no%endif%".toList =
      comparisonText ['\\'] " == a".toList := by decide
  have hprint : (comparison textX [.char 'a']).print =
      comparisonText ['"'] "\" == \"a\"".toList := by decide
  refine ⟨⟨_, comparison textX [.char 'a']⟩, ⟨_, comparison [.reference dynamicX] [.char 'a']⟩,
    parse_eq_ok.mpr ?_, parse_eq_ok.mpr ?_, by decide⟩
  · rw [hsource]
    exact parse_comparisonText (by decide) (by decide) (by decide +kernel)
  · rw [printed, String.toList_ofList, hprint]
    exact parse_comparisonText (by decide) (by decide) (by decide +kernel)

end MediaPipeline.Template
