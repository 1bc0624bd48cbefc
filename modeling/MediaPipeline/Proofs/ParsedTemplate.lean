import Mathlib.Tactic.SplitIfs
import MediaPipeline.Template.Basic

/-!
# Parsed templates

What a template can look like that was read from a text: every reference stands in the
text as it is spelled, no two pieces of text are next to each other, what a loop or a
condition encloses does not begin with a brace, and directives are as their readers leave
them. Each stage of the parser keeps its part of this (`splitFrom_readFrom`,
`scan_readable`, `parseFrom_readFrom`); `parse_readFrom` puts them together.
-/

namespace MediaPipeline.Template

/-! ## References and words -/

/-- A reference that stands in a text. -/
structure Reference.ReadFrom (source : List Char) (r : Reference) : Prop where
  parsed : Reference.parse r.body = .ok r
  closed : closeBrace ∉ r.body
  stands : r.spelling <:+: source

/-- All references of a word stand in a text. -/
def Word.ReadFrom (source : List Char) (w : Word) : Prop :=
  ∀ r, Atom.reference r ∈ w → r.ReadFrom source

/-- A reference stands at the end of what was read, up to its last character so far. -/
structure OpenReference (source body rest : List Char) : Prop where
  closed : closeBrace ∉ body
  stands : '%' :: openBrace :: (body.reverse ++ rest) <:+: source

theorem Reference.body_of_parse {body : List Char} {r : Reference}
    (h : Reference.parse body = .ok r) : r.body = body := by
  simp only [Reference.parse] at h
  split at h
  · cases h
  · cases h
  · obtain ⟨⟨kindText, index⟩, -, h⟩ := bind_eq_ok.mp h
    dsimp only at h
    split at h
    · cases h
    · split_ifs at h
      · cases h
        rfl

section Words

variable {source : List Char}

theorem Word.ReadFrom.nil : Word.ReadFrom source [] := fun _ h => nomatch h

theorem Word.readFrom_cons {a : Atom} {w : Word} :
    Word.ReadFrom source (a :: w) ↔
      (∀ r, a = .reference r → r.ReadFrom source) ∧ Word.ReadFrom source w := by
  simp only [Word.ReadFrom, List.mem_cons]
  constructor
  · exact fun h => ⟨fun r hr => h r (.inl hr.symm), fun r hr => h r (.inr hr)⟩
  · rintro ⟨ha, hw⟩ r (hr | hr)
    · exact ha r hr.symm
    · exact hw r hr

theorem OpenReference.start {rest : List Char} (h : '%' :: openBrace :: rest <:+: source) :
    OpenReference source [] rest :=
  ⟨List.not_mem_nil, h⟩

theorem OpenReference.next {body rest : List Char} {c : Char}
    (h : OpenReference source body (c :: rest)) (hc : c ≠ closeBrace) :
    OpenReference source (c :: body) rest := by
  refine ⟨?_, ?_⟩
  · simp only [List.mem_cons, not_or]
    exact ⟨hc.symm, h.closed⟩
  · simpa using h.stands

theorem OpenReference.rest {body rest : List Char} (h : OpenReference source body rest) :
    rest <:+: source := by
  have hsuffix : rest <:+ '%' :: openBrace :: (body.reverse ++ rest) :=
    ⟨'%' :: openBrace :: body.reverse, by simp⟩
  exact hsuffix.isInfix.trans h.stands

theorem OpenReference.read {body rest : List Char} {r : Reference}
    (h : OpenReference source body (closeBrace :: rest))
    (hr : Reference.parse body.reverse = .ok r) : r.ReadFrom source := by
  have hbody := Reference.body_of_parse hr
  refine ⟨by rw [hbody, hr], by simpa [hbody] using h.closed, ?_⟩
  have hprefix : r.spelling <+: '%' :: openBrace :: (body.reverse ++ closeBrace :: rest) :=
    ⟨rest, by simp [Reference.spelling, spellingOf, hbody]⟩
  exact hprefix.isInfix.trans h.stands

/-- What the splitter has read and still has to read stands in the text. -/
structure SplitState.ReadFrom (source : List Char) (s : SplitState) (rest : List Char) : Prop where
  word : ∀ w, s.word = some w → Word.ReadFrom source w
  reference : ∀ body, s.reference = some body → OpenReference source body rest
  rest : rest <:+: source

namespace SplitState.ReadFrom

variable {s : SplitState} {rest : List Char}

theorem skip {c : Char} (h : s.ReadFrom source (c :: rest)) (hs : s.reference = none) :
    s.ReadFrom source rest := by
  refine ⟨h.word, ?_, (List.suffix_cons c rest).isInfix.trans h.rest⟩
  intro body hbody
  rw [hs] at hbody
  cases hbody

theorem word_getD (h : s.ReadFrom source rest) : Word.ReadFrom source (s.word.getD []) := by
  cases hw : s.word with
  | none => exact Word.ReadFrom.nil
  | some w => exact h.word w hw

theorem push {a : Atom} (h : s.ReadFrom source rest)
    (ha : ∀ r, a = .reference r → r.ReadFrom source) : (s.push a).ReadFrom source rest := by
  refine ⟨?_, h.reference, h.rest⟩
  intro w hw
  obtain rfl := Option.some.inj hw
  exact Word.readFrom_cons.mpr ⟨ha, h.word_getD⟩

theorem pushChar (h : s.ReadFrom source rest) (c : Char) :
    (s.push (.char c)).ReadFrom source rest :=
  h.push fun _ hr => nomatch hr

theorem touch (h : s.ReadFrom source rest) : s.touch.ReadFrom source rest := by
  refine ⟨?_, h.reference, h.rest⟩
  intro w hw
  obtain rfl := Option.some.inj hw
  exact h.word_getD

theorem quote (h : s.ReadFrom source rest) (q : Option Char) :
    SplitState.ReadFrom source { s with quote := q } rest :=
  ⟨h.word, h.reference, h.rest⟩

theorem noWord (h : s.ReadFrom source rest) :
    SplitState.ReadFrom source { s with word := none } rest :=
  ⟨(fun _ hw => nomatch hw), h.reference, h.rest⟩

theorem pending (h : s.ReadFrom source rest) {w : Word} (hw : w ∈ s.pending) :
    Word.ReadFrom source w := by
  unfold SplitState.pending at hw
  cases hs : s.word with
  | none => simp [hs] at hw
  | some v =>
    obtain rfl : w = v.reverse := by simpa [hs] using hw
    intro r hr
    exact h.word v hs r (List.mem_reverse.mp hr)

end SplitState.ReadFrom

theorem splitFrom_readFrom {text : List Char} {s : SplitState} {rest : List Char}
    {ws : List Word} (h : splitFrom text s rest = .ok ws) (hs : s.ReadFrom source rest) :
    ∀ w ∈ ws, Word.ReadFrom source w := by
  fun_induction splitFrom text s rest generalizing ws with
  | case1 | case2 | case4 => cases h
  | case3 =>
    obtain rfl := Except.ok.inj h
    exact fun w hw => hs.pending hw
  | case5 s rest body hbody r hr ih =>
    have hread : r.ReadFrom source := (hs.reference body hbody).read hr
    have hrest : rest <:+: source := (List.suffix_cons _ rest).isInfix.trans hs.rest
    have hclosed : SplitState.ReadFrom source { s with reference := none } rest :=
      ⟨hs.word, (fun _ hb => nomatch hb), hrest⟩
    exact ih h (hclosed.push fun r' hr' => by cases hr'; exact hread)
  | case6 s c rest body hbody hc ih =>
    have hopen := (hs.reference body hbody).next hc
    refine ih h ⟨hs.word, ?_, hopen.rest⟩
    intro body' hb
    obtain rfl := Option.some.inj hb
    exact hopen
  | case7 s hs' ih | case10 s hs' d rest hd hd' ih => exact ih h ((hs.skip hs').pushChar '%')
  | case8 s hs' rest ih =>
    have hopen := OpenReference.start hs.rest
    refine ih h ⟨hs.word, ?_, hopen.rest⟩
    intro body' hb
    obtain rfl := Option.some.inj hb
    exact hopen
  | case9 s hs' rest _ ih => exact ih h (((hs.skip hs').skip hs').pushChar '%')
  | case11 s c hs' _ _ ih => exact ih h (hs.skip hs').touch
  | case12 s c hs' _ _ d rest ih => exact ih h (((hs.skip hs').skip hs').pushChar d)
  | case13 s c rest hs' _ _ _ ih => exact ih h ((hs.skip hs').quote none)
  | case14 s c rest hs' _ _ _ _ ih => exact ih h ((hs.skip hs').touch.quote (some c))
  | case15 s c rest hs' _ _ _ _ _ ih =>
    obtain ⟨vs, hvs, rfl⟩ := map_eq_ok.mp h
    intro w hw
    rcases List.mem_append.mp hw with hw | hw
    · exact hs.pending hw
    · exact ih hvs (hs.skip hs').noWord w hw
  | case16 s c rest hs' _ _ _ _ _ ih => exact ih h ((hs.skip hs').pushChar c)

end Words

/-! ## Tokens -/

/-- The text with which a list of tokens begins. -/
def leadingText : List Token → List Char
  | .text cs :: _ => cs
  | _ => []

/-- Tokens that a text can be cut into. Text does not follow on text, and no text that
begins with a brace follows on a directive that opens a block. -/
inductive Readable (source : List Char) : List Token → Prop
  | nil : Readable source []
  | text {cs : List Char} {ts : List Token} (hne : cs ≠ []) (hts : leadingText ts = [])
      (h : Readable source ts) : Readable source (.text cs :: ts)
  | reference {r : Reference} {ts : List Token} (hr : r.ReadFrom source)
      (h : Readable source ts) : Readable source (.reference r :: ts)
  | openLoop {var : String} {arguments : List (String × Word)} {ts : List Token}
      (hvar : isIdentifier var.toList) (hargs : ∀ a ∈ arguments, Word.ReadFrom source a.2)
      (hts : (leadingText ts).head? ≠ some openBrace) (h : Readable source ts) :
    Readable source (.openLoop var arguments :: ts)
  | openBranch {words : List Word} {ts : List Token}
      (hwords : ∀ w ∈ words, Word.ReadFrom source w)
      (hts : (leadingText ts).head? ≠ some openBrace) (h : Readable source ts) :
    Readable source (.openBranch words :: ts)
  | close {ts : List Token} (closer : Closer) (h : Readable source ts) :
    Readable source (.close closer :: ts)

section Tokens

variable {source : List Char}

@[simp] theorem leadingText_consText (c : Char) (ts : List Token) :
    leadingText (consText c ts) = c :: leadingText ts := by
  rcases ts with _ | ⟨⟨⟩, ts⟩ <;> rfl

theorem Readable.consText {ts : List Token} (h : Readable source ts) (c : Char) :
    Readable source (consText c ts) := by
  cases h with
  | nil => exact .text (List.cons_ne_nil _ _) rfl .nil
  | text hne hts h => exact .text (List.cons_ne_nil _ _) hts h
  | reference hr h => exact .text (List.cons_ne_nil _ _) rfl (.reference hr h)
  | openLoop hvar hargs hts h =>
    exact .text (List.cons_ne_nil _ _) rfl (.openLoop hvar hargs hts h)
  | openBranch hwords hts h => exact .text (List.cons_ne_nil _ _) rfl (.openBranch hwords hts h)
  | close closer h => exact .text (List.cons_ne_nil _ _) rfl (.close closer h)

/-- What goes between the percent signs of a directive can be read from the text. -/
inductive ReadableDirective (source : List Char) : Token → Prop
  | openLoop {var : String} {arguments : List (String × Word)} (hvar : isIdentifier var.toList)
      (hargs : ∀ a ∈ arguments, Word.ReadFrom source a.2) :
    ReadableDirective source (.openLoop var arguments)
  | openBranch {words : List Word} (hwords : ∀ w ∈ words, Word.ReadFrom source w) :
    ReadableDirective source (.openBranch words)
  | close (closer : Closer) : ReadableDirective source (.close closer)

theorem splitWords_readFrom {text : List Char} {ws : List Word} (h : splitWords text = .ok ws)
    (htext : text <:+: source) : ∀ w ∈ ws, Word.ReadFrom source w :=
  splitFrom_readFrom h ⟨(fun _ hw => nomatch hw), (fun _ hb => nomatch hb), htext⟩

theorem splitKey?_readFrom {w value : Word} {key : List Char} (h : w.splitKey? = some (key, value))
    (hw : w.ReadFrom source) : value.ReadFrom source := by
  induction w generalizing key with
  | nil => cases h
  | cons a w ih =>
    have hw' := (Word.readFrom_cons.mp hw).2
    cases a with
    | reference r => cases h
    | char c =>
      simp only [Word.splitKey?] at h
      split_ifs at h
      · cases h
        exact hw'
      · obtain ⟨⟨key', value'⟩, hkey, he⟩ := Option.map_eq_some_iff.mp h
        cases he
        exact ih hkey hw'

theorem parseArguments_readFrom {directive : List Char} {ws : List Word}
    {arguments : List (String × Word)} (h : parseArguments directive ws = .ok arguments)
    (hws : ∀ w ∈ ws, Word.ReadFrom source w) : ∀ a ∈ arguments, Word.ReadFrom source a.2 := by
  induction ws generalizing arguments with
  | nil =>
    cases h
    exact fun a ha => nomatch ha
  | cons w ws ih =>
    obtain ⟨hw, hws⟩ := List.forall_mem_cons.mp hws
    simp only [parseArguments] at h
    split at h
    · cases h
    · rename_i key value hkey
      obtain ⟨rest, hrest, h⟩ := bind_eq_ok.mp h
      cases h
      exact List.forall_mem_cons.mpr ⟨splitKey?_readFrom hkey hw, ih hrest hws⟩

theorem parseDirective_readable {body : List Char} {token : Token}
    (h : parseDirective body = .ok token) (hbody : body <:+: source) :
    ReadableDirective source token := by
  have hdrop (n : Nat) : body.drop n <:+: source :=
    (List.drop_suffix n body).isInfix.trans hbody
  unfold parseDirective at h
  split at h
  · cases h
    exact .close _
  · split_ifs at h
    · obtain ⟨words, hwords, h⟩ := bind_eq_ok.mp h
      cases h
      exact .openBranch (splitWords_readFrom hwords (hdrop 2))
    · obtain ⟨words, hwords, h⟩ := bind_eq_ok.mp h
      have hread := splitWords_readFrom hwords (hdrop 3)
      unfold parseLoop at h
      split at h
      · cases h
      · split at h
        · cases h
        · split_ifs at h with hvar
          · obtain ⟨arguments, hargs, h⟩ := bind_eq_ok.mp h
            cases h
            refine .openLoop (by simpa using hvar) (parseArguments_readFrom hargs ?_)
            exact (List.forall_mem_cons.mp hread).2

/-- What the scanner has read of the token at hand and still has to read stands in the
text. -/
def ScanMode.ReadFrom (source : List Char) (rest : List Char) : ScanMode → Prop
  | .text => rest <:+: source
  | .reference body => OpenReference source body rest
  | .directive body => body.reverse ++ rest <:+: source
  | .argument body => body.reverse ++ rest <:+: source

theorem ReadableDirective.leadingText {token : Token} (h : ReadableDirective source token)
    (ts : List Token) : leadingText (token :: ts) = [] := by
  cases h <;> rfl

theorem Readable.directive {token : Token} {ts : List Token} (h : ReadableDirective source token)
    (hts : Readable source ts)
    (hbrace : (∀ closer, token ≠ .close closer) → (Template.leadingText ts).head? ≠ some openBrace) :
    Readable source (token :: ts) := by
  cases h with
  | openLoop hvar hargs => exact .openLoop hvar hargs (hbrace fun _ he => nomatch he) hts
  | openBranch hwords => exact .openBranch hwords (hbrace fun _ he => nomatch he) hts
  | close closer => exact .close closer hts

theorem closer?_of_parseDirective {body : List Char} {token : Token}
    (h : parseDirective body = .ok token) (hc : closer? body ≠ none) :
    ∃ closer, token = .close closer := by
  obtain ⟨closer, hc⟩ := Option.ne_none_iff_exists'.mp hc
  simp only [parseDirective, hc, Except.ok.injEq] at h
  exact ⟨closer, h.symm⟩

/-- Text begins with what the scanner sees first, if it stands in text. -/
theorem head?_of_scan {mode : ScanMode} {rest : List Char} {ts : List Token} {c : Char}
    (h : scan mode rest = .ok ts) (hc : (leadingText ts).head? = some c) :
    mode = .text ∧ rest.head? = some c := by
  fun_induction scan mode rest generalizing ts with
  | case1 =>
    cases h
    cases hc
  | case2 | case3 | case4 => cases h
  | case5 =>
    cases h
    exact ⟨rfl, hc⟩
  | case6 | case9 | case10 =>
    obtain ⟨tokens, -, rfl⟩ := map_eq_ok.mp h
    rw [leadingText_consText] at hc
    exact ⟨rfl, hc⟩
  | case7 _ _ ih | case8 _ _ _ _ _ ih | case12 _ _ _ _ ih | case13 _ _ _ ih | case15 _ _ _ _ ih
  | case16 _ _ ih | case17 _ _ _ _ ih => exact nomatch (ih h hc).1
  | case11 =>
    obtain ⟨r, -, h⟩ := bind_eq_ok.mp h
    obtain ⟨tokens, -, h⟩ := bind_eq_ok.mp h
    cases h
    cases hc
  | case14 =>
    obtain ⟨token, htoken, h⟩ := bind_eq_ok.mp h
    obtain ⟨tokens, -, h⟩ := bind_eq_ok.mp h
    cases h
    rw [(parseDirective_readable htoken (List.infix_refl _)).leadingText tokens] at hc
    cases hc

theorem scan_readable {mode : ScanMode} {rest : List Char} {ts : List Token}
    (h : scan mode rest = .ok ts) (hmode : mode.ReadFrom source rest) : Readable source ts := by
  have hcons (c : Char) (cs : List Char) : cs <:+: c :: cs := (List.suffix_cons c cs).isInfix
  fun_induction scan mode rest generalizing ts with
  | case1 =>
    cases h
    exact .nil
  | case2 | case3 | case4 => cases h
  | case5 =>
    cases h
    exact .text (List.cons_ne_nil _ _) rfl .nil
  | case6 rest ih =>
    obtain ⟨tokens, htokens, rfl⟩ := map_eq_ok.mp h
    exact (ih htokens ((hcons _ _).trans ((hcons _ _).trans hmode))).consText '%'
  | case7 rest _ ih => exact ih h (.start hmode)
  | case8 c rest _ _ _ ih => exact ih h ((hcons _ _).trans hmode)
  | case9 c rest _ _ _ ih =>
    obtain ⟨tokens, htokens, rfl⟩ := map_eq_ok.mp h
    exact (ih htokens ((hcons _ _).trans hmode)).consText '%'
  | case10 c rest _ ih =>
    obtain ⟨tokens, htokens, rfl⟩ := map_eq_ok.mp h
    exact (ih htokens ((hcons _ _).trans hmode)).consText c
  | case11 body rest ih =>
    obtain ⟨r, hr, h⟩ := bind_eq_ok.mp h
    obtain ⟨tokens, htokens, h⟩ := bind_eq_ok.mp h
    cases h
    exact .reference (hmode.read hr) (ih htokens ((hcons _ _).trans hmode.rest))
  | case12 body c rest hc ih => exact ih h (hmode.next hc)
  | case13 body rest _ ih => exact ih h (by simpa [ScanMode.ReadFrom] using hmode)
  | case14 body rest hopen ih =>
    obtain ⟨token, htoken, h⟩ := bind_eq_ok.mp h
    obtain ⟨tokens, htokens, h⟩ := bind_eq_ok.mp h
    cases h
    have hbody : body.reverse <:+: source :=
      (List.prefix_append body.reverse ('%' :: rest)).isInfix.trans hmode
    have hrest : rest <:+: source :=
      (hcons _ _).trans ((List.suffix_append body.reverse ('%' :: rest)).isInfix.trans hmode)
    refine .directive (parseDirective_readable htoken hbody) (ih htokens hrest) ?_
    -- A brace right after the directive would have made its end the start of a reference.
    intro hne hbrace
    refine hopen ⟨(head?_of_scan htokens hbrace).2, ?_⟩
    refine Classical.byContradiction fun hcloser => ?_
    obtain ⟨closer, hclose⟩ := closer?_of_parseDirective htoken hcloser
    exact hne closer hclose
  | case15 body c rest _ ih => exact ih h (by simpa [ScanMode.ReadFrom] using hmode)
  | case16 body rest ih => exact ih h (by simpa [ScanMode.ReadFrom] using hmode)
  | case17 body c rest _ ih => exact ih h (by simpa [ScanMode.ReadFrom] using hmode)

end Tokens

/-! ## Trees -/

/-- The text with which a block begins. -/
def Block.leadingText : Block → List Char
  | .text cs _ => cs
  | _ => []

/-- A block ends with text. -/
def Block.EndsText : Block → Prop
  | .done => False
  | .text _ rest => rest = .done ∨ rest.EndsText
  | .reference _ rest => rest.EndsText
  | .loop _ _ rest => rest.EndsText
  | .branch _ _ _ rest => rest.EndsText

/-- A condition as it is read: only a negated flag has its mark taken off. -/
structure Condition.ReadFrom (source : List Char) (c : Condition) : Prop where
  operands : ∀ w ∈ c.operands, Word.ReadFrom source w
  unmarked : ∀ w, c ≠ .flag false (.char '!' :: w)

/-- The words of a loop's head. -/
def LoopHead.words (head : LoopHead) : List Word := head.first.toList ++ [head.bound.word]

/-- The head of a loop as it is read: its bounds do not depend on its variable. -/
structure LoopHead.ReadFrom (source : List Char) (head : LoopHead) : Prop where
  var : isIdentifier head.var.toList
  words : ∀ w ∈ head.words, Word.ReadFrom source w
  independent : ∀ w ∈ head.words, w.dependsOn head.var = false

/-- A block that can be read from a text. -/
def Block.ReadFrom (source : List Char) : Block → Prop
  | .done => True
  | .text cs rest => cs ≠ [] ∧ rest.leadingText = [] ∧ rest.ReadFrom source
  | .reference r rest => r.ReadFrom source ∧ rest.ReadFrom source
  | .loop head body rest =>
    head.ReadFrom source ∧ body.leadingText.head? ≠ some openBrace ∧ body.ReadFrom source ∧
      rest.ReadFrom source
  | .branch condition yes no rest =>
    condition.ReadFrom source ∧ yes.leadingText.head? ≠ some openBrace ∧ yes.ReadFrom source ∧
      no.ReadFrom source ∧ rest.ReadFrom source

namespace Block

theorem append_loop (head : LoopHead) (body rest b : Block) :
    loop head body rest ++ b = loop head body (rest ++ b) := rfl

theorem append_branch (condition : Condition) (yes no rest b : Block) :
    branch condition yes no rest ++ b = branch condition yes no (rest ++ b) := rfl

theorem leadingText_append (a b : Block) :
    (a ++ b).leadingText = if a = done then b.leadingText else a.leadingText := by
  cases a <;> rfl

theorem ReadFrom.append {source : List Char} {a b : Block} (ha : a.ReadFrom source)
    (hb : b.ReadFrom source) (hjoin : a.EndsText → b.leadingText = []) :
    (a ++ b).ReadFrom source := by
  induction a with
  | done => exact hb
  | text cs rest ih =>
    obtain ⟨hne, hrest, h⟩ := ha
    refine ⟨hne, ?_, ih h fun he => hjoin (.inr he)⟩
    show (rest ++ b).leadingText = []
    rw [leadingText_append]
    split_ifs with hdone
    · exact hjoin (.inl hdone)
    · exact hrest
  | reference r rest ih => exact ⟨ha.1, ih ha.2 hjoin⟩
  | loop head body rest _ ih => exact ⟨ha.1, ha.2.1, ha.2.2.1, ih ha.2.2.2 hjoin⟩
  | branch condition yes no rest _ _ ih =>
    obtain ⟨hc, hbrace, hyes, hno, hrest⟩ := ha
    exact ⟨hc, hbrace, hyes, hno, ih hrest hjoin⟩

theorem append_ne_done {a b : Block} (hb : b ≠ done) : a ++ b ≠ done := by
  cases a with
  | done => exact hb
  | _ => exact fun h => nomatch h

theorem endsText_append {a b : Block} (hb : b ≠ done) : (a ++ b).EndsText ↔ b.EndsText := by
  induction a with
  | done => rfl
  | text cs rest ih =>
    show rest ++ b = done ∨ (rest ++ b).EndsText ↔ b.EndsText
    rw [ih, or_iff_right (append_ne_done hb)]
  | reference r rest ih => exact ih
  | loop head body rest _ ih => exact ih
  | branch condition yes no rest _ _ ih => exact ih

end Block

section Parser

variable {source : List Char}

theorem ofWords_readFrom {ws : List Word} {c : Condition} (h : Condition.ofWords ws = .ok c)
    (hws : ∀ w ∈ ws, Word.ReadFrom source w) : c.ReadFrom source := by
  unfold Condition.ofWords at h
  split at h
  · cases h
  · cases h
    refine ⟨?_, fun w he => nomatch he⟩
    have hw := List.forall_mem_singleton.mp hws
    exact List.forall_mem_singleton.mpr (Word.readFrom_cons.mp hw).2
  · rename_i w hw
    cases h
    refine ⟨hws, ?_⟩
    intro v he
    cases he
    exact hw v rfl
  · split at h
    · rename_i left op right _ _ _
      cases h
      refine ⟨?_, fun w he => nomatch he⟩
      have hleft : Word.ReadFrom source left := hws left (by simp)
      have hright : Word.ReadFrom source right := hws right (by simp)
      exact List.forall_mem_cons.mpr ⟨hleft, List.forall_mem_singleton.mpr hright⟩
    · cases h
  · cases h

/-- A word that may stand in the head of a loop. -/
structure Admitted (source : List Char) (var : String) (w : Word) : Prop where
  read : Word.ReadFrom source w
  independent : w.dependsOn var = false

/-- The arguments read so far may stand in the head of a loop. -/
structure LoopArguments.ReadFrom (source : List Char) (var : String) (a : LoopArguments) : Prop where
  first : ∀ w, a.first = some w → Admitted source var w
  last : ∀ w, a.last = some w → Admitted source var w
  count : ∀ w, a.count = some w → Admitted source var w

theorem collectArguments_readFrom {var : String} {acc read : LoopArguments}
    {arguments : List (String × Word)} (h : collectArguments var acc arguments = .ok read)
    (hargs : ∀ a ∈ arguments, Word.ReadFrom source a.2) (hacc : acc.ReadFrom source var) :
    read.ReadFrom source var := by
  have hsome {v w : Word} (hv : Admitted source var v) (h : some v = some w) :
      Admitted source var w := Option.some.inj h ▸ hv
  fun_induction collectArguments var acc arguments with
  | case1 =>
    cases h
    exact hacc
  | case2 | case3 | case5 | case7 | case9 => cases h
  | case4 acc value rest hvar _ ih =>
    obtain ⟨hvalue, hrest⟩ := List.forall_mem_cons.mp hargs
    have hadmitted : Admitted source var value := ⟨hvalue, Bool.eq_false_iff.mpr hvar⟩
    exact ih h hrest ⟨fun w => hsome hadmitted, hacc.last, hacc.count⟩
  | case6 acc value rest hvar _ _ ih =>
    obtain ⟨hvalue, hrest⟩ := List.forall_mem_cons.mp hargs
    have hadmitted : Admitted source var value := ⟨hvalue, Bool.eq_false_iff.mpr hvar⟩
    exact ih h hrest ⟨hacc.first, fun w => hsome hadmitted, hacc.count⟩
  | case8 acc value rest hvar _ _ _ ih =>
    obtain ⟨hvalue, hrest⟩ := List.forall_mem_cons.mp hargs
    have hadmitted : Admitted source var value := ⟨hvalue, Bool.eq_false_iff.mpr hvar⟩
    exact ih h hrest ⟨hacc.first, hacc.last, fun w => hsome hadmitted⟩

theorem headOf_readFrom {var : String} {first : Option Word} {bound : Bound}
    (hvar : isIdentifier var.toList) (hfirst : ∀ w, first = some w → Admitted source var w)
    (hbound : Admitted source var bound.word) : LoopHead.ReadFrom source ⟨var, first, bound⟩ := by
  have hwords : ∀ w ∈ LoopHead.words ⟨var, first, bound⟩, Admitted source var w := by
    intro w hw
    rcases List.mem_append.mp hw with hw | hw
    · exact hfirst w (Option.mem_toList.mp hw)
    · exact List.mem_singleton.mp hw ▸ hbound
  exact ⟨hvar, fun w hw => (hwords w hw).read, fun w hw => (hwords w hw).independent⟩

theorem ofArguments_readFrom {var : String} {arguments : List (String × Word)} {head : LoopHead}
    (h : LoopHead.ofArguments var arguments = .ok head) (hvar : isIdentifier var.toList)
    (hargs : ∀ a ∈ arguments, Word.ReadFrom source a.2) : head.ReadFrom source := by
  obtain ⟨read, hread, h⟩ := bind_eq_ok.mp h
  have hnone : LoopArguments.ReadFrom source var ⟨none, none, none⟩ :=
    ⟨(fun _ h => nomatch h), (fun _ h => nomatch h), (fun _ h => nomatch h)⟩
  have hreads := collectArguments_readFrom hread hargs hnone
  split at h
  · rename_i w hlast _
    cases h
    exact headOf_readFrom hvar hreads.first (hreads.last w hlast)
  · rename_i w _ hcount
    cases h
    exact headOf_readFrom hvar hreads.first (hreads.count w hcount)
  · cases h
  · cases h

/-- Reading goes on inside a block that a directive has just opened. -/
def Opening : List Frame → Prop
  | .loop _ _ _ :: _ => True
  | .branch _ _ :: _ => True
  | _ => False

/-- What stands before an open block at its own level. -/
def Frame.before : Frame → Block
  | loop _ _ before => before
  | branch _ before => before
  | otherwise _ _ before => before

/-- An open block that can be read from a text. -/
inductive Frame.ReadFrom (source : List Char) : Frame → Prop
  | loop {var : String} {arguments : List (String × Word)} (before : Block)
      (hvar : isIdentifier var.toList) (hargs : ∀ a ∈ arguments, Word.ReadFrom source a.2) :
    ReadFrom source (.loop var arguments before)
  | branch {condition : Condition} (before : Block) (hc : condition.ReadFrom source) :
    ReadFrom source (.branch condition before)
  | otherwise {condition : Condition} {yes : Block} (before : Block)
      (hc : condition.ReadFrom source) (hyes : yes.ReadFrom source)
      (hbrace : yes.leadingText.head? ≠ some openBrace) :
    ReadFrom source (.otherwise condition yes before)

/-- What has been read so far, level by level. -/
inductive ReadSoFar (source : List Char) : Block → List Frame → Prop
  | outermost {body : Block} (hbody : body.ReadFrom source) : ReadSoFar source body []
  | within {body : Block} {frame : Frame} {frames : List Frame} (hbody : body.ReadFrom source)
      (hbrace : Opening (frame :: frames) → body.leadingText.head? ≠ some openBrace)
      (hframe : frame.ReadFrom source) (h : ReadSoFar source frame.before frames) :
    ReadSoFar source body (frame :: frames)

theorem ReadSoFar.body {body : Block} {frames : List Frame} (h : ReadSoFar source body frames) :
    body.ReadFrom source := by
  cases h <;> assumption

theorem ReadSoFar.append {body b : Block} {frames : List Frame} (h : ReadSoFar source body frames)
    (hb : b.ReadFrom source) (hjoin : body.EndsText → b.leadingText = [])
    (hbrace : Opening frames → body = .done → b.leadingText.head? ≠ some openBrace) :
    ReadSoFar source (body ++ b) frames := by
  have hbody := h.body.append hb hjoin
  cases h with
  | outermost _ => exact .outermost hbody
  | within _ hopening hframe h =>
    refine .within hbody ?_ hframe h
    intro ho
    rw [Block.leadingText_append]
    split_ifs with hdone
    · exact hbrace ho hdone
    · exact hopening ho

/-- A block that was read whole takes its place at the level of its opener. -/
theorem ReadSoFar.closed {before b : Block} {frames : List Frame}
    (h : ReadSoFar source before frames) (hb : b.ReadFrom source) (hlead : b.leadingText = [])
    (hdone : b ≠ .done) (hends : ¬ b.EndsText) :
    ReadSoFar source (before ++ b) frames ∧ ¬ (before ++ b).EndsText ∧
      (Opening frames → before ++ b ≠ .done) := by
  refine ⟨h.append hb (fun _ => hlead) ?_, ?_, fun _ => Block.append_ne_done hdone⟩
  · intro _ _ he
    rw [hlead] at he
    cases he
  · rwa [Block.endsText_append hdone]

theorem closeFrame_readSoFar {closer : Closer} {body body' : Block} {frames frames' : List Frame}
    (h : closeFrame closer body frames = .ok (body', frames')) (hs : ReadSoFar source body frames) :
    ReadSoFar source body' frames' ∧ ¬ body'.EndsText ∧ (Opening frames' → body' ≠ .done) := by
  cases hs with
  | outermost _ => cases h
  | within hbody hbrace hframe hs =>
    cases hframe with
    | loop before hvar hargs =>
      simp only [closeFrame] at h
      split_ifs at h
      obtain ⟨head, hhead, h⟩ := bind_eq_ok.mp h
      cases h
      have hloop : (Block.loop head body .done).ReadFrom source :=
        ⟨ofArguments_readFrom hhead hvar hargs, hbrace trivial, hbody, trivial⟩
      exact hs.closed hloop rfl (fun he => nomatch he) id
    | branch before hc =>
      cases closer with
      | endIf =>
        cases h
        exact hs.closed ⟨hc, hbrace trivial, hbody, trivial, trivial⟩ rfl
          (fun he => nomatch he) id
      | otherwise =>
        cases h
        exact ⟨.within trivial (fun ho => ho.elim) (.otherwise _ hc hbody (hbrace trivial)) hs,
          id, False.elim⟩
      | endFor => cases h
    | otherwise before hc hyes hyesBrace =>
      simp only [closeFrame] at h
      split_ifs at h
      cases h
      exact hs.closed ⟨hc, hyesBrace, hyes, hbody, trivial⟩ rfl (fun he => nomatch he) id

theorem parseFrom_readFrom {body b : Block} {frames : List Frame} {tokens : List Token}
    (h : parseFrom body frames tokens = .ok b) (hs : ReadSoFar source body frames)
    (ht : Readable source tokens) (hjoin : body.EndsText → leadingText tokens = [])
    (hbrace : Opening frames → body = .done → (leadingText tokens).head? ≠ some openBrace) :
    b.ReadFrom source := by
  induction tokens generalizing body frames with
  | nil =>
    cases frames with
    | nil =>
      cases h
      exact hs.body
    | cons frame frames => cases h
  | cons token tokens ih =>
    cases ht with
    | text hne hts ht =>
      have hends : ¬ body.EndsText := fun he => hne (hjoin he)
      refine ih h (hs.append ⟨hne, rfl, trivial⟩ (fun he => absurd he hends) hbrace) ht
        (fun _ => hts) ?_
      exact fun _ hdone => absurd hdone (Block.append_ne_done fun he => nomatch he)
    | reference hr ht =>
      obtain ⟨hs, hends, hdone⟩ :=
        hs.closed (b := .reference _ .done) ⟨hr, trivial⟩ rfl (fun he => nomatch he) id
      exact ih h hs ht (fun he => absurd he hends) fun ho he => absurd he (hdone ho)
    | openLoop hvar hargs hts ht =>
      refine ih h (.within trivial (fun _ he => nomatch he) (.loop body hvar hargs) hs) ht ?_ ?_
      · exact False.elim
      · exact fun _ _ => hts
    | openBranch hwords hts ht =>
      obtain ⟨condition, hc, h⟩ := bind_eq_ok.mp h
      have hframe : (Frame.branch condition body).ReadFrom source :=
        .branch body (ofWords_readFrom hc hwords)
      refine ih h (.within trivial (fun _ he => nomatch he) hframe hs) ht ?_ ?_
      · exact False.elim
      · exact fun _ _ => hts
    | close closer ht =>
      obtain ⟨⟨body', frames'⟩, hclose, h⟩ := bind_eq_ok.mp h
      obtain ⟨hs, hends, hdone⟩ := closeFrame_readSoFar hclose hs
      exact ih h hs ht (fun he => absurd he hends) fun ho he => absurd he (hdone ho)

theorem parse_readFrom {source : String} {t : Template} (h : Template.parse source = .ok t) :
    t.source = source ∧ t.tree.ReadFrom source.toList := by
  unfold Template.parse at h
  split at h
  · rename_i tree htree
    cases h
    obtain ⟨tokens, htokens, hparse⟩ := bind_eq_ok.mp htree
    have hreadable : Readable source.toList tokens := scan_readable htokens (List.infix_refl _)
    exact ⟨rfl, parseFrom_readFrom hparse (.outermost trivial) hreadable False.elim False.elim⟩
  · cases h

end Parser

end MediaPipeline.Template
