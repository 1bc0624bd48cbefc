import MediaPipeline.Proofs.PrintedTemplate

/-!
# Percent signs in directives

A percent sign gets into a word of a directive behind a backslash, and the printer has no
way to write it: between the quotes it begins a reference, or it ends the directive. So a
directive with a percent sign in one of its words is not read as it was printed
(`scan_condition_percent`, `scan_loop_percent`): where the percent sign stood there is
now a reference.
-/

namespace MediaPipeline.Template

/-! ## Percent signs in words -/

section Misread

variable {text : List Char}

/-- The word at hand is a beginning of the first word that is read, and if a reference is
open, that reference comes next. -/
def BeginsWith (s : SplitState) (acc : List Atom) (ws : List Word) : Prop :=
  ∃ v more, ws = (acc.reverse ++ v) :: more ∧
    (s.reference.isSome → ∃ r v', v = .reference r :: v')

theorem BeginsWith.outside {s : SplitState} {acc : List Atom} {v : Word} {more : List Word}
    (hs : s.reference = none) : BeginsWith s acc ((acc.reverse ++ v) :: more) :=
  ⟨v, more, rfl, fun h => by simp [hs] at h⟩

theorem BeginsWith.of_cons {s s' : SplitState} {a : Atom} {acc : List Atom} {ws : List Word}
    (h : BeginsWith s' (a :: acc) ws) (hs : s.reference.isSome → ∃ r, a = .reference r) :
    BeginsWith s acc ws := by
  obtain ⟨v, more, rfl, -⟩ := h
  refine ⟨a :: v, more, by simp, fun hsome => ?_⟩
  obtain ⟨r, rfl⟩ := hs hsome
  exact ⟨r, v, rfl⟩

theorem splitFrom_beginsWith {s : SplitState} {cs : List Char} {ws : List Word}
    {acc : List Atom} (h : splitFrom text s cs = .ok ws) (hacc : s.word = some acc) :
    BeginsWith s acc ws := by
  have hpush {s : SplitState} {acc : List Atom} (a : Atom) (hacc : s.word = some acc) :
      (s.push a).word = some (a :: acc) := by
    rw [SplitState.push, hacc]
    rfl
  have htouch {s : SplitState} {acc : List Atom} (hacc : s.word = some acc) :
      s.touch.word = some acc := by
    rw [SplitState.touch, hacc]
    rfl
  fun_induction splitFrom text s cs generalizing ws acc with
  | case1 | case2 | case4 => cases h
  | case3 s hquote hreference =>
    cases h
    have hpending : s.pending = [acc.reverse ++ []] := by simp [SplitState.pending, hacc]
    exact hpending ▸ .outside hreference
  | case5 s rest body hbody r hr ih =>
    exact (ih h (hpush (s := { s with reference := none }) _ hacc)).of_cons fun _ => ⟨r, rfl⟩
  | case6 s c rest body hbody hc ih =>
    obtain ⟨v, more, rfl, hreference⟩ := ih h hacc
    exact ⟨v, more, rfl, fun _ => hreference rfl⟩
  | case7 s hreference ih | case9 s hreference rest _ ih | case10 s hreference d rest _ _ ih
  | case12 s c hreference _ _ d rest ih | case16 s c rest hreference _ _ _ _ _ ih =>
    exact (ih h (hpush _ hacc)).of_cons fun hsome => by simp [hreference] at hsome
  | case8 s hreference rest ih =>
    obtain ⟨v, more, rfl, -⟩ := ih h hacc
    exact .outside hreference
  | case11 s c hreference _ _ ih =>
    obtain ⟨v, more, rfl, -⟩ := ih h (htouch hacc)
    exact .outside hreference
  | case13 s c rest hreference _ _ _ ih =>
    obtain ⟨v, more, rfl, -⟩ := ih h hacc
    exact .outside hreference
  | case14 s c rest hreference _ _ _ _ ih =>
    obtain ⟨v, more, rfl, -⟩ := ih h (htouch hacc)
    exact .outside hreference
  | case15 s c rest hreference _ _ _ _ _ ih =>
    obtain ⟨vs, -, rfl⟩ := map_eq_ok.mp h
    have hpending : s.pending ++ vs = (acc.reverse ++ []) :: vs := by
      simp [SplitState.pending, hacc]
    exact hpending ▸ .outside hreference

/-- A percent sign that the printer puts between quotes becomes a reference, or nothing
can be read. -/
theorem splitFrom_percent {w : Word} (hw : w.Printable) {word : Option (List Atom)}
    {cs : List Char} {ws : List Word}
    (h : splitFrom text (outside word)
      ('"' :: (w.flatMap Atom.print ++ '%' :: openBrace :: cs)) = .ok ws) :
    ∃ r v more, ws = ((word.getD []).reverse ++ w ++ .reference r :: v) :: more := by
  rw [splitFrom_startQuote rfl rfl] at h
  have hatoms := (splitFrom_atoms hw (word.getD [])).symm.trans h
  have hopen : splitFrom text (inQuote (w.reverse ++ word.getD [])) ('%' :: openBrace :: cs) =
      splitFrom text { inQuote (w.reverse ++ word.getD []) with reference := some [] } cs :=
    splitFrom_open rfl
  obtain ⟨v, more, rfl, hreference⟩ := splitFrom_beginsWith (hopen.symm.trans hatoms) rfl
  obtain ⟨r, v', rfl⟩ := hreference rfl
  exact ⟨r, v', more, by simp⟩

theorem splitFrom_unclosed {w : Word} (hw : w.Printable) {word : Option (List Atom)}
    {ws : List Word} :
    splitFrom text (outside word) ('"' :: w.flatMap Atom.print) ≠ .ok ws := by
  intro h
  rw [splitFrom_startQuote rfl rfl] at h
  have hatoms : splitFrom text (inQuote (word.getD [])) (w.flatMap Atom.print ++ []) = _ :=
    splitFrom_atoms hw (word.getD [])
  rw [List.append_nil] at hatoms
  have h := hatoms.symm.trans h
  rw [splitFrom.eq_def] at h
  cases h

end Misread

/-! ## Directives with percent signs -/

/-- What was scanned begins with a directive of which a beginning is known. -/
def BeginsDirective (known : List Char) (ts : List Token) : Prop :=
  ∃ more token us, ts = token :: us ∧ parseDirective (known ++ more) = .ok token

theorem BeginsDirective.shorter {c : Char} {body : List Char} {ts : List Token}
    (h : BeginsDirective (c :: body).reverse ts) : BeginsDirective body.reverse ts := by
  obtain ⟨more, token, us, hts, hparse⟩ := h
  exact ⟨c :: more, token, us, hts, by simpa using hparse⟩

theorem scan_beginsDirective {mode : ScanMode} {cs : List Char} {ts : List Token}
    (h : scan mode cs = .ok ts) {body : List Char}
    (hmode : mode = .directive body ∨ mode = .argument body) :
    BeginsDirective body.reverse ts := by
  fun_induction scan mode cs generalizing ts body with
  | case1 | case2 | case5 | case6 | case7 | case8 | case9 | case10 | case11 | case12 =>
    rcases hmode with hmode | hmode <;> cases hmode
  | case3 | case4 => cases h
  | case13 body' cs _ ih =>
    rcases hmode with hmode | hmode <;> cases hmode
    exact (ih h (.inr rfl)).shorter
  | case15 body' c cs _ ih | case16 body' cs ih =>
    rcases hmode with hmode | hmode <;> cases hmode
    exact (ih h (.inl rfl)).shorter
  | case17 body' c cs _ ih =>
    rcases hmode with hmode | hmode <;> cases hmode
    exact (ih h (.inr rfl)).shorter
  | case14 body' cs hopen ih =>
    rcases hmode with hmode | hmode <;> cases hmode
    obtain ⟨token, htoken, h⟩ := bind_eq_ok.mp h
    obtain ⟨us, -, h⟩ := bind_eq_ok.mp h
    cases h
    exact ⟨[], token, us, rfl, by rwa [List.append_nil]⟩

/-- A percent sign in a directive begins a reference or ends the directive. -/
theorem scan_atPercent {body rest : List Char} {ts : List Token}
    (h : scan (.directive body) ('%' :: rest) = .ok ts) :
    ∃ after token us, ts = token :: us ∧ parseDirective (body.reverse ++ after) = .ok token ∧
      (after = [] ∨ ∃ more, after = '%' :: openBrace :: more) := by
  rw [scan, if_pos rfl] at h
  by_cases hopen : rest.head? = some openBrace ∧ closer? body.reverse = none
  · rw [if_pos hopen] at h
    obtain ⟨rest, rfl⟩ := List.head?_eq_some_iff.mp hopen.1
    have hne : openBrace ≠ closeBrace := by decide
    rw [scan, if_neg hne] at h
    obtain ⟨more, token, us, hts, htoken⟩ := scan_beginsDirective h (.inr rfl)
    exact ⟨_, token, us, hts, by simpa using htoken, .inr ⟨more, rfl⟩⟩
  · rw [if_neg hopen] at h
    obtain ⟨token, htoken, h⟩ := bind_eq_ok.mp h
    obtain ⟨us, -, h⟩ := bind_eq_ok.mp h
    cases h
    exact ⟨[], token, us, rfl, by rwa [List.append_nil], .inl rfl⟩

/-- A text leads up to a word: the scanner passes over it, and the splitter reads these
words from it and has begun with that one. -/
structure LeadsTo (cs : List Char) (words : List Word) (word : Option (List Atom)) : Prop where
  passable : Passable cs
  splits : ∀ text rest, splitFrom text (outside none) (cs ++ rest) =
    (splitFrom text (outside word) rest).map (words ++ ·)

namespace LeadsTo

variable {cs ds : List Char} {words more : List Word} {word : Option (List Atom)}

/-- After the keyword of a directive the words are split from the space on. -/
theorem splitWords (h : LeadsTo cs words word) {rest : List Char} :
    splitWords (' ' :: (cs ++ rest)) =
      (splitFrom (' ' :: (cs ++ rest)) (outside word) rest).map (words ++ ·) :=
  splitFrom_leadingSpace.trans (h.splits _ rest)

theorem nil : LeadsTo [] [] none := by
  refine ⟨.nil, fun text rest => ?_⟩
  rw [List.nil_append]
  cases splitFrom text (outside none) rest <;> rfl

theorem append (hcs : LeadsTo cs words none) (hds : LeadsTo ds more word) :
    LeadsTo (cs ++ ds) (words ++ more) word := by
  refine ⟨hcs.passable.append hds.passable, fun text rest => ?_⟩
  rw [List.append_assoc, hcs.splits, hds.splits, except_map_map]
  congr 1
  funext ws
  simp

theorem space : LeadsTo [' '] [] none := by
  refine ⟨.char (by decide) .nil, fun text rest => ?_⟩
  rw [List.cons_append, List.nil_append, splitFrom_leadingSpace]
  cases splitFrom text (outside none) rest <;> rfl

/-- A word of plain characters and the space after it. -/
theorem plains (hcs : ∀ c ∈ cs, Plain c) (hne : cs ≠ []) :
    LeadsTo (cs ++ [' ']) [cs.map .char] none := by
  refine ⟨?_, fun text rest => ?_⟩
  · exact (Passable.of_not_mem fun h => (hcs _ h).percent rfl).append (.char (by decide) .nil)
  · rw [List.append_assoc, splitFrom_plains hcs hne]
    refine (splitFrom_space _).trans ?_
    simp

/-- A printed word and the space after it. -/
theorem print {w : Word} (hw : w.Printable) : LeadsTo (Word.print w ++ [' ']) [w] none := by
  refine ⟨hw.passable.append (.char (by decide) .nil), fun text rest => ?_⟩
  rw [List.append_assoc, splitFrom_print hw]
  refine (splitFrom_space _).trans ?_
  simp

/-- A printed argument and the space after it. -/
theorem argument {key : List Char} (hkey : ∀ c ∈ key, Plain c) {w : Word} (hw : w.Printable) :
    LeadsTo (printArgument key w ++ [' ']) [argumentWord key w] none := by
  refine ⟨(passable_argument hkey hw).append (.char (by decide) .nil), fun text rest => ?_⟩
  rw [List.append_assoc, splitFrom_argument hkey hw]
  refine (splitFrom_space _).trans ?_
  simp

/-- The key of an argument. -/
theorem key {key : List Char} (hkey : ∀ c ∈ key, Plain c) :
    LeadsTo (key ++ ['=']) [] (some (argumentWord key []).reverse) := by
  have hplain := plain_append_equals hkey
  refine ⟨.of_not_mem fun h => (hplain _ h).percent rfl, fun text rest => ?_⟩
  rw [splitFrom_plains hplain (by simp)]
  simp only [argumentWord, List.map_append, List.map_cons, List.map_nil, Option.getD_none,
    List.append_nil]
  cases splitFrom text _ rest <;> rfl

end LeadsTo

/-- A percent sign in a word becomes a reference, or nothing can be read. -/
theorem scan_percent {keyword cs rest source : List Char}
    {read : List Char → List Word → Except Fault Token} {words : List Word}
    {word : Option (List Atom)} {w : Word} {ts : List Token} (hkeyword : Opens keyword read)
    (hcs : LeadsTo cs words word) (hw : w.ReadFrom source) (hpercent : Atom.char '%' ∈ w)
    (h : scan .text ('%' :: (keyword ++ (cs ++ (Word.print w ++ rest)))) = .ok ts) :
    ∃ body token us w' more, ts = token :: us ∧ w' ≠ w ∧
      read body (words ++ ((word.getD []).reverse ++ w') :: more) = .ok token := by
  -- The word up to its first percent sign.
  obtain ⟨v, u, rfl, hv⟩ := List.eq_append_cons_of_mem hpercent
  have hv : Word.Printable v := Word.ReadFrom.printable (fun r hr => hw r (List.mem_append_left _ hr)) hv
  have hprint : cs ++ (Word.print (v ++ .char '%' :: u) ++ rest) =
      cs ++ '"' :: v.flatMap Atom.print ++ '%' :: (u.flatMap Atom.print ++ '"' :: rest) := by
    simp [Word.print, Atom.print]
  have hpassable : Passable (cs ++ '"' :: v.flatMap Atom.print) :=
    hcs.passable.append (.char (by decide) hv.passable_atoms)
  rw [hkeyword.scan, hprint, scan_pass hpassable (List.mem_reverse.mpr hkeyword.space)] at h
  obtain ⟨after, token, us, hts, htoken, hafter⟩ := scan_atPercent h
  have hread : ((cs ++ '"' :: v.flatMap Atom.print).reverse ++ keyword.reverse).reverse ++ after =
      keyword ++ (cs ++ '"' :: (v.flatMap Atom.print ++ after)) := by simp
  rw [hread, hkeyword.parseDirective] at htoken
  obtain ⟨ws, hws, htoken⟩ := bind_eq_ok.mp htoken
  obtain ⟨vs, hvs, rfl⟩ := map_eq_ok.mp (hcs.splitWords ▸ hws)
  rcases hafter with rfl | ⟨more, rfl⟩
  · rw [List.append_nil] at hvs
    exact absurd hvs (splitFrom_unclosed hv)
  · obtain ⟨r, v', others, rfl⟩ := splitFrom_percent hv hvs
    have hdiffers : v ++ .reference r :: v' ≠ v ++ .char '%' :: u := by
      intro he
      cases List.append_cancel_left he
    rw [List.append_assoc] at htoken
    exact ⟨_, token, us, _, others, hts, hdiffers, htoken⟩

theorem literal?_eq_some {w : Word} {cs : List Char} (h : w.literal? = some cs) :
    w = cs.map .char := by
  induction w generalizing cs with
  | nil =>
    cases h
    rfl
  | cons a w ih =>
    cases a with
    | char c =>
      obtain ⟨ds, hds, rfl⟩ := Option.map_eq_some_iff.mp h
      rw [List.map_cons, ih hds]
    | reference r => cases h

theorem ofText?_eq_some {cs : List Char} {c : Comparison} (h : Comparison.ofText? cs = some c) :
    cs = c.spelling := by
  unfold Comparison.ofText? at h
  split_ifs at h with hequal hdifferent
  · cases h
    exact hequal
  · cases h
    exact hdifferent

theorem ofWords_eq {ws : List Word} {c : Condition} (h : Condition.ofWords ws = .ok c) :
    ws = c.words := by
  unfold Condition.ofWords at h
  split at h
  · cases h
  · cases h
    rfl
  · cases h
    rfl
  · rename_i left op right
    split at h
    · rename_i comparison hop
      cases h
      obtain ⟨cs, hcs, hcomparison⟩ := Option.bind_eq_some_iff.mp hop
      rw [Condition.words, literal?_eq_some hcs, ofText?_eq_some hcomparison]
    · cases h
  · cases h

/-- A condition with a percent sign in a word is not read as it was printed. -/
theorem scan_condition_percent {source rest : List Char} {c : Condition} {ts : List Token}
    (hc : c.ReadFrom source) (hpercent : ∃ w ∈ c.operands, Atom.char '%' ∈ w)
    (h : scan .text ('%' :: ("if ".toList ++ c.print ++ '%' :: rest)) = .ok ts) :
    ∃ words us, ts = .openBranch words :: us ∧ words ≠ c.words := by
  -- Up to the first word with a percent sign everything is read as it was printed.
  have hmisread {cs rest : List Char} {words more : List Word} {w : Word}
      (hcs : LeadsTo cs words none) (hw : w.ReadFrom source) (hpercent : Atom.char '%' ∈ w)
      (h : scan .text ('%' :: ("if ".toList ++ (cs ++ (Word.print w ++ rest)))) = .ok ts) :
      ∃ ws us, ts = .openBranch ws :: us ∧ ws ≠ words ++ w :: more := by
    obtain ⟨body, token, us, w', more', rfl, hne, htoken⟩ :=
      scan_percent .condition hcs hw hpercent h
    cases htoken
    exact ⟨_, us, rfl, fun he => hne (List.cons.inj (List.append_cancel_left he)).1⟩
  rw [List.append_assoc] at h
  cases c with
  | flag negated w =>
    have hw := hc.operands w List.mem_cons_self
    obtain ⟨w', hw', hpercent⟩ := hpercent
    obtain rfl := List.mem_singleton.mp hw'
    cases negated with
    | false => exact hmisread .nil hw hpercent h
    | true =>
      have hbang : Word.ReadFrom source (.char '!' :: w') :=
        Word.readFrom_cons.mpr ⟨(fun _ he => nomatch he), hw⟩
      exact hmisread .nil hbang (List.mem_cons_of_mem _ hpercent) h
  | compare left c right =>
    have hleft := hc.operands left List.mem_cons_self
    have hright := hc.operands right (List.mem_cons_of_mem _ List.mem_cons_self)
    have hspelling : c.spelling ≠ [] := by cases c <;> exact List.cons_ne_nil _ _
    by_cases hfree : Atom.char '%' ∈ left
    · rw [Condition.print, List.append_assoc] at h
      exact hmisread .nil hleft hfree h
    · have hpercent : Atom.char '%' ∈ right := by
        obtain ⟨w, hw, hpercent⟩ := hpercent
        rcases List.mem_cons.mp hw with rfl | hw
        · exact absurd hpercent hfree
        · exact List.mem_singleton.mp hw ▸ hpercent
      have hcs := (LeadsTo.print (hleft.printable hfree)).append
        (.plains (plain_spelling c) hspelling)
      have hprint : (Condition.compare left c right).print ++ '%' :: rest =
          Word.print left ++ [' '] ++ (c.spelling ++ [' ']) ++ (Word.print right ++ '%' :: rest) := by
        simp [Condition.print]
      exact hmisread hcs hright hpercent (hprint ▸ h)

theorem parseLoop_eq_ok {directive : List Char} {w : Word} {ws : List Word} {token : Token}
    (h : parseLoop directive (w :: ws) = .ok token) :
    ∃ var arguments, token = .openLoop var arguments ∧
      parseArguments directive ws = .ok arguments := by
  simp only [parseLoop] at h
  split at h
  · cases h
  · split_ifs at h
    obtain ⟨arguments, harguments, h⟩ := bind_eq_ok.mp h
    cases h
    exact ⟨_, arguments, rfl, harguments⟩

theorem mem_parseArguments {directive key : List Char} {ws : List Word} {w : Word}
    {arguments : List (String × Word)} (h : parseArguments directive ws = .ok arguments)
    (hkey : '=' ∉ key) (hw : argumentWord key w ∈ ws) : (String.ofList key, w) ∈ arguments := by
  induction ws generalizing arguments with
  | nil => cases hw
  | cons v ws ih =>
    simp only [parseArguments] at h
    split at h
    · cases h
    · rename_i key' value hsplit
      obtain ⟨rest, hrest, h⟩ := bind_eq_ok.mp h
      cases h
      rcases List.mem_cons.mp hw with rfl | hw
      · rw [splitKey?_argumentWord hkey] at hsplit
        cases hsplit
        exact List.mem_cons_self
      · exact List.mem_cons_of_mem _ (ih hrest hw)

/-- An argument has been read. -/
def LoopArguments.Given (a : LoopArguments) (key : String) (w : Word) : Prop :=
  (key = "from" ∧ a.first = some w) ∨ (key = "to" ∧ a.last = some w) ∨
    (key = "count" ∧ a.count = some w)

theorem collectArguments_given {var : String} {acc read : LoopArguments}
    {arguments : List (String × Word)} (h : collectArguments var acc arguments = .ok read)
    {key : String} {w : Word} (hw : acc.Given key w ∨ (key, w) ∈ arguments) : read.Given key w := by
  fun_induction collectArguments var acc arguments with
  | case1 =>
    cases h
    exact hw.resolve_right List.not_mem_nil
  | case2 | case3 | case5 | case7 | case9 => cases h
  | case4 acc value rest _ hnone ih | case6 acc value rest _ _ hnone ih
  | case8 acc value rest _ _ _ hnone ih =>
    -- What was read stays, since no argument is given twice.
    refine ih h ?_
    rcases hw with hw | hw
    · exact .inl (by grind [LoopArguments.Given])
    · rcases List.mem_cons.mp hw with he | hw
      · cases he
        exact .inl (by simp [LoopArguments.Given])
      · exact .inr hw

theorem mem_collected {head : LoopHead} {key : String} {w : Word} :
    (key, w) ∈ head.collected ↔
      (key = "from" ∧ head.first = some w) ∨ (key = String.ofList head.bound.key ∧
        head.bound.word = w) := by
  obtain ⟨var, first, bound⟩ := head
  cases first <;> simp [LoopHead.collected, LoopHead.arguments, eq_comm, and_comm]

theorem ofArguments_collects {var : String} {arguments : List (String × Word)} {head : LoopHead}
    (h : LoopHead.ofArguments var arguments = .ok head) {key : String} {w : Word}
    (hw : (key, w) ∈ arguments) : (key, w) ∈ head.collected := by
  obtain ⟨read, hread, h⟩ := bind_eq_ok.mp h
  have hgiven := collectArguments_given hread (.inr hw)
  rw [mem_collected]
  split at h
  · rename_i v hlast hcount
    cases h
    simpa [LoopArguments.Given, hlast, hcount, Bound.key, Bound.word] using hgiven
  · rename_i v hlast hcount
    cases h
    simpa [LoopArguments.Given, hlast, hcount, Bound.key, Bound.word] using hgiven
  · cases h
  · cases h

/-- The head of a loop has each argument once. -/
theorem collected_unique {head : LoopHead} {key : String} {v w : Word}
    (hv : (key, v) ∈ head.collected) (hw : (key, w) ∈ head.collected) : v = w := by
  have hkey : String.ofList head.bound.key ≠ "from" := by
    cases head.bound <;> simp [Bound.key]
  rw [mem_collected] at hv hw
  grind

/-- The head of a loop with a percent sign in a word is not read as it was printed. -/
theorem scan_loop_percent {source rest : List Char} {head : LoopHead} {ts : List Token}
    (hhead : head.ReadFrom source) (hpercent : ∃ w ∈ head.words, Atom.char '%' ∈ w)
    (h : scan .text ('%' :: ("for ".toList ++ head.print ++ '%' :: rest)) = .ok ts) :
    ∃ var arguments us, ts = .openLoop var arguments :: us ∧
      LoopHead.ofArguments var arguments ≠ .ok head := by
  have hmisread {cs key : List Char} {v w : Word} {words : List Word} (tail : List Char)
      (hcs : LeadsTo cs (v :: words) none) (hkey : ∀ c ∈ key, Plain c)
      (harg : (key, w) ∈ head.arguments) (hw : w.ReadFrom source) (hpercent : Atom.char '%' ∈ w)
      (hprint : head.print = cs ++ (printArgument key w ++ tail)) :
      ∃ var arguments us, ts = .openLoop var arguments :: us ∧
        LoopHead.ofArguments var arguments ≠ .ok head := by
    have hdirective : head.print ++ '%' :: rest =
        cs ++ (key ++ ['=']) ++ (Word.print w ++ (tail ++ '%' :: rest)) := by
      simp [hprint, printArgument]
    rw [List.append_assoc, hdirective] at h
    obtain ⟨body, token, us, w', more, rfl, hne, htoken⟩ :=
      scan_percent .loop (hcs.append (.key hkey)) hw hpercent h
    rw [List.append_nil, List.cons_append] at htoken
    obtain ⟨var, arguments, rfl, harguments⟩ := parseLoop_eq_ok htoken
    have hread : (String.ofList key, w') ∈ arguments :=
      mem_parseArguments harguments (equals_not_mem_key head _ harg) (by simp [argumentWord])
    refine ⟨var, arguments, us, rfl, fun hok => hne ?_⟩
    exact collected_unique (ofArguments_collects hok hread) (List.mem_map_of_mem harg)
  obtain ⟨hplain, hvar⟩ := plain_of_isIdentifier hhead.var
  have hstart : LeadsTo (head.var.toList ++ [' ']) [head.var.toList.map .char] none :=
    .plains hplain hvar
  have hfirstRead (w : Word) (hfirst : head.first = some w) : w.ReadFrom source :=
    hhead.words w (List.mem_append_left _ (Option.mem_toList.mpr hfirst))
  by_cases hspoilt : ∃ w, head.first = some w ∧ Atom.char '%' ∈ w
  · obtain ⟨w, hfirst, hpercent⟩ := hspoilt
    refine hmisread (' ' :: printArgument head.bound.key head.bound.word) hstart plain_from
      (List.mem_append_left _ (by simp [hfirst])) (hfirstRead w hfirst) hpercent ?_
    simp [LoopHead.print, hfirst]
  · -- The first index is read as it was printed, so the percent sign is in the bound.
    have hbound : Atom.char '%' ∈ head.bound.word := by
      obtain ⟨w, hw, hpercent⟩ := hpercent
      rcases List.mem_append.mp hw with hw | hw
      · exact absurd ⟨w, Option.mem_toList.mp hw, hpercent⟩ hspoilt
      · exact List.mem_singleton.mp hw ▸ hpercent
    have hlast : (head.bound.key, head.bound.word) ∈ head.arguments :=
      List.mem_append_right _ List.mem_cons_self
    have hw := hhead.words _ (List.mem_append_right _ (List.mem_singleton.mpr rfl))
    cases hfirst : head.first with
    | none =>
      refine hmisread [] (hstart.append .space) (plain_key head.bound) hlast hw hbound ?_
      simp [LoopHead.print, hfirst]
    | some w =>
      have hprintable := (hfirstRead w hfirst).printable fun hpercent =>
        hspoilt ⟨w, hfirst, hpercent⟩
      refine hmisread [] (hstart.append (.argument plain_from hprintable)) (plain_key head.bound)
        hlast hw hbound ?_
      simp [LoopHead.print, hfirst]

end MediaPipeline.Template
