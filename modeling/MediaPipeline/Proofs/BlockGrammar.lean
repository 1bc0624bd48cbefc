import Mathlib.Data.List.Nodup
import MediaPipeline.Proofs.MisreadDirectives

/-!
# The grammar of blocks

Which token lists are the tokens of a template, said by a grammar (`WellNested`) that knows
nothing of open blocks: loops and branches stand around lists that are well nested
themselves. The parser accepts exactly these lists, and its tree, written out as tokens
again, is the list it was read from, but for the order of a loop's arguments and for a second
branch without content (`parse_wellNested`).

A word is a list of atoms, so that its text is never empty or cut in two.
-/

namespace MediaPipeline.Template

/-! ## The grammar -/

/-- The words of a condition: one word, or two with a comparison between them. -/
inductive ConditionWords : List Word → Prop
  | flag (w : Word) : ConditionWords [w]
  | compare (left right : Word) {op : Word}
      (hop : op.literal? = some ['=', '='] ∨ op.literal? = some ['!', '=']) :
    ConditionWords [left, op, right]

/-- How often an argument is given. -/
def timesGiven (key : String) (arguments : List (String × Word)) : Nat :=
  (arguments.map Prod.fst).count key

/-- The arguments of a loop: `from` at most once, one of `to` and `count` and that once, and
no other. No value reads the loop's own variable. -/
structure LoopWords (var : String) (arguments : List (String × Word)) : Prop where
  first : timesGiven "from" arguments ≤ 1
  bound : timesGiven "to" arguments + timesGiven "count" arguments = 1
  known : ∀ a ∈ arguments, a.1 = "from" ∨ a.1 = "to" ∨ a.1 = "count"
  independent : ∀ a ∈ arguments, a.2.dependsOn var = false

/-- Token lists in which each loop and each branch has its end. -/
inductive WellNested : List Token → Prop
  | nil : WellNested []
  | text (cs : List Char) {ts : List Token} (h : WellNested ts) : WellNested (.text cs :: ts)
  | reference (r : Reference) {ts : List Token} (h : WellNested ts) :
    WellNested (.reference r :: ts)
  | loop {var : String} {arguments : List (String × Word)} {body ts : List Token}
      (hhead : LoopWords var arguments) (hbody : WellNested body) (h : WellNested ts) :
    WellNested (.openLoop var arguments :: (body ++ .close .endFor :: ts))
  | branch {words : List Word} {yes ts : List Token} (hwords : ConditionWords words)
      (hyes : WellNested yes) (h : WellNested ts) :
    WellNested (.openBranch words :: (yes ++ .close .endIf :: ts))
  | choice {words : List Word} {yes no ts : List Token} (hwords : ConditionWords words)
      (hyes : WellNested yes) (hno : WellNested no) (h : WellNested ts) :
    WellNested (.openBranch words ::
      (yes ++ .close .otherwise :: (no ++ .close .endIf :: ts)))

/-! ## Trees as tokens -/

/-- A tree written out as tokens. -/
def Block.tokens : Block → List Token
  | .done => []
  | .text cs rest => .text cs :: rest.tokens
  | .reference r rest => .reference r :: rest.tokens
  | .loop head body rest =>
    .openLoop head.var head.collected :: (body.tokens ++ .close .endFor :: rest.tokens)
  | .branch condition yes no rest =>
    .openBranch condition.words :: (yes.tokens ++
      ((if no = .done then [] else .close .otherwise :: no.tokens) ++
        .close .endIf :: rest.tokens))

/-- The same token, with the arguments of a loop in any order. -/
inductive Token.Alike : Token → Token → Prop
  | same (t : Token) : Alike t t
  | reordered (var : String) {arguments arguments' : List (String × Word)}
      (h : arguments.Perm arguments') :
    Alike (.openLoop var arguments) (.openLoop var arguments')

/-- The first list is the second, but for the order of arguments, and for an `%else%` directly
before its `%endif%`, which may be left out. -/
inductive WritesOut : List Token → List Token → Prop
  | nil : WritesOut [] []
  | cons {t u : Token} {ts us : List Token} (ht : t.Alike u) (h : WritesOut ts us) :
    WritesOut (t :: ts) (u :: us)
  | noContent {ts us : List Token} (h : WritesOut ts us) :
    WritesOut (.close .endIf :: ts) (.close .otherwise :: .close .endIf :: us)

theorem WritesOut.append {ts ts' us us' : List Token} (h : WritesOut ts us)
    (h' : WritesOut ts' us') : WritesOut (ts ++ ts') (us ++ us') := by
  induction h with
  | nil => exact h'
  | cons ht _ ih => exact .cons ht ih
  | noContent _ ih => exact .noContent ih

/-- The same token in front of both lists. -/
theorem WritesOut.same (t : Token) {ts us : List Token} (h : WritesOut ts us) :
    WritesOut (t :: ts) (t :: us) :=
  .cons (.same t) h

/-! ## Heads -/

theorem ConditionWords.ofWords {ws : List Word} (h : ConditionWords ws) :
    ∃ c, Condition.ofWords ws = .ok c := by
  cases h with
  | flag w =>
    unfold Condition.ofWords
    split
    all_goals simp_all
  | @compare left right op hop =>
    have hcomparison : ∃ c, (Word.literal? op).bind Comparison.ofText? = some c := by
      rcases hop with hop | hop
      · exact ⟨.equal, by rw [hop]; rfl⟩
      · exact ⟨.different, by rw [hop]; rfl⟩
    obtain ⟨c, hc⟩ := hcomparison
    exact ⟨.compare left c right, by simp only [Condition.ofWords, hc]⟩

theorem conditionWords_words (c : Condition) : ConditionWords c.words := by
  cases c with
  | flag negated w => cases negated <;> exact .flag _
  | compare left c right =>
    refine .compare left right ?_
    rw [literal?_map_char]
    cases c with
    | equal => exact .inl rfl
    | different => exact .inr rfl

/-- The arguments that were read, with their keys. -/
def LoopArguments.entries (a : LoopArguments) : List (String × Word) :=
  (a.first.map ("from", ·)).toList ++
    ((a.last.map ("to", ·)).toList ++ (a.count.map ("count", ·)).toList)

section Arguments

variable {acc : LoopArguments} {w : Word}

theorem entries_first (h : acc.first.isSome ≠ true) :
    LoopArguments.entries { acc with first := some w } = ("from", w) :: acc.entries := by
  obtain ⟨first, last, count⟩ := acc
  obtain rfl : first = none := by simpa using h
  rfl

theorem entries_last (h : acc.last.isSome ≠ true) :
    (LoopArguments.entries { acc with last := some w }).Perm (("to", w) :: acc.entries) := by
  obtain ⟨first, last, count⟩ := acc
  obtain rfl : last = none := by simpa using h
  exact List.perm_middle

theorem entries_count (h : acc.count.isSome ≠ true) :
    (LoopArguments.entries { acc with count := some w }).Perm (("count", w) :: acc.entries) := by
  obtain ⟨first, last, count⟩ := acc
  obtain rfl : count = none := by simpa using h
  have hlast : (LoopArguments.entries ⟨first, last, some w⟩) =
      LoopArguments.entries ⟨first, last, none⟩ ++ [("count", w)] := by
    simp [LoopArguments.entries]
  rw [hlast]
  exact List.perm_append_singleton _ _

/-- The argument at hand goes from the rest to those that were read. -/
theorem entries_move {acc' : LoopArguments} {entry : String × Word}
    (h : acc'.entries.Perm (entry :: acc.entries)) (rest : List (String × Word)) :
    (acc.entries ++ entry :: rest).Perm (acc'.entries ++ rest) :=
  List.perm_middle.trans (h.symm.append_right rest)

variable {var : String} {arguments : List (String × Word)}

/-- Reading the arguments keeps them all. -/
theorem collectArguments_perm {read : LoopArguments}
    (h : collectArguments var acc arguments = .ok read) :
    (acc.entries ++ arguments).Perm read.entries ∧
      ∀ a ∈ arguments, a.2.dependsOn var = false := by
  fun_induction collectArguments var acc arguments with
  | case1 acc =>
    cases h
    exact ⟨by rw [List.append_nil], fun a ha => absurd ha List.not_mem_nil⟩
  | case2 | case3 | case5 | case7 | case9 => cases h
  | case4 acc value rest hvar hnone ih =>
    obtain ⟨hrest, hindependent⟩ := ih h
    refine ⟨(entries_move (.of_eq (entries_first hnone)) rest).trans hrest, ?_⟩
    exact List.forall_mem_cons.mpr ⟨Bool.eq_false_iff.mpr hvar, hindependent⟩
  | case6 acc value rest hvar hnone _ ih =>
    obtain ⟨hrest, hindependent⟩ := ih h
    refine ⟨(entries_move (entries_last hnone) rest).trans hrest, ?_⟩
    exact List.forall_mem_cons.mpr ⟨Bool.eq_false_iff.mpr hvar, hindependent⟩
  | case8 acc value rest hvar hnone _ _ ih =>
    obtain ⟨hrest, hindependent⟩ := ih h
    refine ⟨(entries_move (entries_count hnone) rest).trans hrest, ?_⟩
    exact List.forall_mem_cons.mpr ⟨Bool.eq_false_iff.mpr hvar, hindependent⟩

/-- Arguments that may be given are read, as long as none is given twice. -/
theorem collectArguments_reads
    (hknown : ∀ a ∈ arguments, a.1 = "from" ∨ a.1 = "to" ∨ a.1 = "count")
    (hindependent : ∀ a ∈ arguments, a.2.dependsOn var = false)
    (honce : ((acc.entries ++ arguments).map Prod.fst).Nodup) :
    ∃ read, collectArguments var acc arguments = .ok read := by
  have hnew {acc : LoopArguments} {key : String} {value : Word} {rest : List (String × Word)}
      (honce : ((acc.entries ++ (key, value) :: rest).map Prod.fst).Nodup) :
      key ∉ acc.entries.map Prod.fst := by
    rw [List.map_append, List.map_cons] at honce
    exact fun hmem => List.disjoint_of_nodup_append honce hmem List.mem_cons_self
  have hmove {acc acc' : LoopArguments} {entry : String × Word} {rest : List (String × Word)}
      (honce : ((acc.entries ++ entry :: rest).map Prod.fst).Nodup)
      (h : acc'.entries.Perm (entry :: acc.entries)) :
      ((acc'.entries ++ rest).map Prod.fst).Nodup :=
    ((entries_move h rest).map Prod.fst).nodup_iff.mp honce
  fun_induction collectArguments var acc arguments with
  | case1 acc => exact ⟨acc, rfl⟩
  | case2 acc key value rest hvar =>
    exact absurd hvar (Bool.eq_false_iff.mp (hindependent _ List.mem_cons_self))
  | case3 acc value rest _ hsome | case5 acc value rest _ hsome | case7 acc value rest _ hsome =>
    obtain ⟨v, hv⟩ := Option.isSome_iff_exists.mp hsome
    exact absurd (by simp [LoopArguments.entries, hv]) (hnew honce)
  | case9 acc key value rest _ hfrom hto hcount =>
    exact absurd (hknown _ List.mem_cons_self) (by simp [hfrom, hto, hcount])
  | case4 acc value rest hvar hnone ih =>
    exact ih (List.forall_mem_cons.mp hknown).2 (List.forall_mem_cons.mp hindependent).2
      (hmove honce (.of_eq (entries_first hnone)))
  | case6 acc value rest hvar hnone _ ih =>
    exact ih (List.forall_mem_cons.mp hknown).2 (List.forall_mem_cons.mp hindependent).2
      (hmove honce (entries_last hnone))
  | case8 acc value rest hvar hnone _ _ ih =>
    exact ih (List.forall_mem_cons.mp hknown).2 (List.forall_mem_cons.mp hindependent).2
      (hmove honce (entries_count hnone))

theorem timesGiven_perm {arguments' : List (String × Word)} (h : arguments.Perm arguments')
    (key : String) : timesGiven key arguments = timesGiven key arguments' :=
  (h.map Prod.fst).count_eq key

/-- The head that is made of the arguments has them all. -/
theorem collected_perm {head : LoopHead} (h : LoopHead.ofArguments var arguments = .ok head) :
    head.var = var ∧ head.collected.Perm arguments ∧
      ∀ a ∈ arguments, a.2.dependsOn var = false := by
  obtain ⟨⟨first, last, count⟩, hread, h⟩ := bind_eq_ok.mp h
  obtain ⟨hperm, hindependent⟩ := collectArguments_perm hread
  obtain ⟨hvar, hcollected⟩ :
      head.var = var ∧ head.collected = LoopArguments.entries ⟨first, last, count⟩ := by
    cases last with
    | none =>
      cases count with
      | none => cases h
      | some w =>
        cases h
        cases first <;> exact ⟨rfl, rfl⟩
    | some w =>
      cases count with
      | none =>
        cases h
        cases first <;> exact ⟨rfl, rfl⟩
      | some w' => cases h
  exact ⟨hvar, hcollected ▸ hperm.symm, hindependent⟩

theorem LoopWords.nodup_keys (h : LoopWords var arguments) : (arguments.map Prod.fst).Nodup := by
  refine List.nodup_iff_count_le_one.mpr fun key => ?_
  by_cases hkey : key ∈ arguments.map Prod.fst
  · obtain ⟨a, ha, rfl⟩ := List.mem_map.mp hkey
    have hbound := h.bound
    rcases h.known a ha with hknown | hknown | hknown <;> rw [hknown]
    · exact h.first
    · exact show timesGiven "to" arguments ≤ 1 by omega
    · exact show timesGiven "count" arguments ≤ 1 by omega
  · rw [List.count_eq_zero_of_not_mem hkey]
    exact Nat.zero_le 1

/-- A head is made exactly of the arguments that a loop may have. -/
theorem ofArguments_ok_iff :
    (∃ head, LoopHead.ofArguments var arguments = .ok head) ↔ LoopWords var arguments := by
  constructor
  · rintro ⟨head, h⟩
    obtain ⟨-, hperm, hindependent⟩ := collected_perm h
    have hkeys : timesGiven "from" head.collected ≤ 1 ∧
        timesGiven "to" head.collected + timesGiven "count" head.collected = 1 ∧
        ∀ a ∈ head.collected, a.1 = "from" ∨ a.1 = "to" ∨ a.1 = "count" := by
      obtain ⟨v, first, bound⟩ := head
      cases first <;> cases bound <;>
        simp [timesGiven, LoopHead.collected, LoopHead.arguments, Bound.key]
    rw [timesGiven_perm hperm, timesGiven_perm hperm, timesGiven_perm hperm] at hkeys
    exact ⟨hkeys.1, hkeys.2.1, fun a ha => hkeys.2.2 a (hperm.mem_iff.mpr ha), hindependent⟩
  · intro h
    obtain ⟨⟨first, last, count⟩, hread⟩ :
        ∃ read, collectArguments var ⟨none, none, none⟩ arguments = .ok read :=
      collectArguments_reads h.known h.independent h.nodup_keys
    have hperm : arguments.Perm _ := (collectArguments_perm hread).1
    have hbound := h.bound
    rw [timesGiven_perm hperm, timesGiven_perm hperm] at hbound
    unfold LoopHead.ofArguments
    rw [hread]
    cases last with
    | none =>
      cases count with
      | none => cases first <;> simp [timesGiven, LoopArguments.entries] at hbound
      | some w => exact ⟨⟨var, first, .count w⟩, rfl⟩
    | some w =>
      cases count with
      | none => exact ⟨⟨var, first, .last w⟩, rfl⟩
      | some w' => cases first <;> simp [timesGiven, LoopArguments.entries] at hbound

end Arguments

/-! ## The parser and the grammar -/

/-- What is well nested is parsed into the body at hand, whatever is open around it. -/
theorem WellNested.parses {ts : List Token} (h : WellNested ts) :
    ∃ b, WritesOut b.tokens ts ∧ ∀ body frames rest,
      parseFrom body frames (ts ++ rest) = parseFrom (body ++ b) frames rest := by
  induction h with
  | nil => exact ⟨.done, .nil, fun body _ _ => by rw [Block.append_done]; rfl⟩
  | text cs _ ih =>
    obtain ⟨b, hb, hparse⟩ := ih
    refine ⟨.text cs b, hb.same _, fun body frames rest => ?_⟩
    refine (hparse _ _ _).trans ?_
    rw [Block.append_assoc]
    rfl
  | reference r _ ih =>
    obtain ⟨b, hb, hparse⟩ := ih
    refine ⟨.reference r b, hb.same _, fun body frames rest => ?_⟩
    refine (hparse _ _ _).trans ?_
    rw [Block.append_assoc]
    rfl
  | @loop var arguments bodyTokens ts hhead _ _ ihbody ih =>
    obtain ⟨head, hhead⟩ := ofArguments_ok_iff.mpr hhead
    obtain ⟨hvar, hperm, -⟩ := collected_perm hhead
    obtain ⟨inner, hinner, hparseInner⟩ := ihbody
    obtain ⟨b, hb, hparse⟩ := ih
    refine ⟨.loop head inner b, ?_, fun body frames rest => ?_⟩
    · exact .cons (hvar ▸ .reordered _ hperm) (hinner.append (hb.same _))
    · rw [List.cons_append, List.append_assoc, parseFrom, List.cons_append, hparseInner, parseFrom,
        Block.done_append, closeFrame, if_pos rfl, hhead]
      refine (hparse _ _ _).trans ?_
      rw [Block.append_assoc]
      rfl
  | @branch words yesTokens ts hwords _ _ ihyes ih =>
    obtain ⟨condition, hcondition⟩ := hwords.ofWords
    obtain rfl := ofWords_eq hcondition
    obtain ⟨yes, hyes, hparseYes⟩ := ihyes
    obtain ⟨b, hb, hparse⟩ := ih
    refine ⟨.branch condition yes .done b, ?_, fun body frames rest => ?_⟩
    · exact .same _ (hyes.append (hb.same _))
    · rw [List.cons_append, List.append_assoc, parseFrom, hcondition, List.cons_append]
      refine (hparseYes _ _ _).trans ?_
      rw [Block.done_append, parseFrom, closeFrame]
      refine (hparse _ _ _).trans ?_
      rw [Block.append_assoc]
      rfl
  | @choice words yesTokens noTokens ts hwords _ _ _ ihyes ihno ih =>
    obtain ⟨condition, hcondition⟩ := hwords.ofWords
    obtain rfl := ofWords_eq hcondition
    obtain ⟨yes, hyes, hparseYes⟩ := ihyes
    obtain ⟨no, hno, hparseNo⟩ := ihno
    obtain ⟨b, hb, hparse⟩ := ih
    refine ⟨.branch condition yes no b, .same _ (hyes.append ?_), fun body frames rest => ?_⟩
    · by_cases hdone : no = .done
      · subst hdone
        cases hno
        exact .noContent hb
      · rw [if_neg hdone]
        exact .same _ (hno.append (hb.same _))
    · rw [List.cons_append, List.append_assoc, parseFrom, hcondition, List.cons_append,
        List.append_assoc]
      refine (hparseYes _ _ _).trans ?_
      rw [Block.done_append, parseFrom, closeFrame]
      refine (hparseNo _ _ _).trans ?_
      rw [Block.done_append, List.cons_append, parseFrom, closeFrame, if_pos rfl]
      refine (hparse _ _ _).trans ?_
      rw [Block.append_assoc]
      rfl

/-- What may follow inside of open blocks: the rest of each of them, innermost first. -/
inductive Continues : List Frame → List Token → Prop
  | outermost {ts : List Token} (h : WellNested ts) : Continues [] ts
  | loop {var : String} {arguments : List (String × Word)} {before : Block} {frames : List Frame}
      {body ts : List Token} (hhead : LoopWords var arguments) (hbody : WellNested body)
      (h : Continues frames ts) :
    Continues (.loop var arguments before :: frames) (body ++ .close .endFor :: ts)
  | branch {condition : Condition} {before : Block} {frames : List Frame} {yes ts : List Token}
      (hyes : WellNested yes) (h : Continues frames ts) :
    Continues (.branch condition before :: frames) (yes ++ .close .endIf :: ts)
  | choice {condition : Condition} {before : Block} {frames : List Frame}
      {yes no ts : List Token} (hyes : WellNested yes) (hno : WellNested no)
      (h : Continues frames ts) :
    Continues (.branch condition before :: frames)
      (yes ++ .close .otherwise :: (no ++ .close .endIf :: ts))
  | otherwise {condition : Condition} {yes before : Block} {frames : List Frame}
      {no ts : List Token} (hno : WellNested no) (h : Continues frames ts) :
    Continues (.otherwise condition yes before :: frames) (no ++ .close .endIf :: ts)

/-- Tokens that may stand in front of what is well nested may stand in front of the rest of
a block. -/
theorem Continues.prepend {frames : List Frame} {ts : List Token} (h : Continues frames ts)
    (us : List Token) (hus : ∀ ts, WellNested ts → WellNested (us ++ ts)) :
    Continues frames (us ++ ts) := by
  cases h with
  | outermost h => exact .outermost (hus _ h)
  | loop hhead hbody h =>
    rw [← List.append_assoc]
    exact .loop hhead (hus _ hbody) h
  | branch hyes h =>
    rw [← List.append_assoc]
    exact .branch (hus _ hyes) h
  | choice hyes hno h =>
    rw [← List.append_assoc]
    exact .choice (hus _ hyes) hno h
  | otherwise hno h =>
    rw [← List.append_assoc]
    exact .otherwise (hus _ hno) h

theorem closeFrame_continues {closer : Closer} {body body' : Block} {frames frames' : List Frame}
    {ts : List Token} (h : closeFrame closer body frames = .ok (body', frames'))
    (hts : Continues frames' ts) : Continues frames (.close closer :: ts) := by
  rcases frames with _ | ⟨frame, frames⟩
  · cases h
  cases frame with
  | loop var arguments before =>
    simp only [closeFrame] at h
    split_ifs at h with hcloser
    obtain ⟨head, hhead, h⟩ := bind_eq_ok.mp h
    cases h
    subst hcloser
    exact .loop (ofArguments_ok_iff.mp ⟨head, hhead⟩) .nil hts
  | branch condition before =>
    cases closer with
    | endIf =>
      cases h
      exact .branch .nil hts
    | otherwise =>
      cases h
      cases hts with
      | otherwise hno h => exact .choice .nil hno h
    | endFor => cases h
  | otherwise condition yes before =>
    simp only [closeFrame] at h
    split_ifs at h with hcloser
    cases h
    subst hcloser
    exact .otherwise .nil hts

/-- What is parsed to its end inside of open blocks is the rest of them. -/
theorem parseFrom_continues {body b : Block} {frames : List Frame} {ts : List Token}
    (h : parseFrom body frames ts = .ok b) : Continues frames ts := by
  induction ts generalizing body frames with
  | nil =>
    cases frames with
    | nil => exact .outermost .nil
    | cons frame frames => cases h
  | cons token ts ih =>
    cases token with
    | text cs => exact (ih h).prepend [.text cs] fun _ => .text cs
    | reference r => exact (ih h).prepend [.reference r] fun _ => .reference r
    | openLoop var arguments =>
      cases ih h with
      | @loop _ _ _ _ inner ts hhead hbody hts =>
        have hopen := hts.prepend (.openLoop var arguments :: (inner ++ [.close .endFor]))
          fun ts hts => by simpa using WellNested.loop hhead hbody hts
        simpa using hopen
    | openBranch words =>
      obtain ⟨condition, hcondition, h⟩ := bind_eq_ok.mp h
      have hwords : ConditionWords words := ofWords_eq hcondition ▸ conditionWords_words condition
      cases ih h with
      | @branch _ _ _ yes ts hyes hts =>
        have hopen := hts.prepend (.openBranch words :: (yes ++ [.close .endIf]))
          fun ts hts => by simpa using WellNested.branch hwords hyes hts
        simpa using hopen
      | @choice _ _ _ yes no ts hyes hno hts =>
        have hopen := hts.prepend
          (.openBranch words :: (yes ++ .close .otherwise :: (no ++ [.close .endIf])))
          fun ts hts => by simpa using WellNested.choice hwords hyes hno hts
        simpa using hopen
    | close closer =>
      obtain ⟨⟨body', frames'⟩, hclose, h⟩ := bind_eq_ok.mp h
      exact closeFrame_continues hclose (ih h)

/-- The parser accepts exactly the well-nested lists, and its tree writes them out again. -/
theorem parse_wellNested (ts : List Token) :
    match Block.parse ts with
    | .ok tree => WellNested ts ∧ WritesOut tree.tokens ts
    | .error _ => ¬ WellNested ts := by
  have hparses (h : WellNested ts) : ∃ b, Block.parse ts = .ok b ∧ WritesOut b.tokens ts := by
    obtain ⟨b, hb, hparse⟩ := h.parses
    have hts := hparse .done [] []
    rw [List.append_nil, Block.done_append] at hts
    exact ⟨b, hts, hb⟩
  cases hparse : Block.parse ts with
  | ok tree =>
    cases parseFrom_continues hparse with
    | outermost h =>
      obtain ⟨b, hb, hwrites⟩ := hparses h
      obtain rfl := Except.ok.inj (hb.symm.trans hparse)
      exact ⟨h, hwrites⟩
  | error fault =>
    intro h
    obtain ⟨b, hb, -⟩ := hparses h
    rw [hb] at hparse
    cases hparse

end MediaPipeline.Template
