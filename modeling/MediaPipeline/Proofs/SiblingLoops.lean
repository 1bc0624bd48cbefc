import MediaPipeline.Proofs.LoopRounds
import MediaPipeline.Proofs.SiblingListings
import MediaPipeline.Proofs.WrittenReferences

/-!
# Loops over siblings

A loop that counts the siblings of a level and reads them by its index makes one round for each
of the identifiers that are listed, in their order (`VisitsSiblings`). The listing does not
change on the way, since a template writes no more than dynamic parameters (`outlasts_lists`).
`siblings_agree` puts this together with what look-ups say of the listing.
-/

namespace MediaPipeline

open Template

/-! ## Rounds that succeed -/

/-- If the action does the same in every round, apart from the index, so do the rounds. -/
theorem Rounds.run_map {S F O : Type} {note : Int → S → S} {act : S → Except F O × S}
    {I : S → Prop} {out : Int → O} {is : List Int} (hnote : ∀ i ∈ is, ∀ s, I s → I (note i s))
    (hact : ∀ i ∈ is, ∀ s, I s → act (note i s) = (.ok (out i), note i s)) {s : S} (hs : I s) :
    ∃ t, run note act is s = (.ok (is.map out), t) := by
  induction is generalizing s with
  | nil => exact ⟨s, rfl⟩
  | cons i is ih =>
    obtain ⟨hi, his⟩ := List.forall_mem_cons.mp hnote
    obtain ⟨ha, has⟩ := List.forall_mem_cons.mp hact
    obtain ⟨t, ht⟩ := ih his has (hi s hs)
    refine ⟨t, ?_⟩
    rw [run, ha s hs]
    dsimp only
    rw [ht]
    rfl

/-! ## The loop as it is written -/

namespace Template

/-- The head of a loop that counts the siblings of a kind. -/
def countingHead (kind : ContextKind) (var : String) : LoopHead :=
  ⟨var, none, .count [.reference (.written kind none "num")]⟩

/-- The directive of that loop, after its keyword. -/
def countingDirective (kind : ContextKind) (var : String) : List Char :=
  var.toList ++ ' ' :: ("count=".toList ++ (Reference.written kind none "num").spelling)

/-- The identifier of the sibling at the index that a variable holds. -/
def siblingReference (kind : ContextKind) (var : String) : Reference :=
  .written kind (some (.variable var)) "uuid"

section Written

variable {kind : ContextKind} {var : String}

theorem parse_number (kind : ContextKind) :
    Reference.parse (Reference.written kind none "num").body = .ok (.written kind none "num") :=
  parse_written (fun _ h => nomatch h) (fun _ h => nomatch h) (by decide)

theorem closed_number (kind : ContextKind) :
    closeBrace ∉ (Reference.written kind none "num").body :=
  closeBrace_not_mem_written (fun _ h => nomatch h) (by decide)

theorem parseDirective_counting (kind : ContextKind) (hvar : isIdentifier var.toList = true) :
    parseDirective ("for ".toList ++ countingDirective kind var) =
      .ok (.openLoop var (countingHead kind var).collected) := by
  obtain ⟨hplain, hne⟩ := plain_of_isIdentifier hvar
  have hkey : ∀ c ∈ "count=".toList, Plain c :=
    plain_append_equals (plain_key (countingHead kind var).bound)
  have hwords : splitWords (' ' :: countingDirective kind var) = .ok (var.toList.map .char ::
      (countingHead kind var).arguments.map fun a => argumentWord a.1 a.2) := by
    have hargument {text : List Char} :
        splitFrom text (outside none)
            ("count=".toList ++ ((Reference.written kind none "num").spelling ++ [])) = _ :=
      splitFrom_plains hkey (by decide) none
    have hnumber {text : List Char} {acc : List Atom} :
        splitFrom text (outside (some acc)) ((Reference.written kind none "num").spelling ++ []) =
          splitFrom text (outside (some (.reference (.written kind none "num") :: acc))) [] :=
      splitFrom_spelling rfl (parse_number kind) (closed_number kind)
    rw [List.append_nil] at hargument hnumber
    rw [splitWords]
    refine splitFrom_leadingSpace.trans ?_
    rw [countingDirective, splitFrom_plains hplain hne, splitFrom_space, hargument, hnumber,
      splitFrom_last]
    simp [Except.map, countingHead, LoopHead.arguments, argumentWord, Bound.key, Bound.word]
  rw [Opens.loop.parseDirective, hwords]
  simp only [bind, Except.bind, pure, Except.pure, parseLoop, literal?_map_char, hvar, if_true,
    parseArguments_words _ (equals_not_mem_key _), String.ofList_toList, LoopHead.collected]

/-- The loop is read as it is written. -/
theorem scan_counting (kind : ContextKind) (hvar : isIdentifier var.toList = true)
    {after : List Char} (hafter : after.head? ≠ some openBrace) :
    scan .text ('%' :: ("for ".toList ++ countingDirective kind var ++ '%' :: after)) =
      (scan .text after).map (.openLoop var (countingHead kind var).collected :: ·) := by
  have hpercent : '%' ∉ var.toList := fun h => ((plain_of_isIdentifier hvar).1 _ h).percent rfl
  have hnumber := Passable.reference (closed_number kind) .nil
  rw [List.append_nil] at hnumber
  have hpass : Passable (countingDirective kind var) :=
    (Passable.of_not_mem hpercent).append
      (.char (by decide) ((Passable.of_not_mem (by decide)).append hnumber))
  exact scan_opening .loop hpass (parseDirective_counting kind hvar) hafter

theorem ofArguments_counting (hkind : kind.isIndexed = true) (var : String) :
    LoopHead.ofArguments var (countingHead kind var).collected = .ok (countingHead kind var) := by
  have hindependent : ∀ w ∈ (countingHead kind var).words, w.dependsOn var = false := by
    intro w hw
    obtain rfl : w = [.reference (.written kind none "num")] := by
      simpa [LoopHead.words, countingHead, Bound.word] using hw
    cases kind with
    | dynamic | tmp => cases hkind
    | segment | sequence | resource => rfl
  exact ofArguments_collected hindependent

end Written

end Template

/-! ## What its parts are evaluated to -/

theorem Text.plain_showNat (n : Nat) : ∀ c ∈ (showNat n).toList, Plain c := fun _ hc =>
  plain_of_isAlphanum (by simp [Char.isAlphanum, isDigit_of_mem_showNat hc])

namespace Store

section Lookups

variable {s : Store} {kind : ContextKind} {scope : Scope} {ids : List String}

/-- Look-ups at a level with siblings do not read the flat parameters. -/
theorem lookup_flat (hkind : kind.isIndexed = true) (s : Store) (dynamic tmp : ParamMap)
    (scope : Scope) (selector : Selector) (name : String) :
    ({ s with dynamic := dynamic, tmp := tmp } : Store).lookup kind scope selector name =
      s.lookup kind scope selector name := by
  cases kind with
  | dynamic | tmp => cases hkind
  | segment | sequence | resource => rfl

theorem Lists.congr {s' : Store} (h : s.Lists kind scope ids)
    (hlookup : ∀ selector name,
      s'.lookup kind scope selector name = s.lookup kind scope selector name) :
    s'.Lists kind scope ids where
  distinct := h.distinct
  uuid i hi := (hlookup _ _).trans (h.uuid i hi)
  index i hi := (hlookup _ _).trans (h.index i hi)
  beyond i hi name hname := (hlookup _ _).trans (h.beyond i hi name hname)
  num selector := (hlookup _ _).trans (h.num selector)
  own id hid hmem := by
    obtain ⟨i, huuid, hindex, hunique⟩ := h.own id hid hmem
    exact ⟨i, (hlookup _ _).trans huuid, (hlookup _ _).trans hindex, hunique⟩

/-- A listing outlasts writes to flat parameters. -/
theorem outlasts_lists (hkind : kind.isIndexed = true) (scope : Scope) (ids names : List String) :
    Outlasts (fun s => s.Consistent ∧ s.Lists kind scope ids) names where
  dynamic name hname s param hs :=
    ⟨(outlasts_consistent names).dynamic name hname s param hs.1,
      hs.2.congr (lookup_flat hkind s _ s.tmp scope)⟩
  tmp name s param hs :=
    ⟨(outlasts_consistent names).tmp name s param hs.1,
      hs.2.congr (lookup_flat hkind s s.dynamic _ scope)⟩

/-- An index is noted, and the listing stays. -/
theorem noteIndex_lists (hkind : kind.isIndexed = true) (hs : s.Consistent ∧ s.Lists kind scope ids)
    (var : String) (i : Int) :
    ((s.noteIndex var i).Consistent ∧ (s.noteIndex var i).Lists kind scope ids) ∧
      (s.noteIndex var i).dynamic.get? var = some (.keep (Text.showInt i)) :=
  ⟨(outlasts_lists hkind scope ids [var]).setDynamic List.mem_cons_self s (Text.showInt i) hs,
    hs.1.dynamic.get?_insert_self var _⟩

/-- The positions in a list, in order. -/
def positions (ids : List String) : List Int := (List.range ids.length).map fun k : Nat => (k : Int)

/-- The siblings are counted by their number. -/
theorem Lists.boundValue_number (h : s.Lists kind scope ids)
    (hfit : (ids.length : Int) ≤ Text.maxInt) (source : String) :
    boundValue s scope source "count" [.reference (.written kind none "num")] =
      .ok (ids.length : Int) := by
  have hresolve : resolve s scope (.written kind none "num") = .ok (Text.showNat ids.length) := by
    simp only [resolve, siblingSelector, Reference.written, bind, Except.bind, h.num]
    rfl
  have hword : Word.eval s scope [.reference (.written kind none "num")] =
      .ok (Text.showNat ids.length).toList := by
    simp only [Word.eval, hresolve, bind, Except.bind, pure, Except.pure, List.append_nil]
  simp only [boundValue, hword, bind, Except.bind, trim_plain (Text.plain_showNat ids.length),
    Text.int?_showNat hfit]
  rfl

/-- The loop goes through the positions. -/
theorem Lists.range_counting (h : s.Lists kind scope ids)
    (hfit : (ids.length : Int) ≤ Text.maxInt) (var source : String) :
    ∃ r : IndexRange,
      (countingHead kind var).range s scope source = .ok r ∧ r.toList = positions ids := by
  have hpositive : ¬ ((ids.length : Int) < 0) := Int.not_lt.mpr (Int.natCast_nonneg _)
  simp only [LoopHead.range, countingHead, bind, Except.bind, pure, Except.pure,
    h.boundValue_number hfit, hpositive, if_false, IndexRange.counted?]
  -- A loop without rounds has a range that begins with one.
  by_cases hzero : (ids.length : Int) = 0
  · refine ⟨⟨1, 0⟩, by rw [if_pos hzero], ?_⟩
    have hnil : ids.length = 0 := Int.ofNat_eq_zero.mp hzero
    rw [positions, hnil]
    rfl
  · refine ⟨⟨0, ids.length⟩, ?_, ?_⟩
    · rw [if_neg hzero, if_pos (by omega)]
      rfl
    · simp only [IndexRange.toList, positions, Int.zero_add]

/-- At a position that is noted, the reference means the identifier there. -/
theorem Lists.resolve_sibling (h : s.Lists kind scope ids)
    (hfit : (ids.length : Int) ≤ Text.maxInt) {var : String} {i : Int} (hi : i ∈ positions ids)
    (hnoted : s.dynamic.get? var = some (.keep (Text.showInt i))) :
    resolve s scope (siblingReference kind var) = .ok (ids.getD i.toNat "") := by
  obtain ⟨k, hk, rfl⟩ := List.mem_map.mp hi
  rw [List.mem_range] at hk
  have hlimit : k < Text.sizeLimit := by
    unfold Text.sizeLimit
    unfold Text.maxInt at hfit
    omega
  have hsize : Text.size? (Text.trim (Param.keep (Text.showInt k)).value.toList) = some k := by
    show Text.size? (Text.trim (Text.showInt k).toList) = some k
    rw [Text.showInt_natCast, trim_plain (Text.plain_showNat k), Text.size?_showNat hlimit]
  have hselector : siblingSelector s scope (siblingReference kind var) = .ok (.index k) :=
    siblingSelector_eq_ok.mpr (.held hnoted hsize)
  have hlookup : s.lookup (siblingReference kind var).kind scope (.index k)
      (siblingReference kind var).name = .ok ids[k] := h.uuid k hk
  have hget : ids.getD (k : Int).toNat "" = ids[k] := by simp [hk]
  rw [resolve, hselector, hget]
  simp only [bind, Except.bind, hlookup]
  rfl

/-! ## The rounds -/

theorem map_positions (ids : List String) :
    (positions ids).map (fun i => ids.getD i.toNat "") = ids := by
  refine List.ext_getElem (by simp [positions]) fun k hk hk' => ?_
  simp [positions, hk']

/-- In the rounds that are begun, the reference means the identifiers in their order; in a loop
that succeeds it has meant all of them. -/
theorem begun_siblings (hkind : kind.isIndexed = true) (hs : s.Consistent)
    (h : s.Lists kind scope ids) (hfit : (ids.length : Int) ≤ Text.maxInt) (var source : String)
    (body : Block) :
    let act := (body.eval scope source).result
    let seen := (Rounds.begun (noteIndex var) act (positions ids) s).map fun e =>
      resolve e.2 scope (siblingReference kind var)
    seen <+: ids.map .ok ∧
      ∀ outs u, Rounds.run (noteIndex var) act (positions ids) s = (.ok outs, u) →
        seen = ids.map .ok := by
  intro act seen
  have horder : (Rounds.begun (noteIndex var) act (positions ids) s).map (·.1) <+: positions ids :=
    Rounds.begun_prefix _ s
  -- A round begins with its own position noted and the listing as it was, whatever the rounds
  -- before it have written.
  have hnoted : ∀ e ∈ Rounds.begun (noteIndex var) act (positions ids) s,
      e.2.Lists kind scope ids ∧ e.2.dynamic.get? var = some (.keep (Text.showInt e.1)) :=
    Rounds.begun_noted (P := fun i u => u.Lists kind scope ids ∧
        u.dynamic.get? var = some (.keep (Text.showInt i)))
      (fun i u hu =>
        have hnext := noteIndex_lists hkind hu var i
        ⟨hnext.1, hnext.1.2, hnext.2⟩)
      (fun u hu => LoopTexts.block_keeps (outlasts_lists hkind scope ids _) scope source u hu)
      (positions ids) ⟨hs, h⟩
  have hvalue : ∀ e ∈ Rounds.begun (noteIndex var) act (positions ids) s,
      resolve e.2 scope (siblingReference kind var) = .ok (ids.getD e.1.toNat "") := by
    intro e he
    obtain ⟨hlists, hvar⟩ := hnoted e he
    exact hlists.resolve_sibling hfit (horder.subset (List.mem_map_of_mem he)) hvar
  have hseen : seen = ((Rounds.begun (noteIndex var) act (positions ids) s).map (·.1)).map
      fun i => .ok (ids.getD i.toNat "") := by
    rw [List.map_map]
    exact List.map_congr_left hvalue
  have hall : (positions ids).map (fun i => (.ok (ids.getD i.toNat "") : Except Cause String)) =
      ids.map .ok := by
    conv_rhs => rw [← map_positions ids, List.map_map]
    rfl
  rw [hseen, ← hall]
  exact ⟨horder.map _, fun outs u hrun => by rw [Rounds.begun_of_ok hrun]⟩

end Lookups

end Store

/-! ## A command that lists siblings -/

namespace Template

/-- A command with the identifiers of all siblings as its arguments. -/
def listingText (kind : ContextKind) (var : String) : List Char :=
  printText "list ".toList ++ '%' :: ("for ".toList ++ countingDirective kind var ++ '%' ::
    ((siblingReference kind var).spelling ++
      (printText [' '] ++ (Closer.endFor.spelling.toList ++ []))))

/-- The body of its loop. -/
def listingBody (kind : ContextKind) (var : String) : Block :=
  .reference (siblingReference kind var) (.text [' '] .done)

/-- The command as a template. -/
def listing (kind : ContextKind) (var : String) : Template where
  source := String.ofList (listingText kind var)
  tree := .text "list ".toList (.loop (countingHead kind var) (listingBody kind var) .done)

/-- The command is read as it is written. -/
theorem parse_listing {kind : ContextKind} {var : String} (hkind : kind.isIndexed = true)
    (hvar : isIdentifier var.toList = true) (hdot : '.' ∉ var.toList) :
    Template.parse (listing kind var).source = .ok (listing kind var) := by
  have hindex : ∀ i ∈ some (SiblingIndex.variable var), kind.isIndexed = true ∧ i.Admissible := by
    rintro i ⟨⟩
    exact ⟨hkind, .name hvar⟩
  have hreference : Reference.parse (siblingReference kind var).body =
      .ok (siblingReference kind var) :=
    parse_written hindex (by rintro i ⟨⟩; exact hdot) (by decide)
  have hclosed : closeBrace ∉ (siblingReference kind var).body :=
    closeBrace_not_mem_written (fun i hi => (hindex i hi).2) (by decide)
  have htokens : tokenize (listingText kind var) = .ok [.text "list ".toList,
      .openLoop var (countingHead kind var).collected, .reference (siblingReference kind var),
      .text [' '], .close .endFor] := by
    have hopen (rest : List Char) :
        ((siblingReference kind var).spelling ++ rest).head? ≠ some openBrace :=
      show some '%' ≠ some openBrace by decide
    rw [tokenize, listingText, scan_printText, scan_counting kind hvar (hopen _),
      scan_spelling hreference hclosed, scan_printText, scan_closer]
    rfl
  have hparse : Block.parse [.text "list ".toList,
      .openLoop var (countingHead kind var).collected, .reference (siblingReference kind var),
      .text [' '], .close .endFor] = .ok (listing kind var).tree := by
    simp only [Block.parse, parseFrom, closeFrame, if_true, ofArguments_counting hkind, bind,
      Except.bind]
    rfl
  rw [Template.parse, listing, String.toList_ofList, htokens]
  simp only [bind, Except.bind, hparse]
  rfl

/-- Values with a blank after each become one argument each. -/
theorem add_listing (finished : List (List Char)) (ids : List String) :
    (ids.flatMap fun id => [Chunk.value id, .text [' ']]).foldl ArgumentBuilder.add
        ⟨finished, none, none, false⟩ =
      ⟨finished ++ ids.map String.toList, none, none, false⟩ := by
  induction ids generalizing finished with
  | nil => simp
  | cons id ids ih =>
    have hblank : Text.isBlank ' ' = true := by decide
    rw [List.flatMap_cons, List.foldl_append]
    have hid : [Chunk.value id, .text [' ']].foldl ArgumentBuilder.add
        ⟨finished, none, none, false⟩ = ⟨finished ++ [id.toList], none, none, false⟩ := by
      simp [ArgumentBuilder.add, ArgumentBuilder.char, ArgumentBuilder.endWord, hblank]
    rw [hid, ih]
    simp

theorem splitArguments_listing (ids : List String) :
    splitArguments (.text "list ".toList :: ids.flatMap fun id => [.value id, .text [' ']]) =
      .ok ("list" :: ids) := by
  have hcommand : ArgumentBuilder.add .start (.text "list ".toList) =
      ⟨["list".toList], none, none, false⟩ := by decide
  rw [splitArguments, List.foldl_cons, hcommand, add_listing]
  simp [ArgumentBuilder.finish, ArgumentBuilder.endWord, Except.map, Function.comp_def]

end Template

namespace Store

variable {s : Store} {kind : ContextKind} {scope : Scope} {ids : List String}

/-- The command gets the identifiers in their order, each once. -/
theorem resolveArgv_listing (hkind : kind.isIndexed = true) (hs : s.Consistent)
    (h : s.Lists kind scope ids) (hfit : (ids.length : Int) ≤ Text.maxInt) (var : String) :
    (((listing kind var).resolveArgv scope).result s).1 = .ok ("list" :: ids) := by
  have hround : ∀ i ∈ positions ids, ∀ u : Store, u.Consistent ∧ u.Lists kind scope ids →
      ((listingBody kind var).eval scope (listing kind var).source).result (u.noteIndex var i) =
        (.ok [.value (ids.getD i.toNat ""), .text [' ']], u.noteIndex var i) := by
    intro i hi u hu
    obtain ⟨⟨-, hlists⟩, hvar⟩ := noteIndex_lists hkind hu var i
    rw [listingBody, Block.eval,
      StoreM.result_read fun s => resolve s scope (siblingReference kind var),
      hlists.resolve_sibling hfit hi hvar]
    rfl
  obtain ⟨t, hrun⟩ :=
    Rounds.run_map (fun i _ u hu => (noteIndex_lists hkind hu var i).1) hround ⟨hs, h⟩
  obtain ⟨r, hrange, hpositions⟩ := h.range_counting hfit var (listing kind var).source
  have hflat : ((positions ids).map fun i =>
      [Chunk.value (ids.getD i.toNat ""), .text [' ']]).flatten =
        ids.flatMap fun id => [.value id, .text [' ']] := by
    conv_rhs => rw [← map_positions ids, List.flatMap_map]
    rw [List.flatMap_def]
  have hloop := result_loop hrange (listingBody kind var) .done
  rw [hpositions, show (countingHead kind var).var = var from rfl, hrun] at hloop
  have heval : ((listing kind var).eval scope).result s =
      (.ok (.text "list ".toList :: ids.flatMap fun id => [.value id, .text [' ']]), t) := by
    rw [← hflat]
    show ((Block.text "list ".toList
      (.loop (countingHead kind var) (listingBody kind var) .done)).eval scope
        (listing kind var).source).result s = _
    rw [Block.eval, StoreM.result_map, hloop]
    simp [Block.eval, Except.map]
  rw [resolveArgv, StoreM.result_bind, heval]
  simp only [splitArguments_listing]
  rfl

/-- A loop that counts the siblings of a level and has this variable makes one round for each of
the listed identifiers. -/
structure VisitsSiblings (s : Store) (kind : ContextKind) (scope : Scope) (ids : List String)
    (var : String) : Prop where
  /-- The loop opens as it is written. -/
  opened : ∀ after, after.head? ≠ some openBrace →
    tokenize ('%' :: ("for ".toList ++ countingDirective kind var ++ '%' :: after)) =
      (tokenize after).map (.openLoop var (countingHead kind var).collected :: ·)
  /-- Whatever its body, it goes through the positions. -/
  rounds : ∀ source body rest,
    ((Block.loop (countingHead kind var) body rest).eval scope source).result s =
      match Rounds.run (noteIndex var) (body.eval scope source).result (positions ids) s with
      | (.ok outs, u) =>
        (do let out ← rest.eval scope source
            pure (outs.flatten ++ out) : StoreM (List Chunk)).result u
      | (.error c, u) => (.error c, u)
  /-- The reference means one identifier after the other, and all if no round fails. -/
  seen : ∀ source body,
    let act := (Block.eval scope source body).result
    let seen := (Rounds.begun (noteIndex var) act (positions ids) s).map fun e =>
      resolve e.2 scope (siblingReference kind var)
    seen <+: ids.map .ok ∧
      ∀ outs u, Rounds.run (noteIndex var) act (positions ids) s = (.ok outs, u) →
        seen = ids.map .ok
  /-- A command made of them is read, and gets each of them once. -/
  listed : Template.parse (listing kind var).source = .ok (listing kind var) ∧
    (((listing kind var).resolveArgv scope).result s).1 = .ok ("list" :: ids)

theorem isIndexed_of_uuids (h : s.uuids kind scope = .ok ids) : kind.isIndexed = true := by
  cases kind with
  | dynamic | tmp => cases h
  | segment | sequence | resource => rfl

/-- In every store that calls can build, the identifiers that are listed at a level are the
ones that look-ups by position give, and no others; they are counted by the number of siblings,
and each has one position, which the entry in scope has too. So a loop over the number of
siblings reads each of them once and in order. A list in memory is never too long to count. -/
theorem siblings_agree (calls : List Call) {kind : ContextKind} {scope : Scope}
    (hscope : kind = .sequence → scope.sequence ≠ none) {ids : List String}
    (h : (empty.run calls).uuids kind scope = .ok ids) :
    (empty.run calls).Lists kind scope ids ∧
    ∀ var : String, isIdentifier var.toList = true → '.' ∉ var.toList →
      (ids.length : Int) ≤ Text.maxInt → (empty.run calls).VisitsSiblings kind scope ids var := by
  have hkind := isIndexed_of_uuids h
  have hconsistent := consistent_run calls
  have hlists := lists_of_uuids (run_represented calls).1 hscope h
  refine ⟨hlists, fun var hvar hdot hfit => ?_⟩
  exact {
    opened := fun after hafter => scan_counting kind hvar hafter
    rounds := fun source body rest => by
      obtain ⟨r, hrange, hpositions⟩ := hlists.range_counting hfit var source
      rw [result_loop hrange, hpositions]
      rfl
    seen := fun source body => begun_siblings hkind hconsistent hlists hfit var source body
    listed := ⟨parse_listing hkind hvar hdot,
      resolveArgv_listing hkind hconsistent hlists hfit var⟩ }

/-- Calls for a sequence with two resources in one segment. -/
def twoChannels : List Call :=
  [.addSegment ⟨⟨1⟩⟩, .addSequence .audio ⟨⟨2⟩⟩,
    .addResource ⟨⟨⟨1⟩⟩, .audio, ⟨⟨2⟩⟩⟩ ⟨⟨3⟩⟩, .addResource ⟨⟨⟨1⟩⟩, .audio, ⟨⟨2⟩⟩⟩ ⟨⟨4⟩⟩]

/-- The scope of the second one. -/
def secondChannel : Scope := ⟨some ⟨⟨1⟩⟩, some (.audio, ⟨⟨2⟩⟩), some ⟨⟨4⟩⟩⟩

/-- Both, as they are listed. -/
def channelIds : List String :=
  ["00000000-0000-0000-0000-000000000003", "00000000-0000-0000-0000-000000000004"]

theorem siblings_agree_twoChannels :
    (ContextKind.resource = .sequence → secondChannel.sequence ≠ none) ∧
    (empty.run twoChannels).uuids .resource secondChannel = .ok channelIds ∧
    (empty.run twoChannels).Lists .resource secondChannel channelIds ∧
    (empty.run twoChannels).VisitsSiblings .resource secondChannel channelIds "r" := by
  have hscope : ContextKind.resource = .sequence → secondChannel.sequence ≠ none := nofun
  have hlisted : (empty.run twoChannels).uuids .resource secondChannel = .ok channelIds := by
    decide +kernel
  have h := siblings_agree twoChannels hscope hlisted
  exact ⟨hscope, hlisted, h.1, h.2 "r" (by decide) (by decide) (by decide)⟩

end Store

end MediaPipeline
