import MediaPipeline.Proofs.TemplateResolution
import MediaPipeline.Proofs.TemplateRoundTrip
import MediaPipeline.Proofs.WrittenLoops

/-!
# Literal text

Text with its percent signs doubled is text wherever it stands: on its own, in a branch that
is taken, and in the body of a loop, at any depth. The one exception is a brace at the
beginning of a text directly behind a directive that opens a block. There the closing percent
sign and the brace begin a reference of the directive, and the template is not read as it
was meant (`render_enclosed`).
-/

namespace MediaPipeline.Template

/-! ## Enclosed texts -/

/-- What stands around a text: a branch that is taken, the second branch where the first is
not taken, with the text of the first, or a loop with one round. -/
inductive Enclosure where
  | branch
  | otherwise (skipped : List Char)
  | loop
deriving DecidableEq

/-- The loop `%for i count=1%`. -/
def once : LoopTexts := ⟨none, .count "1"⟩

theorem once_isPlain : once.IsPlain :=
  List.forall_mem_singleton.mpr (List.forall_mem_singleton.mpr (plain_of_isAlphanum (by decide)))

namespace Enclosure

/-- A text in its enclosure. -/
def around : Enclosure → List Char → List Char
  | branch, inner =>
    '%' :: ("if ".toList ++ "1".toList ++ '%' :: (inner ++ Closer.endIf.spelling.toList))
  | otherwise skipped, inner =>
    '%' :: ("if ".toList ++ "0".toList ++ '%' :: (printText skipped ++
      (Closer.otherwise.spelling.toList ++ (inner ++ Closer.endIf.spelling.toList))))
  | loop, inner =>
    '%' :: ("for ".toList ++ once.written "i" ++
      '%' :: (inner ++ Closer.endFor.spelling.toList))

/-- A tree in its enclosure. -/
def block : Enclosure → Block → Block
  | branch, inner => .branch (.flag false [.char '1']) inner .done .done
  | otherwise skipped, inner => .branch (.flag false [.char '0']) (textBlock skipped) inner .done
  | loop, inner => .loop (once.head "i") inner .done

/-- The store inside: a loop has written its index. -/
def inside : Enclosure → Store → Store
  | loop, s => s.setDynamic "i" "0"
  | _, s => s

end Enclosure

/-- A text with its percent signs doubled, in enclosures, the outermost first. -/
def enclosed (es : List Enclosure) (t : List Char) : List Char :=
  es.foldr Enclosure.around (printText t)

/-- The tree that is meant. -/
def enclosedBlock (es : List Enclosure) (t : List Char) : Block :=
  es.foldr Enclosure.block (textBlock t)

/-- The texts that stand directly behind a directive that opens a block. -/
def behindOpening (t : List Char) : List Enclosure → List (List Char)
  | [] => []
  | .otherwise skipped :: es => skipped :: behindOpening t es
  | _ :: es => (if es = [] then [t] else []) ++ behindOpening t es

/-- No such text begins with a brace. -/
def Unbraced (es : List Enclosure) (t : List Char) : Prop :=
  ∀ cs ∈ behindOpening t es, cs.head? ≠ some openBrace

instance (es : List Enclosure) (t : List Char) : Decidable (Unbraced es t) :=
  inferInstanceAs (Decidable (∀ cs ∈ behindOpening t es, cs.head? ≠ some openBrace))

/-! ## Reading -/

/-- A text is read as this block wherever no other text follows. -/
def ReadsAs (cs : List Char) (b : Block) : Prop :=
  ∀ rest ts, scan .text rest = .ok ts → NoText ts →
    ∃ us, scan .text (cs ++ rest) = .ok us ∧
      ∀ body frames, parseFrom body frames us = parseFrom (body ++ b) frames ts

namespace ReadsAs

theorem text (cs : List Char) : ReadsAs (printText cs) (textBlock cs) := by
  intro rest ts hts hnoText
  refine ⟨prependText cs ts, by rw [scan_printText, hts]; rfl, fun body frames => ?_⟩
  rw [← tokensThen_textBlock]
  exact parseFrom_tokensThen (readFrom_textBlock [] cs) body frames fun _ => hnoText

variable {cs : List Char} {b : Block}

/-- Before a directive that closes a block. -/
theorem closer (h : ReadsAs cs b) (closer : Closer) {rest : List Char} {ts : List Token}
    (hts : scan .text rest = .ok ts) :
    ∃ us, scan .text (cs ++ (closer.spelling.toList ++ rest)) = .ok us ∧
      ∀ body frames, parseFrom body frames us =
        parseFrom (body ++ b) frames (.close closer :: ts) :=
  h _ _ (by rw [scan_closer, hts]; rfl) fun _ _ he => nomatch he

/-- Behind a directive that opens a block. -/
theorem opening {keyword argument : List Char}
    {read : List Char → List Word → Except Fault Token} {token : Token}
    (hkeyword : Opens keyword read) (hargument : '%' ∉ argument)
    (htoken : parseDirective (keyword ++ argument) = .ok token) {rest : List Char}
    {ts : List Token} (hts : scan .text rest = .ok ts) (hrest : rest.head? ≠ some openBrace) :
    scan .text ('%' :: (keyword ++ argument ++ '%' :: rest)) = .ok (token :: ts) := by
  rw [scan_opening hkeyword (.of_not_mem hargument) htoken hrest, hts]
  rfl

theorem branch (h : ReadsAs cs b)
    (hbrace : ∀ rest, rest.head? ≠ some openBrace → (cs ++ rest).head? ≠ some openBrace) :
    ReadsAs (Enclosure.branch.around cs) (Enclosure.branch.block b) := by
  intro rest ts hts _
  obtain ⟨us, hscan, hparse⟩ := h.closer .endIf hts
  have htoken : parseDirective ("if ".toList ++ "1".toList) = .ok (.openBranch [[.char '1']]) := by
    decide
  have hopen := opening .condition (by decide) htoken hscan (hbrace _ (head?_closer .endIf rest))
  refine ⟨_, by simpa only [Enclosure.around, List.cons_append, List.append_assoc] using hopen,
    fun body frames => ?_⟩
  exact hparse .done (.branch (.flag false [.char '1']) body :: frames)

theorem otherwise {skipped : List Char} (h : ReadsAs cs b)
    (hbrace : skipped.head? ≠ some openBrace) :
    ReadsAs ((Enclosure.otherwise skipped).around cs) ((Enclosure.otherwise skipped).block b) := by
  intro rest ts hts _
  obtain ⟨us, hscan, hparse⟩ := h.closer .endIf hts
  obtain ⟨us', hscan', hparse'⟩ := (text skipped).closer .otherwise hscan
  have htoken : parseDirective ("if ".toList ++ "0".toList) = .ok (.openBranch [[.char '0']]) := by
    decide
  have hopen := opening .condition (by decide) htoken hscan'
    (head?_printText hbrace fun _ => head?_closer .otherwise _)
  refine ⟨_, by simpa only [Enclosure.around, List.cons_append, List.append_assoc] using hopen,
    fun body frames => ?_⟩
  refine (hparse' .done (.branch (.flag false [.char '0']) body :: frames)).trans ?_
  exact hparse .done (.otherwise (.flag false [.char '0']) (textBlock skipped) body :: frames)

theorem loop (h : ReadsAs cs b)
    (hbrace : ∀ rest, rest.head? ≠ some openBrace → (cs ++ rest).head? ≠ some openBrace) :
    ReadsAs (Enclosure.loop.around cs) (Enclosure.loop.block b) := by
  intro rest ts hts _
  obtain ⟨us, hscan, hparse⟩ := h.closer .endFor hts
  have hvar : isIdentifier "i".toList = true := by decide
  have hopen := LoopTexts.tokenize_written once_isPlain hvar (hbrace _ (head?_closer .endFor rest))
  rw [tokenize, tokenize, hscan, Except.map] at hopen
  refine ⟨_, by simpa only [Enclosure.around, List.cons_append, List.append_assoc] using hopen,
    fun body frames => ?_⟩
  refine (hparse .done (.loop "i" (once.head "i").collected body :: frames)).trans ?_
  rw [Block.done_append, parseFrom, LoopTexts.closeFrame_written]
  rfl

end ReadsAs

/-- What stands in enclosures is read as it is meant. -/
theorem readsAs_enclosed {es : List Enclosure} {t : List Char} (h : Unbraced es t) :
    ReadsAs (enclosed es t) (enclosedBlock es t) := by
  induction es with
  | nil => exact .text t
  | cons e es ih =>
    -- Behind the directive stands the text itself, or the percent sign of the next directive.
    have hbrace (hfirst : es = [] → t.head? ≠ some openBrace) (rest : List Char)
        (hrest : rest.head? ≠ some openBrace) :
        (enclosed es t ++ rest).head? ≠ some openBrace := by
      cases es with
      | nil => exact head?_printText (hfirst rfl) fun _ => hrest
      | cons e es => cases e <;> exact show some '%' ≠ some openBrace by decide
    cases e with
    | branch =>
      obtain ⟨hfirst, hrest⟩ := List.forall_mem_append.mp h
      exact (ih hrest).branch (hbrace fun hnil => hfirst t (by simp [hnil]))
    | otherwise skipped =>
      obtain ⟨hskipped, hrest⟩ := List.forall_mem_cons.mp h
      exact (ih hrest).otherwise hskipped
    | loop =>
      obtain ⟨hfirst, hrest⟩ := List.forall_mem_append.mp h
      exact (ih hrest).loop (hbrace fun hnil => hfirst t (by simp [hnil]))

theorem parse_enclosed {es : List Enclosure} {t : List Char} (h : Unbraced es t) :
    (tokenize (enclosed es t) >>= Block.parse) = .ok (enclosedBlock es t) := by
  obtain ⟨us, hscan, hparse⟩ := readsAs_enclosed h [] [] rfl fun _ _ he => nomatch he
  rw [List.append_nil] at hscan
  rw [tokenize, hscan]
  exact hparse .done []

theorem leadingText_textBlock (cs : List Char) : (textBlock cs).leadingText = cs := by
  unfold textBlock
  split_ifs with hnil
  · exact hnil.symm
  · rfl

/-- No template is read as a tree in which a text begins with a brace where it must not. -/
theorem unbraced_of_readFrom {source : List Char} {es : List Enclosure} {t : List Char}
    (h : (enclosedBlock es t).ReadFrom source) : Unbraced es t := by
  induction es with
  | nil => exact fun cs hcs => nomatch hcs
  | cons e es ih =>
    have hfirst (hlead : (enclosedBlock es t).leadingText.head? ≠ some openBrace) :
        ∀ cs ∈ (if es = [] then [t] else []), cs.head? ≠ some openBrace := by
      intro cs hcs
      split_ifs at hcs with hnil
      · subst hnil
        rw [List.mem_singleton.mp hcs]
        rwa [enclosedBlock, List.foldr_nil, leadingText_textBlock] at hlead
      · cases hcs
    cases e with
    | branch =>
      obtain ⟨-, hlead, hinner, -⟩ := h
      exact List.forall_mem_append.mpr ⟨hfirst hlead, ih hinner⟩
    | otherwise skipped =>
      obtain ⟨-, hlead, -, hinner, -⟩ := h
      rw [leadingText_textBlock] at hlead
      exact List.forall_mem_cons.mpr ⟨hlead, ih hinner⟩
    | loop =>
      obtain ⟨-, hlead, hinner, -⟩ := h
      exact List.forall_mem_append.mpr ⟨hfirst hlead, ih hinner⟩

/-! ## Evaluation -/

/-- The store inside all enclosures. -/
def insideAll (es : List Enclosure) (s : Store) : Store := es.foldl (fun s e => e.inside s) s

section Eval

variable {scope : Scope} {source : String}

theorem eval_textBlock (cs : List Char) (s : Store) :
    ∃ chunks, ((textBlock cs).eval scope source).result s = (.ok chunks, s) ∧
      chunks.flatMap Chunk.chars = cs := by
  unfold textBlock
  split_ifs with hnil
  · exact ⟨[], rfl, hnil.symm⟩
  · exact ⟨[.text cs], rfl, by simp [Chunk.chars]⟩

/-- An enclosure adds nothing to what is put out. -/
theorem Enclosure.eval_block {e : Enclosure} {b : Block} {s s' : Store} {chunks : List Chunk}
    (h : (b.eval scope source).result (e.inside s) = (.ok chunks, s')) :
    ((e.block b).eval scope source).result s = (.ok chunks, s') := by
  cases e with
  | branch =>
    have htaken : Condition.eval s scope source (.flag false [.char '1']) = .ok true := rfl
    have hyes : (b.eval scope source).result s = (.ok chunks, s') := h
    rw [block, Block.eval, StoreM.result_read, htaken]
    simp only [if_true, StoreM.result_bind, hyes, Block.eval, StoreM.result_pure, List.append_nil]
  | otherwise skipped =>
    have htaken : Condition.eval s scope source (.flag false [.char '0']) = .ok false := rfl
    have hno : (b.eval scope source).result s = (.ok chunks, s') := h
    rw [block, Block.eval, StoreM.result_read, htaken]
    simp only [Bool.false_eq_true, if_false, StoreM.result_bind, hno, Block.eval,
      StoreM.result_pure, List.append_nil]
  | loop =>
    have hrange : LoopHead.range s scope source (once.head "i") = .ok ⟨0, 1⟩ := rfl
    have hbody : (b.eval scope source).result (s.setDynamic "i" "0") = (.ok chunks, s') := h
    have hindex : Text.showInt 0 = "0" := by decide
    rw [block, Block.eval, StoreM.result_read, hrange]
    have hround : (forIndices "i" (b.eval scope source) 1 0).result s = (.ok chunks, s') := by
      simp only [forIndices, StoreM.result_bind, StoreM.result_modify, hindex, hbody,
        StoreM.result_pure, List.append_nil]
    show ((forIndices "i" (b.eval scope source) 1 0) >>= _).result s = _
    rw [StoreM.result_bind, hround]
    simp only [StoreM.result_bind, Block.eval, StoreM.result_pure, List.append_nil]

theorem eval_enclosedBlock (scope : Scope) (source : String) (es : List Enclosure)
    (t : List Char) (s : Store) :
    ∃ chunks, ((enclosedBlock es t).eval scope source).result s = (.ok chunks, insideAll es s) ∧
      chunks.flatMap Chunk.chars = t := by
  induction es generalizing s with
  | nil => exact eval_textBlock t s
  | cons e es ih =>
    obtain ⟨chunks, hresult, hchunks⟩ := ih (e.inside s)
    exact ⟨chunks, e.eval_block hresult, hchunks⟩

end Eval

/-- A template with a text in enclosures, the percent signs of the text doubled. -/
def enclosedTemplate (es : List Enclosure) (t : String) : String :=
  String.ofList (enclosed es t.toList)

/-- A text with its percent signs doubled is literal in any enclosures, and there is no other
exception than a brace directly behind a directive that opens a block. -/
theorem render_enclosed (es : List Enclosure) (t : String) :
    (Unbraced es t.toList → ∃ tpl, Template.parse (enclosedTemplate es t) = .ok tpl ∧
      ∀ scope s, (tpl.render scope).result s = (.ok (Text.trimmed t), insideAll es s)) ∧
    (¬ Unbraced es t.toList → ∀ tpl, Template.parse (enclosedTemplate es t) = .ok tpl →
      tpl.tree ≠ enclosedBlock es t.toList) := by
  refine ⟨fun h => ?_, fun h tpl hparse htree => ?_⟩
  · refine ⟨⟨enclosedTemplate es t, enclosedBlock es t.toList⟩, ?_, fun scope s => ?_⟩
    · rw [parse_eq_ok, enclosedTemplate, String.toList_ofList]
      exact parse_enclosed h
    · obtain ⟨chunks, hresult, hchunks⟩ :=
        eval_enclosedBlock scope (enclosedTemplate es t) es t.toList s
      rw [(resolve_of_ok (t := ⟨enclosedTemplate es t, enclosedBlock es t.toList⟩) hresult).2,
        hchunks]
      rfl
  · exact h (unbraced_of_readFrom (htree ▸ (parse_readFrom hparse).2))

/-- A second branch in a loop in a branch. -/
def nested : List Enclosure := [.branch, .loop, .otherwise "no".toList]

theorem render_enclosed_nested :
    (Unbraced nested "%\x7bdynamic.x\x7d 50% ".toList ∧
      ∃ tpl, Template.parse ("%if 1%%for i count=1%%if 0%no%else%%%\x7bdynamic.x\x7d 50%% " ++
          "%endif%%endfor%%endif%") = .ok tpl ∧
        ∀ scope s, (tpl.render scope).result s =
          (.ok "%\x7bdynamic.x\x7d 50%", s.setDynamic "i" "0")) ∧
    (¬ Unbraced [.branch] "\x7b".toList ∧
      ∀ tpl, Template.parse "%if 1%\x7b%endif%" = .ok tpl →
        tpl.tree ≠ enclosedBlock [.branch] "\x7b".toList) := by
  have hclear : Unbraced nested "%\x7bdynamic.x\x7d 50% ".toList := by decide
  have hbrace : ¬ Unbraced [.branch] "\x7b".toList := by decide
  have htext : enclosedTemplate nested "%\x7bdynamic.x\x7d 50% " =
      "%if 1%%for i count=1%%if 0%no%else%%%\x7bdynamic.x\x7d 50%% " ++
        "%endif%%endfor%%endif%" := by decide
  have htextBrace : enclosedTemplate [.branch] "\x7b" = "%if 1%\x7b%endif%" := by decide
  have htrimmed : Text.trimmed "%\x7bdynamic.x\x7d 50% " = "%\x7bdynamic.x\x7d 50%" := by decide
  refine ⟨⟨hclear, ?_⟩, hbrace, ?_⟩
  · rw [← htext, ← htrimmed]
    exact (render_enclosed nested _).1 hclear
  · rw [← htextBrace]
    exact (render_enclosed [.branch] _).2 hbrace

/-- A brace alone is not even accepted in a branch. -/
theorem brace_not_accepted :
    enclosedTemplate [.branch] "\x7b" = "%if 1%\x7b%endif%" ∧
      ∀ tpl, Template.parse (enclosedTemplate [.branch] "\x7b") ≠ .ok tpl := by
  refine ⟨by decide, fun tpl hparse => ?_⟩
  have hrejected : (Template.parse (enclosedTemplate [.branch] "\x7b")).toOption = none := by
    decide +kernel
  rw [hparse] at hrejected
  cases hrejected

end MediaPipeline.Template
