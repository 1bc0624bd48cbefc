import MediaPipeline.Proofs.PrintedTemplate
import Mathlib.Data.List.Basic

/-!
# References as they are written

A reference is written as its kind, its index in brackets if it has one, a dot and a name. The
scanner cuts it apart at the first closing brace, at the first dot and at the first bracket,
wherever these stand. Any name of a parameter without a closing brace gets through these cuts,
and so does any index that is a position. An index that is a name may have dots, and then the
cut at the first dot falls into it: `tokenize_reference_iff` says that this is the one thing
that keeps a reference from being read as it is written.
-/

namespace MediaPipeline.Template

/-! ## How a reference is written -/

/-- The text of an index between its brackets. -/
def SiblingIndex.text : SiblingIndex → List Char
  | .position i => (Text.showNat i).toList
  | .variable name => name.toList

/-- A position that a size can hold, or a name that a loop variable may have. -/
inductive SiblingIndex.Admissible : SiblingIndex → Prop
  | position {i : Nat} (h : i < Text.sizeLimit) : Admissible (.position i)
  | name {name : String} (h : isIdentifier name.toList = true) : Admissible (.variable name)

/-- What stands in front of the dot. -/
def writtenHead (kind : ContextKind) : Option SiblingIndex → List Char
  | none => kind.name.toList
  | some i => kind.name.toList ++ '[' :: (i.text ++ [']'])

/-- The reference to a parameter of a kind, written with an index or without. -/
def Reference.written (kind : ContextKind) (index : Option SiblingIndex) (name : String) :
    Reference :=
  ⟨kind, index, name, writtenHead kind index ++ '.' :: name.toList⟩

/-! ## Cuts -/

theorem splitOnce_append {sep : Char} {cs : List Char} (h : sep ∉ cs) (ds : List Char) :
    splitOnce sep (cs ++ sep :: ds) = some (cs, ds) := by
  induction cs with
  | nil => rw [List.nil_append, splitOnce, if_pos rfl]
  | cons c cs ih =>
    simp only [List.mem_cons, not_or] at h
    rw [List.cons_append, splitOnce, if_neg (Ne.symm h.1), ih h.2]
    rfl

theorem splitOnce_of_not_mem {sep : Char} {cs : List Char} (h : sep ∉ cs) :
    splitOnce sep cs = none := by
  induction cs with
  | nil => rfl
  | cons c cs ih =>
    simp only [List.mem_cons, not_or] at h
    rw [splitOnce, if_neg (Ne.symm h.1), ih h.2]
    rfl

/-- A kind is spelled with letters. -/
theorem isAlpha_of_mem_kind (kind : ContextKind) : ∀ c ∈ kind.name.toList, c.isAlpha = true :=
  List.all_eq_true.mp (by cases kind <;> decide)

theorem not_mem_kind (kind : ContextKind) {c : Char} (hc : c.isAlpha = false) :
    c ∉ kind.name.toList := by
  intro h
  rw [isAlpha_of_mem_kind kind c h] at hc
  cases hc

theorem ofName?_name (kind : ContextKind) : ContextKind.ofName? kind.name = some kind := by
  cases kind <;> decide

namespace SiblingIndex

variable {i : SiblingIndex}

/-- The characters of indices. -/
theorem Admissible.mem_text (h : i.Admissible) :
    ∀ c ∈ i.text, c.isAlphanum = true ∨ c = '_' ∨ c = '-' ∨ c = '.' := by
  cases h with
  | position h =>
    intro c hc
    exact .inl (by simp [Char.isAlphanum, Text.isDigit_of_mem_showNat hc])
  | name h => exact mem_identifier h

theorem Admissible.not_mem (h : i.Admissible) {c : Char} (halnum : c.isAlphanum = false)
    (hmark : c ∉ ['_', '-', '.']) : c ∉ i.text := by
  intro hc
  rcases h.mem_text c hc with hc | hc
  · rw [hc] at halnum
    cases halnum
  · exact hmark (by simpa using hc)

/-- A name that begins with no digit is no size. -/
theorem size?_of_isIdentifier {cs : List Char} (h : isIdentifier cs = true) :
    Text.size? cs = none := by
  cases cs with
  | nil => cases h
  | cons c cs =>
    simp only [isIdentifier, Bool.and_eq_true, Bool.or_eq_true, beq_iff_eq] at h
    have hdigit : c.isDigit = false := by
      rcases h.1 with hc | rfl
      · exact Text.isDigit_of_isAlpha hc
      · rfl
    have hplus : c ≠ '+' := by
      rintro rfl
      exact absurd h.1 (by decide)
    unfold Text.size?
    split
    · next rest heq => exact absurd (List.cons.inj heq).1 hplus
    · have hread : Text.digits? (c :: cs) = none := by
        show Text.extendDigits 0 (c :: cs) = none
        rw [Text.extendDigits, Text.digit?_eq_none hdigit]
      show (Text.digits? (c :: cs)).filter _ = none
      rw [hread]
      rfl

/-- An index is read back from its text. -/
theorem Admissible.parseIndex (h : i.Admissible) (raw : String) :
    parseIndex raw i.text = .ok i := by
  cases h with
  | position h => rw [Template.parseIndex, text, Text.size?_showNat h]
  | name h =>
    rw [Template.parseIndex, text, size?_of_isIdentifier h]
    simp only [h, if_true, String.ofList_toList]

end SiblingIndex

/-! ## Written references are read -/

section Written

variable {kind : ContextKind} {index : Option SiblingIndex} {name : String}

theorem parseHead_written (hindex : ∀ i ∈ index, i.Admissible) (raw : String) :
    parseHead raw (writtenHead kind index) = .ok (kind.name.toList, index) := by
  have hkind : '[' ∉ kind.name.toList := not_mem_kind kind rfl
  cases index with
  | none => rw [parseHead, writtenHead, splitOnce_of_not_mem hkind]
  | some i =>
    rw [parseHead, writtenHead, splitOnce_append hkind]
    simp only [List.getLast?_concat, List.dropLast_concat, if_true, (hindex i rfl).parseIndex]
    rfl

/-- With no dot in its index, a reference is read as it is written. -/
theorem parse_written (hindex : ∀ i ∈ index, kind.isIndexed = true ∧ i.Admissible)
    (hdot : ∀ i ∈ index, '.' ∉ i.text) (hname : name ≠ "") :
    Reference.parse (Reference.written kind index name).body = .ok (.written kind index name) := by
  have hhead : '.' ∉ writtenHead kind index := by
    cases index with
    | none => exact not_mem_kind kind rfl
    | some i =>
      simp only [writtenHead, List.mem_append, List.mem_cons, List.not_mem_nil, or_false, not_or]
      exact ⟨not_mem_kind kind rfl, by decide, hdot i rfl, by decide⟩
  have hindexed : (index.isSome && !kind.isIndexed) = false := by
    cases index with
    | none => rfl
    | some i => simp [(hindex i rfl).1]
  obtain ⟨c, cs, hcs⟩ := List.exists_cons_of_ne_nil
    (fun hnil => hname (String.toList_eq_nil_iff.mp hnil) : name.toList ≠ [])
  rw [Reference.parse, Reference.written, splitOnce_append hhead, hcs]
  simp only [parseHead_written fun i hi => (hindex i hi).2, bind, Except.bind, ofName?_name,
    hindexed, String.ofList_toList, ← hcs]
  rfl

/-- With a dot in its index, a reference is cut there and seems to have an open bracket. -/
theorem parse_dotted {i : SiblingIndex} (hi : i.Admissible) (hdot : '.' ∈ i.text) :
    Reference.parse (Reference.written kind (some i) name).body =
      .error (.openIndex (Reference.written kind (some i) name).raw) := by
  obtain ⟨front, back, htext, hfront⟩ := List.eq_append_cons_of_mem hdot
  have hbracket : ']' ∉ front := by
    intro h
    refine hi.not_mem (c := ']') rfl (by decide) ?_
    rw [htext]
    exact List.mem_append_left _ h
  have hcut : '.' ∉ kind.name.toList ++ '[' :: front := by
    simp only [List.mem_append, List.mem_cons, not_or]
    exact ⟨not_mem_kind kind rfl, by decide, hfront⟩
  have hbody : (Reference.written kind (some i) name).body =
      (kind.name.toList ++ '[' :: front) ++ '.' :: (back ++ ']' :: '.' :: name.toList) := by
    simp [Reference.written, writtenHead, htext]
  have hopen (raw : String) :
      parseHead raw (kind.name.toList ++ '[' :: front) = .error (.openIndex raw) := by
    rw [parseHead, splitOnce_append (not_mem_kind kind rfl)]
    exact if_neg fun h => hbracket (List.mem_of_getLast? h)
  rw [Reference.raw, Reference.spelling, hbody, Reference.parse, splitOnce_append hcut]
  cases back <;> exact congrArg (· >>= _) (hopen _)

theorem closeBrace_not_mem_written (hindex : ∀ i ∈ index, i.Admissible)
    (hclosed : closeBrace ∉ name.toList) :
    closeBrace ∉ (Reference.written kind index name).body := by
  have hkind : closeBrace ∉ kind.name.toList := not_mem_kind kind rfl
  have hhead : closeBrace ∉ writtenHead kind index := by
    cases index with
    | none => exact hkind
    | some i =>
      simp only [writtenHead, List.mem_append, List.mem_cons, List.not_mem_nil, or_false, not_or]
      exact ⟨hkind, by decide, (hindex i rfl).not_mem rfl (by decide), by decide⟩
  simp only [Reference.written, List.mem_append, List.mem_cons, not_or]
  exact ⟨hhead, by decide, hclosed⟩

/-- A reference with an index that can be meant and a name that has no closing brace is read
as it is written, exactly if its index has no dot; and if the index has one, the template is
refused for a bracket that is not closed. -/
theorem tokenize_reference_iff
    (hindex : ∀ i ∈ index, kind.isIndexed = true ∧ i.Admissible) (hname : name ≠ "")
    (hclosed : closeBrace ∉ name.toList) :
    (tokenize (Reference.written kind index name).spelling =
        .ok [.reference (.written kind index name)] ↔ ∀ i ∈ index, '.' ∉ i.text) ∧
    ((∃ i ∈ index, '.' ∈ i.text) → tokenize (Reference.written kind index name).spelling =
      .error (.openIndex (Reference.written kind index name).raw)) := by
  have hread : tokenize (Reference.written kind index name).spelling =
      (Reference.parse (Reference.written kind index name).body).map ([.reference ·]) := by
    have hbody : closeBrace ∉ (Reference.written kind index name).body :=
      closeBrace_not_mem_written (fun i hi => (hindex i hi).2) hclosed
    have hscan := @scan_spellingOf [] _ hbody
    rw [List.append_nil] at hscan
    rw [tokenize, Reference.spelling, hscan]
    cases Reference.parse (Reference.written kind index name).body <;> rfl
  have hdotted : (∃ i ∈ index, '.' ∈ i.text) →
      tokenize (Reference.written kind index name).spelling =
        .error (.openIndex (Reference.written kind index name).raw) := by
    rintro ⟨i, rfl, hdot⟩
    rw [hread, parse_dotted (hindex i rfl).2 hdot]
    rfl
  refine ⟨⟨fun hok i hi hdot => ?_, fun hdot => ?_⟩, hdotted⟩
  · rw [hdotted ⟨i, hi, hdot⟩] at hok
    cases hok
  · rw [hread, parse_written hindex hdot hname]
    rfl

/-- The name of a parameter may hold all that a reference is cut at but the closing brace. -/
def punctuatedReference : Reference :=
  .written .resource (some (.variable "take-1")) "a.b[0]%\x7b"

theorem tokenize_reference_iff_punctuated :
    (∀ i ∈ punctuatedReference.index, ContextKind.resource.isIndexed = true ∧ i.Admissible) ∧
    punctuatedReference.name ≠ "" ∧ closeBrace ∉ punctuatedReference.name.toList ∧
    (tokenize punctuatedReference.spelling = .ok [.reference punctuatedReference] ↔
      ∀ i ∈ punctuatedReference.index, '.' ∉ i.text) ∧
    ((∃ i ∈ punctuatedReference.index, '.' ∈ i.text) →
      tokenize punctuatedReference.spelling = .error (.openIndex punctuatedReference.raw)) := by
  have hindex : ∀ i ∈ punctuatedReference.index,
      ContextKind.resource.isIndexed = true ∧ i.Admissible := by
    rintro i ⟨⟩
    exact ⟨rfl, .name (by decide)⟩
  have hname : punctuatedReference.name ≠ "" := by decide
  have hclosed : closeBrace ∉ punctuatedReference.name.toList := by decide
  exact ⟨hindex, hname, hclosed, tokenize_reference_iff hindex hname hclosed⟩

/-- A loop may have a variable with a dot, and no reference can take its index from it. -/
theorem dotted_index_refused :
    isIdentifier "a.b".toList = true ∧ ContextKind.sequence.isIndexed = true ∧
    "fps" ≠ "" ∧ closeBrace ∉ "fps".toList ∧
    tokenize "%for a.b count=1%".toList =
      .ok [.openLoop "a.b" [("count", [.char '1'])]] ∧
    (Reference.written .sequence (some (.variable "a.b")) "fps").spelling =
      "%\x7bseq[a.b].fps\x7d".toList ∧
    tokenize "%\x7bseq[a.b].fps\x7d".toList = .error (.openIndex "%\x7bseq[a.b].fps\x7d") :=
  ⟨by decide, rfl, by decide, by decide, by decide +kernel, by decide, by decide +kernel⟩

end Written

end MediaPipeline.Template
