import Mathlib.Data.List.Induction
import MediaPipeline.Proofs.MarkedOutput
import MediaPipeline.Template.Word

/-!
# The two splitters

The words of directives and guards are split by one function, the words of commands by
another, and both follow the same rules of quotes and backslashes. In text without percent
signs, where there are no references, they differ in one thing only: a backslash at the very
end of the text, outside quotes and with nothing behind it, stands for itself in a command
and for nothing in a directive (`splitters_agree_iff`).
-/

namespace MediaPipeline.Template

/-- Two splitters agree on a text. -/
inductive Agree : Except Fault (List Word) → Except Fault (List String) → Prop
  /-- Both refuse it. -/
  | refused (fault fault' : Fault) : Agree (.error fault) (.error fault')
  /-- Both find the same words. -/
  | found {ws : List Word} {args : List String}
    (h : ws.map Word.literal? = args.map fun arg => some arg.toList) : Agree (.ok ws) (.ok args)

/-- A text ends with a backslash outside quotes that has nothing to make ordinary. -/
def EndsInEscape (text : List Char) : Prop :=
  Stance.start.after .next (text.map .literal) = ⟨none, true⟩
deriving Decidable

/-- A word of characters. -/
def plainWord (cs : List Char) : Word := cs.map .char

@[simp] theorem literal?_plainWord (cs : List Char) : Word.literal? (plainWord cs) = some cs := by
  induction cs with
  | nil => rfl
  | cons c cs ih =>
    rw [plainWord, List.map_cons, Word.literal?, ← plainWord, ih]
    rfl

theorem agree_ok_iff (ws vs : List (List Char)) :
    Agree (.ok (ws.map plainWord)) (.ok (vs.map String.ofList)) ↔ ws = vs := by
  have hsame : (ws.map plainWord).map Word.literal? =
      (vs.map String.ofList).map (fun arg => some arg.toList) ↔ ws = vs := by
    simp only [List.map_map, Function.comp_def, literal?_plainWord, String.toList_ofList]
    exact List.map_inj_right fun _ _ => Option.some.inj
  refine ⟨fun h => ?_, fun h => .found (hsame.mpr h)⟩
  cases h with
  | found h => exact hsame.mp h

namespace SplitState

/-- Outside references, with characters in the word at hand. -/
def holding (quote : Option Char) (word : Option (List Char)) : SplitState :=
  ⟨none, quote, word.map fun cs => (plainWord cs).reverse⟩

variable {quote : Option Char} {word : Option (List Char)}

theorem push_holding (c : Char) :
    (holding quote word).push (.char c) = holding quote (some (word.getD [] ++ [c])) := by
  cases word <;> simp [push, holding, plainWord]

theorem touch_holding : (holding quote word).touch = holding quote (some (word.getD [])) := by
  cases word <;> rfl

theorem pending_holding : (holding quote word).pending = word.toList.map plainWord := by
  cases word <;> simp [pending, holding]

end SplitState

/-- The words of the rest of a text in which there are no references, given the word at
hand. -/
def splitPlain (source : List Char) (quote : Option Char) (word : Option (List Char))
    (text : List Char) : Except Fault (List Word) :=
  match (Stance.after .next ⟨quote, false⟩ (text.map .literal)).quote with
  | some q => .error (.openQuoteIn q source)
  | none => .ok ((wordsFrom word (Stance.roles .next ⟨quote, false⟩ (text.map .literal))).map
      plainWord)

/-- One of the two quotes, or none. -/
def IsQuote (quote : Option Char) : Prop := quote = none ∨ quote = some '\'' ∨ quote = some '"'

/-- A backslash takes the next character with it. -/
theorem splitPlain_escape (source : List Char) {quote : Option Char} (hquote : quote ≠ some '\'')
    (hq : IsQuote quote) (word : Option (List Char)) (d : Char) (rest : List Char) :
    splitPlain source quote word ('\\' :: d :: rest) =
      splitPlain source quote (some (word.getD [] ++ [d])) rest := by
  obtain rfl | rfl | rfl := hq
  · rfl
  · exact absurd rfl hquote
  · rfl

section Roles

variable (source : List Char) {quote : Option Char} (next : Option Char)
  (word : Option (List Char)) {c : Char} (cs : List Char)

theorem splitPlain_letter
    (h : (Stance.mk quote false).read .next (.literal c) = (.letter c, ⟨next, false⟩)) :
    splitPlain source quote word (c :: cs) =
      splitPlain source next (some (word.getD [] ++ [c])) cs := by
  simp only [splitPlain, List.map_cons, Stance.after, Stance.roles, h, wordsFrom]

theorem splitPlain_silent
    (h : (Stance.mk quote false).read .next (.literal c) = (.silent, ⟨next, false⟩)) :
    splitPlain source quote word (c :: cs) = splitPlain source next (some (word.getD [])) cs := by
  simp only [splitPlain, List.map_cons, Stance.after, Stance.roles, h, wordsFrom]

theorem splitPlain_gap
    (h : (Stance.mk quote false).read .next (.literal c) = (.gap, ⟨next, false⟩)) :
    splitPlain source quote word (c :: cs) =
      (splitPlain source next none cs).map (word.toList.map plainWord ++ ·) := by
  simp only [splitPlain, List.map_cons, Stance.after, Stance.roles, h, wordsFrom, List.map_append]
  split <;> rfl

end Roles

/-- A character that is no backslash, or one between single quotes. -/
theorem splitFrom_step (source : List Char) {c : Char} {cs : List Char} (hc : c ≠ '%')
    {quote : Option Char} (hq : IsQuote quote) (hescape : ¬(c = '\\' ∧ quote ≠ some '\''))
    {word : Option (List Char)} (hword : quote ≠ none → word ≠ none)
    (ih : ∀ quote word, IsQuote quote → (quote ≠ none → word ≠ none) →
      splitFrom source (.holding quote word) cs = splitPlain source quote word cs) :
    splitFrom source (.holding quote word) (c :: cs) = splitPlain source quote word (c :: cs) := by
  have hreference : (SplitState.holding quote word).reference = none := rfl
  have hquote : (SplitState.holding quote word).quote = quote := rfl
  rw [splitFrom.eq_def]
  simp only [hreference, hquote, if_neg hc, if_neg hescape]
  cases quote with
  | none =>
    have hbackslash : c ≠ '\\' := fun h => hescape ⟨h, (Option.some_ne_none _).symm⟩
    rw [if_neg (Option.some_ne_none c).symm]
    by_cases hopen : c = '\'' ∨ c = '"'
    · rw [if_pos ⟨hopen, rfl⟩, SplitState.touch_holding,
        splitPlain_silent source (some c) word cs (by simp [Stance.read, hopen])]
      exact ih (some c) _ (.inr (hopen.imp (congrArg some) (congrArg some)))
        fun _ => Option.some_ne_none _
    · rw [if_neg fun h => hopen h.1]
      by_cases hblank : Text.isBlank c = true
      · rw [if_pos ⟨hblank, rfl⟩, SplitState.pending_holding,
          splitPlain_gap source none word cs
            (by simp [Stance.read, hopen, hbackslash, hblank]),
          ← ih none none (.inl rfl) fun h => absurd rfl h]
        rfl
      · rw [if_neg fun h => hblank h.1, SplitState.push_holding,
          splitPlain_letter source none word cs
            (by simp [Stance.read, hopen, hbackslash, hblank])]
        exact ih none _ (.inl rfl) fun _ => Option.some_ne_none _
  | some q =>
    obtain ⟨w, rfl⟩ := Option.ne_none_iff_exists'.mp (hword (Option.some_ne_none q))
    by_cases hclose : q = c
    · subst hclose
      rw [if_pos rfl, splitPlain_silent source none (some w) cs (by simp [Stance.read])]
      exact ih none (some w) (.inl rfl) fun _ => Option.some_ne_none _
    · rw [if_neg (mt Option.some.inj hclose), if_neg fun h => Option.some_ne_none q h.2,
        if_neg fun h => Option.some_ne_none q h.2, SplitState.push_holding,
        splitPlain_letter source (some q) (some w) cs ?_]
      · exact ih (some q) _ hq fun _ => Option.some_ne_none _
      · have hdouble : ¬(c = '\\' ∧ q = '"') := fun h => hescape ⟨h.1, by rw [h.2]; decide⟩
        simp [Stance.read, Ne.symm hclose, hdouble]

/-- The splitter of directives, from where it stands to the end of a text without percent
signs. -/
theorem splitFrom_eq (source : List Char) {text : List Char} (h : '%' ∉ text)
    {quote : Option Char} (hq : IsQuote quote) {word : Option (List Char)}
    (hword : quote ≠ none → word ≠ none) :
    splitFrom source (.holding quote word) text = splitPlain source quote word text := by
  have hnil {quote : Option Char} {word : Option (List Char)} :
      splitFrom source (.holding quote word) [] = splitPlain source quote word [] := by
    cases quote with
    | none => exact congrArg Except.ok SplitState.pending_holding
    | some q => rfl
  -- Two steps at a time, since a backslash takes the next character with it.
  induction text using List.twoStepInduction generalizing quote word with
  | nil => exact hnil
  | singleton c =>
    have hc : c ≠ '%' := fun hc => h (hc ▸ List.mem_singleton_self c)
    by_cases hescape : c = '\\' ∧ quote ≠ some '\''
    · obtain ⟨rfl, hquote⟩ := hescape
      have htake : splitFrom source (.holding quote word) ['\\'] =
          splitFrom source (SplitState.holding quote word).touch [] := by
        simp [splitFrom, SplitState.holding, hquote]
      rw [htake, SplitState.touch_holding, hnil]
      obtain rfl | rfl | rfl := hq
      · rfl
      · exact absurd rfl hquote
      · rfl
    · exact splitFrom_step source hc hq hescape hword fun _ _ _ _ => hnil
  | cons_cons c d rest ihrest ihtail =>
    obtain ⟨hc, htail⟩ := not_or.mp (mt List.mem_cons.mpr h)
    have hrest : '%' ∉ rest := fun hmem => htail (List.mem_cons_of_mem d hmem)
    by_cases hescape : c = '\\' ∧ quote ≠ some '\''
    · obtain ⟨rfl, hquote⟩ := hescape
      have htake : splitFrom source (.holding quote word) ('\\' :: d :: rest) =
          splitFrom source ((SplitState.holding quote word).push (.char d)) rest := by
        simp [splitFrom, SplitState.holding, hquote]
      rw [htake, SplitState.push_holding, splitPlain_escape source hquote hq,
        ihrest hrest hq fun _ => Option.some_ne_none _]
    · exact splitFrom_step source (Ne.symm hc) hq hescape hword fun quote word hq hword =>
        ihtail d htail hq hword

/-! ## The end of a text -/

/-- A backslash that waits is silent itself. -/
theorem Stance.silent_of_escaped {reach : EscapeReach} {s : Stance} {c : Char}
    (h : (s.read reach (.literal c)).2.escaped = true) :
    (s.read reach (.literal c)).1 = .silent := by
  obtain ⟨quote, escaped⟩ := s
  cases escaped with
  | true => cases h
  | false =>
    cases quote with
    | none =>
      simp only [read, Bool.false_eq_true, if_false] at h ⊢
      split_ifs at h ⊢
      rfl
    | some q =>
      simp only [read, Bool.false_eq_true, if_false] at h ⊢
      split_ifs at h ⊢
      rfl

theorem roles_of_endsInEscape {text : List Char} (h : EndsInEscape text) :
    ∃ rs, Stance.start.roles .next (text.map .literal) = rs ++ [.silent] := by
  obtain rfl | ⟨front, c, rfl⟩ := List.eq_nil_or_concat text
  · cases h
  · unfold EndsInEscape at h
    rw [List.concat_eq_append, List.map_append, Stance.after_append] at h
    have hescaped := congrArg Stance.escaped h
    rw [List.concat_eq_append, List.map_append, Stance.roles_append]
    exact ⟨_, congrArg _ (congrArg (fun r => [r]) (Stance.silent_of_escaped hescaped))⟩

/-- Behind something silent there is a word at hand, which a letter makes longer. -/
theorem wordsFrom_silent (word : Option (List Char)) (rs : List Role) (c : Char) :
    ∃ ws w, wordsFrom word (rs ++ [.silent]) = ws ++ [w] ∧
      wordsFrom word (rs ++ [.silent, .letter c]) = ws ++ [w ++ [c]] := by
  induction rs generalizing word with
  | nil => exact ⟨[], word.getD [], rfl, rfl⟩
  | cons r rs ih =>
    cases r with
    | letter d => exact ih (some (word.getD [] ++ [d]))
    | silent => exact ih (some (word.getD []))
    | gap =>
      obtain ⟨ws, w, hsilent, hletter⟩ := ih none
      refine ⟨word.toList ++ ws, w, ?_, ?_⟩
      · rw [List.cons_append, wordsFrom, hsilent, List.append_assoc]
      · rw [List.cons_append, wordsFrom, hletter, List.append_assoc]

/-- In a text without percent signs the two splitters agree, unless the text ends with a
backslash outside quotes that has nothing to make ordinary: then the last argument has this
backslash at its end, and the last word has not. -/
theorem splitters_agree_iff {text : List Char} (h : '%' ∉ text) :
    (Agree (splitWords text) (splitArguments [.text text]) ↔ ¬ EndsInEscape text) ∧
    (EndsInEscape text → ∃ ws w,
      splitWords text = .ok ((ws ++ [w]).map plainWord) ∧
      splitArguments [.text text] = .ok ((ws ++ [w ++ ['\\']]).map String.ofList)) := by
  have hwords : splitFrom text (.holding none none) text = splitPlain text none none text :=
    splitFrom_eq text h (.inl rfl) fun hnone => absurd rfl hnone
  change splitWords text = _ at hwords
  have hargs : splitArguments [.text text] = splitMarks .next (text.map .literal) := by
    rw [splitArguments_eq_splitMarks, marks, List.flatMap_singleton,
      ← splitMarks_of_alike (Stance.alike_literals .start text)]
    rfl
  have hstart : Stance.mk none false = .start := rfl
  rw [hwords, hargs, splitPlain, splitMarks, words_eq, hstart]
  rcases hfinal : Stance.start.after .next (text.map .literal) with ⟨_ | q, escaped⟩ <;> dsimp only
  · cases escaped with
    | false =>
      have hends : ¬ EndsInEscape text := by simp [EndsInEscape, hfinal]
      rw [Stance.ending, if_neg Bool.false_ne_true, List.append_nil]
      exact ⟨iff_of_true ((agree_ok_iff _ _).mpr rfl) hends, fun h => absurd h hends⟩
    | true =>
      -- The backslash itself is silent, and at the end the builder adds it to the last word.
      have hends : EndsInEscape text := hfinal
      obtain ⟨rs, hrs⟩ := roles_of_endsInEscape hends
      obtain ⟨ws, w, hsilent, hletter⟩ := wordsFrom_silent none rs '\\'
      rw [Stance.ending, if_pos rfl, hrs, List.append_assoc, List.cons_append, List.nil_append,
        hsilent, hletter, agree_ok_iff]
      exact ⟨iff_of_false (by simp) (not_not_intro hends), fun _ => ⟨ws, w, rfl, rfl⟩⟩
  · have hends : ¬ EndsInEscape text := by simp [EndsInEscape, hfinal]
    exact ⟨iff_of_true (.refused _ _) hends, fun h => absurd h hends⟩

/-- Quotes of both kinds, escapes, and a word without letters. -/
def quotedText : List Char := "a\\ b 'c\\' \"d\\\"e\"f ''".toList

theorem splitters_agree_quoted :
    '%' ∉ quotedText ∧ ¬ EndsInEscape quotedText ∧
      Agree (splitWords quotedText) (splitArguments [.text quotedText]) ∧
      splitArguments [.text quotedText] = .ok ["a b", "c\\", "d\"ef", ""] := by
  have hplain : '%' ∉ quotedText := by decide +kernel
  have hends : ¬ EndsInEscape quotedText := by decide +kernel
  exact ⟨hplain, hends, (splitters_agree_iff hplain).1.mpr hends, by decide +kernel⟩

/-- In a command a backslash at the end is a letter, in a directive it is none. -/
theorem splitters_differ :
    '%' ∉ ['a', '\\'] ∧ splitWords ['a', '\\'] = .ok [plainWord ['a']] ∧
      splitArguments [.text ['a', '\\']] = .ok ["a\\"] ∧
      ¬ Agree (splitWords ['a', '\\']) (splitArguments [.text ['a', '\\']]) := by
  have hwords : splitWords ['a', '\\'] = .ok ([['a']].map plainWord) := by decide +kernel
  have hargs : splitArguments [.text ['a', '\\']] = .ok ([['a', '\\']].map String.ofList) := by
    decide +kernel
  refine ⟨by decide, hwords, hargs, ?_⟩
  rw [hwords, hargs, agree_ok_iff]
  decide

end MediaPipeline.Template
