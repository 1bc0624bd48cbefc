import Mathlib.Data.List.Basic
import Mathlib.Tactic.SplitIfs
import MediaPipeline.Template.Arguments

/-!
# Splitting marked output

What a template yields can be written as one stream of characters, in which those that come
from values are marked: they are ordinary whatever they look like. `splitMarks` reads such a
stream from left to right and gives each element its role: a letter of a word, a silent part
of one, or a gap. The words are the stretches between gaps.

A splitter can differ in which character a backslash makes ordinary. The argument builder
waits for the next character of literal text and lets values pass in between. Where no value
stands right behind a backslash, this is the next character of the stream
(`splitArguments_marked`).
-/

namespace MediaPipeline.Template

/-! ## Streams -/

/-- An element of output. -/
inductive Mark where
  /-- A character of literal text. -/
  | literal (c : Char)
  /-- A character of a value. -/
  | ordinary (c : Char)
  /-- A value without characters. -/
  | nothing
deriving DecidableEq

/-- The elements of a chunk. -/
def Chunk.marks : Chunk → List Mark
  | text cs => cs.map .literal
  | value s => if s = "" then [.nothing] else s.toList.map .ordinary

/-- Output as one stream. -/
def marks (chunks : List Chunk) : List Mark := chunks.flatMap Chunk.marks

/-! ## Reading a stream -/

/-- The character that a backslash makes ordinary. -/
inductive EscapeReach where
  /-- The next one of the stream. -/
  | next
  /-- The next one of literal text. -/
  | nextLiteral
deriving DecidableEq

/-- What an element is to the words. -/
inductive Role where
  | letter (c : Char)
  /-- Part of a word, but no letter of it: a quote, a backslash, a value without characters. -/
  | silent
  /-- Between words. -/
  | gap
deriving DecidableEq

/-- The letter of a role. -/
def Role.letter? : Role → Option Char
  | letter c => some c
  | silent => none
  | gap => none

/-- Where a reader stands. -/
structure Stance where
  /-- The quote that is open. -/
  quote : Option Char
  /-- Whether a backslash waits for the character that it makes ordinary. -/
  escaped : Bool
deriving DecidableEq

namespace Stance

/-- Before the first element. -/
def start : Stance := ⟨none, false⟩

/-- The role of an element, and where the reader stands behind it. -/
def read (reach : EscapeReach) (s : Stance) : Mark → Role × Stance
  | .nothing => (.silent, s)
  | .ordinary c => (.letter c, { s with escaped := s.escaped && reach = .nextLiteral })
  | .literal c =>
    if s.escaped then (.letter c, { s with escaped := false })
    else
      match s.quote with
      | some q =>
        if c = q then (.silent, { s with quote := none })
        else if c = '\\' ∧ q = '"' then (.silent, { s with escaped := true })
        else (.letter c, s)
      | none =>
        if c = '\'' ∨ c = '"' then (.silent, { s with quote := some c })
        else if c = '\\' then (.silent, { s with escaped := true })
        else if Text.isBlank c then (.gap, s)
        else (.letter c, s)

/-- The roles of the elements of a stream. -/
def roles (reach : EscapeReach) (s : Stance) : List Mark → List Role
  | [] => []
  | m :: ms => (s.read reach m).1 :: roles reach (s.read reach m).2 ms

/-- Where the reader stands behind a stream. -/
def after (reach : EscapeReach) (s : Stance) : List Mark → Stance
  | [] => s
  | m :: ms => after reach (s.read reach m).2 ms

theorem after_append (reach : EscapeReach) (s : Stance) (ms ns : List Mark) :
    s.after reach (ms ++ ns) = (s.after reach ms).after reach ns := by
  induction ms generalizing s with
  | nil => rfl
  | cons m ms ih => exact ih (s.read reach m).2

theorem roles_append (reach : EscapeReach) (s : Stance) (ms ns : List Mark) :
    s.roles reach (ms ++ ns) = s.roles reach ms ++ (s.after reach ms).roles reach ns := by
  induction ms generalizing s with
  | nil => rfl
  | cons m ms ih =>
    rw [List.cons_append, roles, ih]
    rfl

/-- There are no gaps inside quotes. -/
theorem quote_of_gap {reach : EscapeReach} {s : Stance} {m : Mark}
    (h : (s.read reach m).1 = .gap) : (s.read reach m).2.quote = none := by
  cases m with
  | nothing => cases h
  | ordinary c => cases h
  | literal c =>
    obtain ⟨quote, escaped⟩ := s
    cases escaped with
    | true => cases h
    | false =>
      cases quote with
      | none =>
        simp only [read, Bool.false_eq_true, if_false] at h ⊢
        split_ifs at h ⊢
        rfl
      | some q =>
        simp only [read, Bool.false_eq_true, if_false] at h
        split_ifs at h

/-- A backslash that still waits at the end stands for itself. -/
def ending (s : Stance) : List Role := if s.escaped then [.letter '\\'] else []

end Stance

/-- The letters of a stretch. -/
def letters (stretch : List Role) : List Char := stretch.filterMap Role.letter?

@[simp] theorem letters_nil : letters [] = [] := rfl

@[simp] theorem letters_silent (rs : List Role) : letters (.silent :: rs) = letters rs := rfl

@[simp] theorem letters_letter (c : Char) (rs : List Role) :
    letters (.letter c :: rs) = c :: letters rs := rfl

/-- The words of some stretches; where gaps meet there is none. -/
def wordsOf (stretches : List (List Role)) : List (List Char) :=
  (stretches.filter (· ≠ [])).map letters

/-- The words: the stretches between gaps. -/
def words (rs : List Role) : List (List Char) := wordsOf (rs.splitOnP (· = .gap))

/-- The arguments that a stream spells. A quote must not be left open. -/
def splitMarks (reach : EscapeReach) (ms : List Mark) : Except Fault (List String) :=
  let final := Stance.start.after reach ms
  match final.quote with
  | some q => .error (.openQuote q)
  | none => .ok ((words (Stance.start.roles reach ms ++ final.ending)).map String.ofList)

/-! ## Words from left to right -/

/-- The words of the rest of some roles, given the word at hand. -/
def wordsFrom (word : Option (List Char)) : List Role → List (List Char)
  | [] => word.toList
  | .gap :: rs => word.toList ++ wordsFrom none rs
  | .silent :: rs => wordsFrom (some (word.getD [])) rs
  | .letter c :: rs => wordsFrom (some (word.getD [] ++ [c])) rs

/-- The word at hand goes on to the next gap. -/
theorem wordsFrom_eq {rs stretch : List Role} {stretches : List (List Role)}
    (h : rs.splitOnP (· = .gap) = stretch :: stretches) :
    (∀ w, wordsFrom (some w) rs = (w ++ letters stretch) :: wordsOf stretches) ∧
      wordsFrom none rs = wordsOf (stretch :: stretches) := by
  induction rs generalizing stretch stretches with
  | nil =>
    rw [List.splitOnP_nil] at h
    cases h
    exact ⟨fun w => by simp [wordsFrom, wordsOf], rfl⟩
  | cons r rs ih =>
    obtain ⟨first, more, hrest⟩ :=
      List.exists_cons_of_ne_nil (List.splitOnP_ne_nil (· = Role.gap) rs)
    obtain ⟨hsome, hnone⟩ := ih hrest
    rw [List.splitOnP_cons_eq_if_modifyHead, hrest] at h
    cases r with
    | gap =>
      cases h
      exact ⟨fun w => by simp [wordsFrom, hnone], by simp [wordsFrom, hnone, wordsOf]⟩
    | silent =>
      cases h
      exact ⟨fun w => by simp [wordsFrom, hsome], by simp [wordsFrom, hsome, wordsOf]⟩
    | letter c =>
      cases h
      exact ⟨fun w => by simp [wordsFrom, hsome], by simp [wordsFrom, hsome, wordsOf]⟩

theorem words_eq (rs : List Role) : words rs = wordsFrom none rs := by
  obtain ⟨first, more, hrs⟩ := List.exists_cons_of_ne_nil (List.splitOnP_ne_nil (· = Role.gap) rs)
  rw [words, hrs, (wordsFrom_eq hrs).2]

/-! ## The builder reads the stream -/

namespace ArgumentBuilder

/-- Take an element. -/
def mark (b : ArgumentBuilder) : Mark → ArgumentBuilder
  | .literal c => b.char c
  | .ordinary c => b.push c
  | .nothing => b.touch

/-- Take an element in its role. -/
def play (b : ArgumentBuilder) : Role → ArgumentBuilder
  | .letter c => b.push c
  | .silent => b.touch
  | .gap => b.endWord

/-- Where a builder stands. -/
def stance (b : ArgumentBuilder) : Stance := ⟨b.quote, b.escaped⟩

/-- Move to a stance. -/
def stand (b : ArgumentBuilder) (s : Stance) : ArgumentBuilder :=
  { b with quote := s.quote, escaped := s.escaped }

/-- Inside quotes there is a word at hand. -/
def Quoting (b : ArgumentBuilder) : Prop := b.quote ≠ none → b.word ≠ none

theorem foldl_push (b : ArgumentBuilder) (c : Char) (cs : List Char) :
    (c :: cs).foldl push b = { b with word := some (b.word.getD [] ++ c :: cs) } := by
  induction cs generalizing b c with
  | nil => rfl
  | cons d cs ih =>
    rw [List.foldl_cons, ih]
    simp [push]

theorem foldl_mark_chunk (b : ArgumentBuilder) (chunk : Chunk) :
    chunk.marks.foldl mark b = b.add chunk := by
  cases chunk with
  | text cs => exact List.foldl_map
  | value s =>
    show List.foldl mark b (if s = "" then _ else _) = _
    split_ifs with hs
    · subst hs
      simp [mark, touch, add]
    · obtain ⟨c, cs, hcs⟩ := List.exists_cons_of_ne_nil (mt String.toList_eq_nil_iff.mp hs)
      rw [List.foldl_map, add, hcs]
      exact foldl_push b c cs

theorem foldl_mark (b : ArgumentBuilder) (chunks : List Chunk) :
    (marks chunks).foldl mark b = chunks.foldl add b := by
  induction chunks generalizing b with
  | nil => rfl
  | cons chunk chunks ih =>
    rw [marks, List.flatMap_cons, List.foldl_append, foldl_mark_chunk, ← marks, ih, List.foldl_cons]

theorem touch_of_word {b : ArgumentBuilder} (h : b.word ≠ none) : b.touch = b := by
  obtain ⟨w, hw⟩ := Option.ne_none_iff_exists'.mp h
  simp only [touch, hw, Option.getD_some]
  rw [← hw]

/-- An element does what its role says. -/
theorem mark_eq {b : ArgumentBuilder} (hb : b.Quoting) (m : Mark) :
    b.mark m =
      (b.play (b.stance.read .nextLiteral m).1).stand (b.stance.read .nextLiteral m).2 := by
  cases m with
  | nothing => rfl
  | ordinary c => simp [mark, Stance.read, play, stand, stance, push]
  | literal c =>
    obtain ⟨finished, word, quote, escaped⟩ := b
    cases escaped with
    | true => rfl
    | false =>
      cases quote with
      | none =>
        simp only [mark, char, Stance.read, stance, Bool.false_eq_true, if_false]
        split_ifs <;> rfl
      | some q =>
        have htouch := touch_of_word (hb (Option.some_ne_none q))
        simp only [mark, char, Stance.read, stance, and_comm, Bool.false_eq_true, if_false]
        split_ifs
        · rw [play, htouch]
          rfl
        · rw [play, htouch]
          rfl
        · rfl

theorem stance_mark {b : ArgumentBuilder} (hb : b.Quoting) (m : Mark) :
    (b.mark m).stance = (b.stance.read .nextLiteral m).2 := by
  rw [mark_eq hb]
  rfl

/-- Each role but a gap leaves a word at hand. -/
theorem Quoting.mark {b : ArgumentBuilder} (hb : b.Quoting) (m : Mark) : (b.mark m).Quoting := by
  rw [mark_eq hb]
  intro hquote
  cases hrole : (b.stance.read .nextLiteral m).1 with
  | letter c => exact Option.some_ne_none _
  | silent => exact Option.some_ne_none _
  | gap => exact absurd (Stance.quote_of_gap hrole) hquote

theorem play_wordsFrom (b : ArgumentBuilder) (r : Role) (rs : List Role) :
    (b.play r).finished ++ wordsFrom (b.play r).word rs =
      b.finished ++ wordsFrom b.word (r :: rs) := by
  cases r with
  | letter c => rfl
  | silent => rfl
  | gap => exact List.append_assoc _ _ _

theorem finish_eq (b : ArgumentBuilder) :
    b.finish = match b.quote with
      | some q => .error (.openQuote q)
      | none => .ok (b.finished ++ wordsFrom b.word b.stance.ending) := by
  obtain ⟨finished, word, quote, escaped⟩ := b
  cases quote with
  | some q => rfl
  | none => cases escaped <;> simp [finish, Stance.ending, stance, endWord, push, wordsFrom]

/-- What a builder makes of the rest of a stream. -/
theorem finish_foldl_mark {b : ArgumentBuilder} (hb : b.Quoting) (ms : List Mark) :
    (ms.foldl mark b).finish =
      match (b.stance.after .nextLiteral ms).quote with
      | some q => .error (.openQuote q)
      | none => .ok (b.finished ++ wordsFrom b.word
          (b.stance.roles .nextLiteral ms ++ (b.stance.after .nextLiteral ms).ending)) := by
  induction ms generalizing b with
  | nil => exact finish_eq b
  | cons m ms ih =>
    have hwords := play_wordsFrom b (b.stance.read .nextLiteral m).1
    rw [List.foldl_cons, ih (hb.mark m), stance_mark hb, Stance.after, Stance.roles,
      List.cons_append, ← hwords, mark_eq hb]
    rfl

end ArgumentBuilder

/-- The arguments of some output, read as one stream. -/
theorem splitArguments_eq_splitMarks (chunks : List Chunk) :
    splitArguments chunks = splitMarks .nextLiteral (marks chunks) := by
  have hfinish := ArgumentBuilder.finish_foldl_mark (b := .start) (fun h => absurd rfl h)
    (marks chunks)
  rw [splitArguments, ← ArgumentBuilder.foldl_mark, hfinish, splitMarks, words_eq]
  show Except.map _ (match (Stance.start.after .nextLiteral (marks chunks)).quote with
    | some q => _
    | none => _) = _
  cases (Stance.start.after .nextLiteral (marks chunks)).quote <;> rfl

/-! ## Where values stand behind backslashes -/

/-- No value with characters stands right behind a backslash that waits for a character. -/
def ValuesUnescaped (chunks : List Chunk) : Prop :=
  ∀ before v after, chunks = before ++ .value v :: after → v ≠ "" →
    (Stance.start.after .next (marks before)).escaped = false

namespace Stance

/-- It makes no difference to a stream what a backslash reaches. -/
def Alike (s : Stance) (ms : List Mark) : Prop :=
  s.roles .next ms = s.roles .nextLiteral ms ∧ s.after .next ms = s.after .nextLiteral ms

theorem alike_cons {s : Stance} {m : Mark} {ms : List Mark}
    (hread : s.read .next m = s.read .nextLiteral m) (h : (s.read .next m).2.Alike ms) :
    s.Alike (m :: ms) := by
  unfold Alike roles after
  rw [← hread, h.1, h.2]
  exact ⟨rfl, rfl⟩

theorem alike_append {s : Stance} {ms ns : List Mark} (h : s.Alike ms)
    (hn : (s.after .next ms).Alike ns) : s.Alike (ms ++ ns) := by
  obtain ⟨hroles, hafter⟩ := h
  obtain ⟨hroles', hafter'⟩ := hn
  constructor
  · rw [roles_append, roles_append, hroles', hroles, hafter]
  · rw [after_append, after_append, hafter', hafter]

theorem alike_literals (s : Stance) (cs : List Char) : s.Alike (cs.map .literal) := by
  induction cs generalizing s with
  | nil => exact ⟨rfl, rfl⟩
  | cons c cs ih => exact alike_cons rfl (ih _)

theorem alike_ordinary {s : Stance} (hs : s.escaped = false) (cs : List Char) :
    s.Alike (cs.map .ordinary) := by
  induction cs with
  | nil => exact ⟨rfl, rfl⟩
  | cons c cs ih =>
    have hread (reach : EscapeReach) : s.read reach (.ordinary c) = (.letter c, s) := by
      obtain ⟨quote, escaped⟩ := s
      cases hs
      rfl
    exact alike_cons (by rw [hread, hread]) (by rw [hread]; exact ih)

/-- The marks of output in which no value stands behind a waiting backslash. -/
theorem alike_marks {s : Stance} {chunks : List Chunk}
    (h : ∀ before v after, chunks = before ++ .value v :: after → v ≠ "" →
      (s.after .next (marks before)).escaped = false) : s.Alike (marks chunks) := by
  induction chunks generalizing s with
  | nil => exact ⟨rfl, rfl⟩
  | cons chunk chunks ih =>
    refine alike_append ?_ (ih fun before v after hchunks hv => ?_)
    · cases chunk with
      | text cs => exact alike_literals s cs
      | value v =>
        show s.Alike (if v = "" then [.nothing] else v.toList.map .ordinary)
        split_ifs with hv
        · exact ⟨rfl, rfl⟩
        · exact alike_ordinary (h [] v chunks rfl hv) v.toList
    · rw [← after_append]
      exact h (chunk :: before) v after (by rw [hchunks, List.cons_append]) hv

end Stance

theorem splitMarks_of_alike {ms : List Mark} (h : Stance.start.Alike ms) :
    splitMarks .nextLiteral ms = splitMarks .next ms := by
  obtain ⟨hroles, hafter⟩ := h
  rw [splitMarks, splitMarks, hroles, hafter]

/-- The builder splits output as one stream, in which a backslash makes the next character
of literal text ordinary. Where no value stands right behind a waiting backslash, this is the
next character of the stream. -/
theorem splitArguments_marked (chunks : List Chunk) :
    splitArguments chunks = splitMarks .nextLiteral (marks chunks) ∧
      (ValuesUnescaped chunks → splitArguments chunks = splitMarks .next (marks chunks)) := by
  have hsplit := splitArguments_eq_splitMarks chunks
  exact ⟨hsplit, fun hvalues => hsplit.trans (splitMarks_of_alike (Stance.alike_marks hvalues))⟩

/-- Quotes, a value inside them, an escaped blank, and a value without characters behind a
backslash. -/
def quotedOutput : List Chunk :=
  [.text "a\\ b '".toList, .value "x  y", .text "' \\".toList, .value "", .text "'".toList]

theorem splitArguments_marked_quoted :
    ValuesUnescaped quotedOutput ∧
    splitArguments quotedOutput = splitMarks .next (marks quotedOutput) ∧
    splitMarks .next (marks quotedOutput) = .ok ["a b", "x  y", "'"] := by
  have hvalues : ValuesUnescaped quotedOutput := by
    -- Only the first value has characters, and it stands behind a quote.
    rintro (_ | ⟨_, _ | ⟨_, _ | ⟨_, _ | ⟨_, _ | ⟨_, before⟩⟩⟩⟩⟩) v after h hv
    all_goals simp only [quotedOutput, List.nil_append, List.cons_append, List.cons.injEq,
      Chunk.value.injEq, reduceCtorEq, false_and, and_false] at h
    · obtain ⟨rfl, rfl, -⟩ := h
      decide +kernel
    · exact absurd h.2.2.2.1.symm hv
    · exact absurd h.2.2.2.2 (by simp)
  exact ⟨hvalues, (splitArguments_marked quotedOutput).2 hvalues, by decide +kernel⟩

/-- A backslash before a value with characters reaches the blank behind the value. -/
theorem splitArguments_escaped_value :
    let chunks : List Chunk := [.text "p \\".toList, .value "a", .text " b".toList]
    splitArguments chunks = .ok ["p", "a b"] ∧
      splitMarks .next (marks chunks) = .ok ["p", "a", "b"] := by
  decide +kernel

end MediaPipeline.Template
