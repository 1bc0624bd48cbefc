import MediaPipeline.Workspace
import Mathlib.Data.List.Basic

/-!
# The names of logs

The log of a process is named after its number and its program. It lies in the log directory
itself, whatever the program is called (`parts_diagnosticLog`); and since its name begins with
the number, logs with different numbers have different names (`logName_injective`).
-/

namespace MediaPipeline

/-! ## Paths into a directory -/

namespace Path

theorem pieces_ne_nil (cs : List Char) : pieces cs ≠ [] := by
  cases cs with
  | nil => exact List.cons_ne_nil _ _
  | cons c cs =>
    rw [pieces]
    split
    · exact List.cons_ne_nil _ _
    · split <;> exact List.cons_ne_nil _ _

theorem pieces_append_slash (cs ds : List Char) :
    pieces (cs ++ '/' :: ds) = pieces cs ++ pieces ds := by
  induction cs with
  | nil => rfl
  | cons c cs ih =>
    obtain ⟨p, ps, hcs⟩ := List.exists_cons_of_ne_nil (pieces_ne_nil cs)
    by_cases hc : c = '/'
    · simp [pieces, hc, ih]
    · simp [pieces, hc, ih, hcs]

theorem pieces_of_no_slash {cs : List Char} (h : '/' ∉ cs) : pieces cs = [cs] := by
  induction cs with
  | nil => rfl
  | cons c cs ih =>
    simp only [List.mem_cons, not_or] at h
    rw [pieces, if_neg (Ne.symm h.1), ih h.2]

/-- What stands behind the last slash is one more component. -/
theorem parts_append_slash (cs : List Char) {ds : List Char} (h : '/' ∉ ds) :
    (Path.mk (String.ofList (cs ++ '/' :: ds))).parts =
      (Path.mk (String.ofList (cs ++ ['/']))).parts ++ (part? ds).toList := by
  have hend : pieces (cs ++ ['/']) = pieces cs ++ [[]] := pieces_append_slash cs []
  have habsolute : (cs ++ '/' :: ds).head? = (cs ++ ['/']).head? := by cases cs <;> rfl
  have hfirst (l : List (List Char)) : (pieces cs ++ l).head? = (pieces cs).head? :=
    List.head?_append_of_ne_nil _ (pieces_ne_nil cs)
  have hpart (piece : List Char) : [piece].filterMap part? = (part? piece).toList := by
    rw [List.filterMap_eq_flatMap_toList, List.flatMap_singleton]
  have hnone : part? [] = none := rfl
  simp only [parts, isAbsolute, String.toList_ofList, pieces_append_slash, pieces_of_no_slash h,
    hend, habsolute, hfirst, List.filterMap_append, List.append_assoc, hpart, hnone,
    Option.toList_none, List.nil_append]

/-- A slash at the end means nothing, unless it is the root. -/
theorem parts_slash {cs : List Char} (h : cs ≠ []) :
    (Path.mk (String.ofList (cs ++ ['/']))).parts = (Path.mk (String.ofList cs)).parts := by
  have hend : pieces (cs ++ ['/']) = pieces cs ++ [[]] := pieces_append_slash cs []
  have habsolute : (cs ++ ['/']).head? = cs.head? := List.head?_append_of_ne_nil _ h
  have hfirst : (pieces cs ++ [[]]).head? = (pieces cs).head? :=
    List.head?_append_of_ne_nil _ (pieces_ne_nil cs)
  have hnone : part? [] = none := rfl
  simp [parts, isAbsolute, hend, habsolute, hfirst, hnone]

/-- A name in a directory is a direct child of it. -/
theorem parts_join (dir : Path) {name : List Char} (hslash : '/' ∉ name)
    (hname : part? name = some (.name (String.ofList name))) :
    (dir.join ⟨String.ofList name⟩).parts = dir.parts ++ [.name (String.ofList name)] := by
  have hrelative : (Path.mk (String.ofList name)).isAbsolute = false := by
    cases name with
    | nil => rfl
    | cons c name =>
      simp only [List.mem_cons, not_or] at hslash
      simp [isAbsolute, Ne.symm hslash.1]
  obtain ⟨text⟩ := dir
  obtain ⟨cs, rfl⟩ : ∃ cs, text = String.ofList cs := ⟨text.toList, (String.ofList_toList).symm⟩
  have hjoined := parts_append_slash cs hslash
  rw [hname, Option.toList_some] at hjoined
  rw [join, hrelative, if_neg Bool.false_ne_true]
  by_cases hnil : cs = []
  -- The name alone: it is no `.`, so nothing stands in front of it.
  · subst hnil
    have hdot : name ≠ ['.'] := by
      rintro rfl
      cases hname
    have hparts : (Path.mk (String.ofList name)).parts = [.name (String.ofList name)] := by
      simp [parts, hrelative, pieces_of_no_slash hslash, hdot, hname]
    exact hparts
  · by_cases hlast : cs.getLast? = some '/'
    · obtain ⟨front, rfl⟩ := List.getLast?_eq_some_iff.mp hlast
      have hfront := parts_append_slash front hslash
      rw [hname, Option.toList_some] at hfront
      simpa [String.ofList_append, String.append_assoc] using hfront
    · rw [parts_slash hnil] at hjoined
      simpa [hnil, hlast, String.ofList_append, String.append_assoc] using hjoined

end Path

/-! ## The names of logs -/

namespace Workspace

/-- A number as it stands in the name of a log. -/
def logDigits (seq : Nat) : List Char :=
  List.replicate (4 - (Nat.toDigits 10 seq).length) '0' ++ Nat.toDigits 10 seq

theorem isDigit_of_mem_logDigits {seq : Nat} {c : Char} (h : c ∈ logDigits seq) :
    c.isDigit = true := by
  rcases List.mem_append.mp h with h | h
  · rw [List.eq_of_mem_replicate h]
    rfl
  · exact Nat.isDigit_of_mem_toDigits (by decide) (by decide) h

theorem logDigits_injective {m n : Nat} (h : logDigits m = logDigits n) : m = n := by
  have hvalue (k : Nat) : Nat.ofDigitChars 10 (logDigits k) 0 = k := by
    rw [logDigits, Nat.ofDigitChars_append, Nat.ofDigitChars_replicate_zero, Nat.mul_zero,
      Nat.ofDigitChars_ten_toDigits]
  rw [← hvalue m, ← hvalue n, h]

/-- The text of a program in the name of a log. -/
def logProgram (program : String) : List Char :=
  program.toList.map fun c => if isLogChar c then c else '_'

theorem toList_logName (seq : Nat) (program : String) :
    (logName seq program).toList = logDigits seq ++ '-' :: (logProgram program ++ ".log".toList) := by
  simp [logName, Text.showPadded, logDigits, logProgram]

/-- Whatever the program is called, the number is what stands in front of the first hyphen. -/
theorem logName_injective {m n : Nat} {program other : String}
    (h : logName m program = logName n other) : m = n := by
  have hdigits (k : Nat) (rest : List Char) :
      (logDigits k ++ '-' :: rest).takeWhile Char.isDigit = logDigits k := by
    rw [List.takeWhile_append_of_pos fun _ hc => isDigit_of_mem_logDigits hc,
      List.takeWhile_cons_of_neg (by decide), List.append_nil]
  have hchars := congrArg (List.takeWhile Char.isDigit ∘ String.toList) h
  simp only [Function.comp_apply, toList_logName, hdigits] at hchars
  exact logDigits_injective hchars

theorem no_slash_logName (seq : Nat) (program : String) : '/' ∉ (logName seq program).toList := by
  have hprogram : '/' ∉ logProgram program := by
    intro hm
    obtain ⟨c, -, hc⟩ := List.mem_map.mp hm
    split at hc
    · next hlog =>
      rw [hc] at hlog
      cases hlog
    · cases hc
  have hend : '/' ∉ ".log".toList := by decide
  rw [toList_logName]
  simp only [List.mem_append, List.mem_cons, not_or]
  exact ⟨fun hm => Bool.false_ne_true (isDigit_of_mem_logDigits hm), by decide, hprogram, hend⟩

/-- A log lies in the log directory itself. -/
theorem parts_diagnosticLog (w : Workspace) (seq : Nat) (program : String) :
    (w.diagnosticLog seq program).parts = w.logs.parts ++ [.name (logName seq program)] := by
  have hhyphen : '-' ∈ (logName seq program).toList := by simp [toList_logName]
  have hne (piece : List Char) (hpiece : '-' ∉ piece) : (logName seq program).toList ≠ piece :=
    fun he => hpiece (he ▸ hhyphen)
  have hname : Path.part? (logName seq program).toList =
      some (.name (String.ofList (logName seq program).toList)) := by
    rw [Path.part?, if_neg (not_or.mpr ⟨hne [] (by decide), hne ['.'] (by decide)⟩),
      if_neg (hne ['.', '.'] (by decide))]
  have hparts := w.logs.parts_join (no_slash_logName seq program) hname
  rwa [String.ofList_toList] at hparts

end Workspace

end MediaPipeline
