import MediaPipeline.Proofs.TemplateResolution
import MediaPipeline.Proofs.TemplateRoundTrip

/-!
# Commands as templates

Every argument vector can be written as a template: each argument between double quotes, its
quotes and backslashes behind a backslash, and every percent sign doubled. The scanner undoes
the doubling and leaves one text (`tokenize_printText`), and the argument builder takes the
quotes off again (`finish_commandLine`), so that the template resolves to just these arguments
(`resolveArgv_commandTemplate`).
-/

namespace MediaPipeline.Template

/-! ## Quoted arguments -/

/-- A character between double quotes. -/
def quoteChar (c : Char) : List Char := if c = '"' ∨ c = '\\' then ['\\', c] else [c]

/-- An argument between double quotes. -/
def quoteArgument (arg : String) : List Char := '"' :: (arg.toList.flatMap quoteChar ++ ['"'])

/-- The arguments in quotes, with a space between them. -/
def commandLine (argv : List String) : List Char := [' '].intercalate (argv.map quoteArgument)

/-- A template for an argument vector. -/
def commandTemplate (argv : List String) : String := String.ofList (printText (commandLine argv))

namespace ArgumentBuilder

/-- Between double quotes, with this much of a word. -/
def quoting (finished : List (List Char)) (word : List Char) : ArgumentBuilder :=
  ⟨finished, some word, some '"', false⟩

/-- Outside quotes. -/
def waiting (finished : List (List Char)) (word : Option (List Char)) : ArgumentBuilder :=
  ⟨finished, word, none, false⟩

theorem foldl_quoteChar (finished : List (List Char)) (word : List Char) (c : Char) :
    (quoteChar c).foldl char (quoting finished word) = quoting finished (word ++ [c]) := by
  unfold quoteChar
  by_cases hescaped : c = '"' ∨ c = '\\'
  · rw [if_pos hescaped]
    rfl
  · obtain ⟨hquote, hbackslash⟩ := not_or.mp hescaped
    rw [if_neg hescaped]
    simp [quoting, char, push, hquote, hbackslash]

theorem foldl_quoteArgument (finished : List (List Char)) (arg : String) :
    (quoteArgument arg).foldl char (waiting finished none) =
      waiting finished (some arg.toList) := by
  have hchars (cs word : List Char) :
      (cs.flatMap quoteChar).foldl char (quoting finished word) =
        quoting finished (word ++ cs) := by
    induction cs generalizing word with
    | nil => rw [List.append_nil]; rfl
    | cons c cs ih =>
      rw [List.flatMap_cons, List.foldl_append, foldl_quoteChar, ih, List.append_assoc]
      rfl
  rw [quoteArgument, List.foldl_cons, List.foldl_append]
  exact congrArg (fun b => [('"' : Char)].foldl char b) (hchars arg.toList [])

/-- The builder takes the quotes off again. -/
theorem finish_commandLine (finished : List (List Char)) (argv : List String) :
    ((commandLine argv).foldl char (waiting finished none)).finish =
      .ok (finished ++ argv.map String.toList) := by
  induction argv generalizing finished with
  | nil => rfl
  | cons arg argv ih =>
    cases argv with
    | nil =>
      have hline : commandLine [arg] = quoteArgument arg := by simp [commandLine]
      rw [hline, foldl_quoteArgument]
      rfl
    | cons next argv =>
      have hline : commandLine (arg :: next :: argv) =
          quoteArgument arg ++ ' ' :: commandLine (next :: argv) := by
        simp [commandLine]
      have hspace : (waiting finished (some arg.toList)).char ' ' =
          waiting (finished ++ [arg.toList]) none := rfl
      rw [hline, List.foldl_append, foldl_quoteArgument, List.foldl_cons, hspace, ih]
      simp

end ArgumentBuilder

theorem splitArguments_commandLine (argv : List String) :
    splitArguments [.text (commandLine argv)] = .ok argv := by
  have hfinish := ArgumentBuilder.finish_commandLine [] argv
  have hargs : (argv.map String.toList).map String.ofList = argv := by simp
  rw [splitArguments]
  show Except.map _ ((commandLine argv).foldl ArgumentBuilder.char (.waiting [] none)).finish = _
  rw [hfinish, List.nil_append]
  exact congrArg Except.ok hargs

/-! ## The template -/

theorem commandLine_ne_nil {argv : List String} (h : argv ≠ []) : commandLine argv ≠ [] := by
  obtain ⟨arg, rest, rfl⟩ := List.exists_cons_of_ne_nil h
  cases rest <;> simp [commandLine, quoteArgument]

/-- A command is accepted as a template that resolves to its arguments everywhere. -/
theorem resolveArgv_commandTemplate {argv : List String} (h : argv ≠ []) :
    ∃ t, Template.parse (commandTemplate argv) = .ok t ∧
      ∀ scope s, (t.resolveArgv scope).result s = (.ok argv, s) := by
  have hblock : textBlock (commandLine argv) = .text (commandLine argv) .done :=
    if_neg (commandLine_ne_nil h)
  refine ⟨⟨commandTemplate argv, .text (commandLine argv) .done⟩, ?_, fun scope s => ?_⟩
  · rw [parse_eq_ok, commandTemplate, String.toList_ofList, ← hblock]
    exact tokenize_printText (commandLine argv)
  · -- The output is the command line as one chunk of literal text.
    have heval : (Template.eval ⟨commandTemplate argv, .text (commandLine argv) .done⟩ scope).result
        s = (.ok [.text (commandLine argv)], s) := rfl
    rw [(resolve_of_ok heval).1, splitArguments_commandLine]
    obtain ⟨program, arguments, rfl⟩ := List.exists_cons_of_ne_nil h
    rfl

/-- Arguments that look like references, directives, quotes and escapes, and an empty one. -/
def unwieldy : List String :=
  ["a b", "", "%\x7bdynamic.x\x7d", "%if 1%", "100%%", "it's", "say \"no\"", "C:\\"]

theorem resolveArgv_commandTemplate_unwieldy :
    unwieldy ≠ [] ∧ ∃ t, Template.parse (commandTemplate unwieldy) = .ok t ∧
      ∀ scope s, (t.resolveArgv scope).result s = (.ok unwieldy, s) :=
  ⟨List.cons_ne_nil _ _, resolveArgv_commandTemplate (List.cons_ne_nil _ _)⟩

end MediaPipeline.Template
