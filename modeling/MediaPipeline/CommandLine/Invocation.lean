import MediaPipeline.CommandLine.Arguments
import MediaPipeline.Job.Conversion

/-!
# Invocations

What the arguments of the program ask for. The two common options may stand before
or after the name of the command; where both give a value, the later counts. An
option that is not a list may be given once in each of the two places.
-/

namespace MediaPipeline.CommandLine

/-- A command of the program. -/
inductive CliCommand where
  | convert (c : Conversion)
  | validate (pipeline : Path)
  | checkTools
  | version
deriving DecidableEq

/-- What the arguments ask for. -/
structure Invocation where
  config : Option Path
  verbose : Bool
  command : CliCommand
deriving DecidableEq

/-- Why arguments name no command to run. -/
inductive Stop where
  /-- The arguments are wrong. -/
  | misuse
  | help
  | version
deriving DecidableEq

/-! ## Parameters -/

/-- A parameter as it is given on the command line, a name and a value with an equals
sign between them. The name is trimmed and must not be empty. -/
def parseParam (text : String) : Except String (String × String) :=
  let refused := "expected KEY=VALUE, got '" ++ text ++ "'"
  match text.toList.span (· ≠ '=') with
  | (name, _ :: value) =>
    let name := Text.trim name
    if name.isEmpty then .error refused else .ok (String.ofList name, String.ofList value)
  | (_, []) => .error refused

/-! ## Options -/

/-- The options that stand before or after the name of a command. -/
def commonOptions : List OptionSpec :=
  [⟨"config", some 'c', true⟩, ⟨"verbose", some 'v', false⟩, ⟨"help", some 'h', false⟩]

/-- The options that only stand before the name of a command. -/
def outerOptions : List OptionSpec := ⟨"version", some 'V', false⟩ :: commonOptions

/-- The options of a conversion. -/
def convertOptions : List OptionSpec :=
  [⟨"package", none, true⟩, ⟨"working-dir", none, true⟩, ⟨"param", none, true⟩,
    ⟨"dry-run", none, false⟩] ++ commonOptions

/-- What was given in one place. -/
structure Given where
  config : Option Path
  verbose : Bool
  operand : Option Path
  package : Option Path
  directory : Option Path
  parameters : List (String × String)
  dryRun : Bool
deriving DecidableEq

/-- Nothing was given. -/
def Given.none : Given := ⟨.none, false, .none, .none, .none, [], false⟩

/-- A path that is given once and is not empty. -/
def setOnce (value : String) : Option Path → Except Stop (Option Path)
  | some _ => .error .misuse
  | .none => if value.isEmpty then .error .misuse else .ok (some ⟨value⟩)

/-- A flag that is given once. -/
def raiseOnce : Bool → Except Stop Bool
  | true => .error .misuse
  | false => .ok true

/-- Take an argument. -/
def Given.take (g : Given) : Argument → Except Stop Given
  | .flag "help" => .error .help
  | .flag "version" => .error .version
  | .flag "verbose" => do pure { g with verbose := ← raiseOnce g.verbose }
  | .flag "dry-run" => do pure { g with dryRun := ← raiseOnce g.dryRun }
  | .valued "config" value => do pure { g with config := ← setOnce value g.config }
  | .valued "package" value => do pure { g with package := ← setOnce value g.package }
  | .valued "working-dir" value => do pure { g with directory := ← setOnce value g.directory }
  | .valued "param" value =>
    match parseParam value with
    | .ok p => .ok { g with parameters := g.parameters ++ [p] }
    | .error _ => .error .misuse
  | .operand text => do pure { g with operand := ← setOnce text g.operand }
  | _ => .error .misuse

/-- Take arguments in order. -/
def Given.ofArguments (args : List Argument) : Except Stop Given :=
  args.foldlM Given.take Given.none

/-- The command with a name and what was given for it. -/
def commandOf (name : String) (g : Given) : Except Stop CliCommand :=
  match name, g.operand with
  | "convert", some pipeline =>
    match g.package with
    | some package => .ok (.convert ⟨pipeline, package, g.directory, g.parameters, g.dryRun⟩)
    | .none => .error .misuse
  | "validate", some pipeline => .ok (.validate pipeline)
  | "check-tools", .none => .ok .checkTools
  | "version", .none => .ok .version
  | _, _ => .error .misuse

/-- The options that stand after the name of a command; nothing if there is no such
command. -/
def optionsOf? (name : String) : Option (List OptionSpec) :=
  if name = "convert" then some convertOptions
  else if name ∈ ["validate", "check-tools", "version"] then some commonOptions
  else .none

/-- What arguments ask for. -/
def Invocation.parse (args : List String) : Except Stop Invocation := do
  let (before, inner) := read outerOptions true args
  let outer ← Given.ofArguments before
  match inner with
  | .none => .error .misuse
  | some ("help", _) => .error .help
  | some (name, rest) =>
    match optionsOf? name with
    | .none => .error .misuse
    | some options =>
      let g ← Given.ofArguments (read options false rest).1
      let command ← commandOf name g
      pure ⟨g.config.or outer.config, g.verbose || outer.verbose, command⟩

end MediaPipeline.CommandLine
