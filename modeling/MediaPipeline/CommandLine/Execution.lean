import MediaPipeline.CommandLine.Invocation

/-!
# Carrying out invocations

What the program prints and the code with which it ends. What was printed before a
failure stays.
-/

namespace MediaPipeline.CommandLine

/-- What the program leaves. -/
structure Outcome where
  code : Nat
  output : String
  /-- What is said of a failure. -/
  failure : Option String
deriving DecidableEq

/-- The program and its version. -/
def banner : String := "convforge 0.1.0\n"

/-- How the program is called. -/
def usage : String :=
  "Usage: convforge [OPTIONS] <COMMAND>\n\nCommands:\n" ++
    "  convert PIPELINE --package FILE [--working-dir DIR] [--param KEY=VALUE]... [--dry-run]\n" ++
    "  validate PIPELINE\n  check-tools\n  version\n\n" ++
    "Options:\n  -c, --config FILE\n  -v, --verbose\n  -h, --help\n  -V, --version\n"

/-- The program did what it was asked for. -/
def Outcome.done (output : String) : Outcome := ⟨0, output, none⟩

/-- The program failed after printing something. -/
def Outcome.failed (output : String) (f : JobFailure) : Outcome := ⟨1, output, some f.headline⟩

/-- The outcome of arguments that name no command. -/
def Stop.outcome : Stop → Outcome
  | .misuse => ⟨2, "", none⟩
  | .help => .done usage
  | .version => .done banner

/-- Operations as a numbered list. -/
def numbered : Nat → List String → String
  | _, [] => ""
  | n, kind :: rest =>
    "    " ++ Text.showNat n ++ ". " ++ kind ++ "\n" ++ numbered (n + 1) rest

/-- What is said of a pipeline that is in order. -/
def pipelineReport (p : Pipeline) : String :=
  let kinds := p.operations.kinds
  "✓ Pipeline '" ++ p.name ++ "' is valid\n" ++
    "  Operations: " ++ Text.showNat kinds.length ++ "\n" ++ numbered 1 kinds

/-- What is said of a tool. -/
def toolLine (r : ToolReport) : String :=
  (if r.isAvailable then "✓ " else "✗ ") ++ r.name ++
    (match r.version with
      | some v => " (" ++ v ++ ")"
      | none => "") ++
    (match r.path with
      | some p => " - " ++ p.text
      | none => "") ++ "\n"

/-- What is said of all tools. -/
def toolSummary (reports : List ToolReport) : String :=
  String.join (reports.map toolLine) ++ "\n" ++
    if reports.all (·.isAvailable) then "All tools are available!\n"
    else "Some tools are missing. Pipelines using them will fail.\n"

variable {σ : Type}

/-- The state in which a job starts on a machine. -/
def freshState (machine : σ) : RunState σ := ⟨.empty, firstSeq, machine, []⟩

/-- Carry out a conversion. -/
def convert (host : Host σ) (config : Option Path) (c : Conversion) (machine : σ) :
    Outcome × σ :=
  match Settings.find host machine config with
  | .error f => (.failed "" f, machine)
  | .ok settings =>
    match (c.run host settings).result (freshState machine) with
    | (.error f, s) => (.failed "" f, s.machine)
    | (.ok (), s) =>
      (.done (if c.dryRun then "[DRY RUN] Pipeline resolved, no processes started\n"
        else "Conversion complete\n"), s.machine)

/-- Check a pipeline. -/
def validate (host : Host σ) (path : Path) (machine : σ) : Outcome :=
  let opening := "Validating pipeline: " ++ path.quoted ++ "\n"
  match Pipeline.load host machine path with
  | .error f => .failed opening f
  | .ok p =>
    match p.validate with
    | .error f => .failed opening (.ofCause (.failed f))
    | .ok () => .done (opening ++ pipelineReport p)

/-- Check the tools. -/
def checkTools (host : Host σ) (config : Option Path) (machine : σ) : Outcome × σ :=
  let opening := "Checking external tools...\n\n"
  match Settings.find host machine config with
  | .error f => (.failed opening f, machine)
  | .ok settings =>
    let tools := Toolbox.discover host machine (settings.configuredTools host.home)
    let (reports, machine) := tools.check host machine
    (.done (opening ++ toolSummary reports), machine)

/-- Carry out what the arguments ask for. -/
def run (host : Host σ) (args : List String) (machine : σ) : Outcome × σ :=
  match Invocation.parse args with
  | .error stop => (stop.outcome, machine)
  | .ok invocation =>
    match invocation.command with
    | .convert c => convert host invocation.config c machine
    | .validate path => (validate host path machine, machine)
    | .checkTools => checkTools host invocation.config machine
    | .version => (.done banner, machine)

end MediaPipeline.CommandLine
