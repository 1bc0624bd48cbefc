import MediaPipeline.Document.Decode
import MediaPipeline.Document.Toml
import MediaPipeline.Job.Failure
import MediaPipeline.Run.Host

/-!
# Settings

What a job takes from a configuration file: directories, the places of tools,
what is switched on, and parameters for every pipeline. A table may also be
written as a list of its values in order.
-/

namespace MediaPipeline

open Document

/-- The tools whose place can be configured, in order of their fields. -/
def configurableTools : List String := ["ffmpeg", "ffprobe", "mkvmerge", "sox"]

/-- The field that gives the place of a tool. -/
def toolField (tool : String) : String := tool ++ "_path"

/-- The settings of a job. -/
structure Settings where
  directory : Option Path
  logs : Option Path
  /-- The configured places of tools, as they were written. -/
  tools : List (String × Path)
  /-- Whether essences are probed before a run. -/
  probes : Bool
  /-- Whether a run is cleaned up after. -/
  cleansUp : Bool
  /-- Dynamic parameters for every pipeline, in order of their names. -/
  parameters : List (String × String)
deriving DecidableEq

namespace Settings

/-- The settings without a file. -/
def standard : Settings := ⟨none, none, [], true, true, []⟩

/-! ## Reading -/

/-- A path. -/
def asPath : Decoder Path := fun d => d.asText.map Path.mk

/-- The places of tools. -/
def asTools : Decoder (List (String × Path)) := fun d => do
  let r ← d.asRecord (configurableTools.map toolField) true
  let places ← configurableTools.mapM fun tool =>
    (r.optional (toolField tool) asPath).map fun place => place.map fun p => (tool, p)
  pure (places.filterMap id)

/-- Whether something is switched on. -/
def asSwitch : Decoder Bool := fun d => do
  let r ← d.asRecord ["enabled"] true
  r.withDefault "enabled" true asFlag

/-- Settings. -/
def decode : Decoder Settings := fun d => do
  let r ← d.asRecord ["working_dir", "log_dir", "tools", "probe", "cleanup", "parameters"] true
  pure {
    directory := ← r.optional "working_dir" asPath
    logs := ← r.optional "log_dir" asPath
    tools := ← r.withDefault "tools" [] asTools
    probes := ← r.withDefault "probe" true asSwitch
    cleansUp := ← r.withDefault "cleanup" true asSwitch
    parameters := ← r.withDefault "parameters" [] (asTable asText) }

/-! ## Paths below the home directory -/

/-- A path in which a tilde in front, alone or before a slash, stands for the home
directory. -/
def expandHome (home : Path) (p : Path) : Path :=
  match p.text.toList with
  | ['~'] => home
  | '~' :: '/' :: rest => ⟨home.text ++ String.ofList ('/' :: rest)⟩
  | _ => p

/-- The configured places of tools. -/
def configuredTools (s : Settings) (home : Path) : List (String × Path) :=
  s.tools.map fun t => (t.1, expandHome home t.2)

/-! ## Loading -/

variable {σ : Type}

/-- Require that settings can be used. -/
def check (host : Host σ) (machine : σ) (s : Settings) : Except JobFailure Unit :=
  match s.logs.filter fun p => host.isFile p machine with
  | some p => .error (.ofCause (.logsAreFile p))
  | none =>
    if s.parameters.any fun p => (Text.trim p.1.toList).isEmpty then
      .error (.ofCause .unnamedParameter)
    else .ok ()

/-- Read settings from a file. -/
def load (host : Host σ) (machine : σ) (path : Path) : Except JobFailure Settings := do
  let text ← (host.readText path machine).mapError fun e =>
    (JobFailure.ofCause (.system e)).within (.reading .config path)
  match (Toml.parse? text).bind decode with
  | none => .error ((JobFailure.ofCause .malformed).within (.parsing .config path))
  | some s =>
    let s : Settings :=
      { s with
        directory := s.directory.map (expandHome host.home)
        logs := s.logs.map (expandHome host.home) }
    s.check host machine
    pure s

/-- Where settings are looked for when no file is named. -/
def standardPaths (home : Path) : List Path :=
  ["./convforge.toml", "~/.config/convforge/config.toml", "/etc/convforge/config.toml"].map
    fun p => expandHome home ⟨p⟩

/-- The settings of a named file, of the first standard place that has one, or the
standard ones. -/
def find (host : Host σ) (machine : σ) : Option Path → Except JobFailure Settings
  | some path => load host machine path
  | none =>
    match (standardPaths host.home).find? fun p => host.isPresent p machine with
    | some path => load host machine path
    | none => .ok standard

/-! ## Writing -/

/-- A path, or null. -/
def ofPath (p : Option Path) : Document := .ofOption (p.map (·.text))

/-- Settings as a document with every field. -/
def toDocument (s : Settings) : Document :=
  .object
    [("working_dir", ofPath s.directory), ("log_dir", ofPath s.logs),
      ("tools", .object (configurableTools.map fun tool =>
        (toolField tool, ofPath ((s.tools.find? fun t => t.1 == tool).map (·.2))))),
      ("probe", .object [("enabled", .flag s.probes)]),
      ("cleanup", .object [("enabled", .flag s.cleansUp)]),
      ("parameters", .object (s.parameters.map fun p => (p.1, .text p.2)))]

end Settings

end MediaPipeline
