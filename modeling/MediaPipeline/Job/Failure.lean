import MediaPipeline.Failure
import MediaPipeline.Path

/-!
# Failures of jobs

A job reads its files, prepares a run and carries it out. What stops it is a
failure of the library or something that was wrong before; each part of the job
around it may say what it was doing.
-/

namespace MediaPipeline

/-- A file that a job reads. -/
inductive InputFile where
  | pipeline
  | package
  | config
deriving DecidableEq

/-- The word for a file. -/
def InputFile.word : InputFile → String
  | pipeline => "pipeline"
  | package => "package"
  | config => "config"

/-- What a job was doing. -/
inductive JobContext where
  | reading (file : InputFile) (path : Path)
  | parsing (file : InputFile) (path : Path)
  | validating (path : Path)
  | registering (resource : ResourceId)
  | preparing
  | probing
deriving DecidableEq

/-- The text of what a job was doing. -/
def JobContext.message : JobContext → String
  | reading file path => "Failed to read " ++ file.word ++ " file: " ++ path.quoted
  | parsing file path => "Failed to parse " ++ file.word ++ " file: " ++ path.quoted
  | validating path => "Invalid pipeline: " ++ path.quoted
  | registering resource => "Failed to register resource " ++ toString resource
  | preparing => "Failed to prepare working directory"
  | probing => "Failed to probe package resources"

/-- What stops a job. -/
inductive JobCause where
  | failed (failure : Failure)
  /-- A text is not what its format asks for. -/
  | malformed
  | system (error : OsError)
  /-- The directory for logs is a file. -/
  | logsAreFile (path : Path)
  | unnamedParameter
deriving DecidableEq

/-- The text of a cause; for malformed text it depends on the format and is left
out. -/
def JobCause.message : JobCause → String
  | failed failure => failure.message
  | malformed => ""
  | system error => error.message
  | logsAreFile path => "log_dir " ++ path.quoted ++ " is a file"
  | unnamedParameter => "Parameter names cannot be empty"

/-- A cause with what was being done, from the outside in. -/
structure JobFailure where
  contexts : List JobContext
  cause : JobCause
deriving DecidableEq

namespace JobFailure

/-- A cause on its own. -/
def ofCause (cause : JobCause) : JobFailure := ⟨[], cause⟩

/-- Say what was being done around a failure. -/
def within (context : JobContext) (f : JobFailure) : JobFailure :=
  { f with contexts := context :: f.contexts }

/-- The texts of a failure from the outside in. -/
def chain (f : JobFailure) : List String :=
  f.contexts.map (·.message) ++
    match f.cause with
    | .malformed => []
    | cause => [cause.message]

/-- The texts of a failure, joined. -/
def message (f : JobFailure) : String := ": ".intercalate f.chain

/-- The outermost text of a failure. -/
def headline (f : JobFailure) : String := f.chain.headD ""

end JobFailure

end MediaPipeline
