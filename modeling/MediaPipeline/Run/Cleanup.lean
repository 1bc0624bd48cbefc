import MediaPipeline.Run.State

/-!
# Cleaning up

When a run is over, the files that flagged parameters name are removed. A file
that is gone already is no failure, so cleaning up twice does no harm.
-/

namespace MediaPipeline

namespace Cleanup

/-- The paths that go, in order: those named by dynamic parameters, then those
named by internal ones. -/
def paths (store : Store) (w : Workspace) (failed : Bool) : List Path :=
  (store.allParameters .dynamic ++ store.allParameters .tmp).filterMap fun p =>
    let text := Text.trimmed p.2.value
    if p.2.cleanup.applies failed && !text.isEmpty then some (w.resolve ⟨text⟩) else none

/-- Count the outcome of one removal. -/
def count (r : CleanupReport) : Except OsError Unit → CleanupReport
  | .ok () => { r with removed := r.removed + 1 }
  | .error .notFound => { r with missing := r.missing + 1 }
  | .error _ => { r with failed := r.failed + 1 }

/-- Remove paths one after the other. -/
def removeAll {σ : Type} (host : Host σ) : List Path → CleanupReport → σ → CleanupReport × σ
  | [], report, s => (report, s)
  | p :: rest, report, s =>
    let r := host.remove p s
    removeAll host rest (count report r.1) r.2

/-- Remove the files that flagged parameters name. -/
def perform {σ : Type} (host : Host σ) (store : Store) (w : Workspace) (failed : Bool) (s : σ) :
    CleanupReport × σ :=
  removeAll host (paths store w failed) ⟨0, 0, 0⟩ s

end Cleanup

end MediaPipeline
