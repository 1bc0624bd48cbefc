import MediaPipeline.Machine.World

/-!
# Programs

What the name of a program stands for when it is started: a utility, the shell, or
a file that names the program that reads it.
-/

namespace MediaPipeline.Shell

open Machine (World Place Node)

/-- What a path or name of a program stands for. -/
inductive Image where
  | utility (name : String)
  | shell
  /-- A file that names its interpreter. -/
  | script (interpreter : String) (options : List String) (path : String)
deriving DecidableEq

/-- The directories in which programs are looked for. -/
def searchPath : List String := ["/usr/bin", "/bin"]

/-- The first line of a script after `#!`, in words. -/
def interpreterLine (data : ByteArray) : Option (List String) :=
  match (Text.ofBytes (data.extract 0 256)).toList with
  | '#' :: '!' :: rest =>
    let line := String.ofList (rest.takeWhile (· ≠ '\n'))
    some ((line.splitOn " ").filter fun w => !w.isEmpty)
  | _ => none

/-- What the file at a path stands for when it is started. -/
def imageAt (w : World) (cwd : Place) (path : String) : Except OsError Image := do
  match (← w.disk.lookup cwd true path).2 with
  | .program "sh" => pure .shell
  | .program name => pure (.utility name)
  | .file _ data true =>
    match interpreterLine data with
    | some (interpreter :: options) =>
      let interpreter := if interpreter = "/usr/bin/env" then options.headD "" else interpreter
      let place := if (Path.mk interpreter).isAbsolute then interpreter
        else "/usr/bin/" ++ interpreter
      match (← w.disk.lookup cwd true place).2 with
      | .program name =>
        let isOption (word : String) : Bool := word.toList.head? == some '-'
        pure (.script name (if name = "sh" then options.filter isOption else options) path)
      | _ => .error .permissionDenied
    | _ => pure (.script "sh" [] path)
  | _ => .error .permissionDenied

/-- What a program stands for: a path, or a name on the search path. -/
def findImage (w : World) (cwd : Place) (program : String) : Except OsError Image :=
  if program.toList.contains '/' then imageAt w cwd program
  else if program.isEmpty then .error .notFound
  else
    let tried := searchPath.map fun dir => imageAt w cwd (dir ++ "/" ++ program)
    match tried.find? (·.isOk) with
    | some r => r
    | none =>
      let refused := tried.any fun
        | .error .permissionDenied => true
        | _ => false
      .error (if refused then .permissionDenied else .notFound)

end MediaPipeline.Shell
