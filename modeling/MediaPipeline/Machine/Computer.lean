import MediaPipeline.Run.Host
import MediaPipeline.Shell.Run

/-!
# A computer

A host for runs: a disk with a few programs on it, and processes that run one at
a time. A process runs as soon as somebody waits and all of its input is known;
of several that could run, the one with the lowest number goes first. What it
prints is then handed to the process that it feeds.
-/

namespace MediaPipeline.Machine

open Shell (Image ShellState)

/-- A process that was launched. -/
structure Task where
  /-- Its number; of two tasks with one number the later counts. -/
  seq : Nat
  image : Image
  argv : List String
  cwd : Place
  /-- What is known of its input. -/
  input : ByteArray
  /-- Whether its input may still grow. -/
  inputOpen : Bool
  /-- The stream that takes its output; without one the output is handed on. -/
  output : Option Nat
  errors : Nat
  /-- The process that reads its output, and whether that has nothing else to read. -/
  feeds : Option (Nat × Bool)
  /-- How it ended, once it did. -/
  status : Option ExitStatus

/-- A computer. -/
structure Computer where
  world : World
  /-- The current directory. -/
  cwd : Place
  tasks : List Task
  /-- The process number that the next program gets. -/
  nextPid : Nat
  /-- The number of the next temporary directory. -/
  nextTemporary : Nat

namespace Computer

/-! ## The disk -/

/-- The directories that are there from the start. -/
def baseDirectories : List Place :=
  [["dev"], ["etc"], ["home"], ["tmp"], ["usr"], ["usr", "bin"]]

/-- The programs that are there from the start. -/
def basePrograms : List String := "sh" :: Utility.all.map (·.1)

/-- The disk that a computer starts with. -/
def baseDisk : Disk where
  nodes :=
    baseDirectories.map (fun p => (p, .directory)) ++
      basePrograms.map (fun name => (["usr", "bin", name], .program name)) ++
      [(["bin"], .link "usr/bin"), (["dev", "null"], .device .null),
        (["dev", "zero"], .device .zeros)]
  nextId := 0

/-- The home directory, which need not be there. -/
def home : String := "/home/oracle"

/-- The environment of every program. -/
def environment : List (String × String) :=
  [("HOME", home), ("PATH", "/usr/bin:/bin"), ("LC_ALL", "C")]

/-- A computer that has just been started, with an empty current directory. -/
def start (cwd : Place) : Computer where
  world := ⟨((List.range cwd.length).map fun n => cwd.take (n + 1)).foldl makeMissing baseDisk, #[]⟩
  cwd := cwd
  tasks := []
  nextPid := 1000
  nextTemporary := 0
where
  /-- Make a directory unless it is there. -/
  makeMissing (d : Disk) (p : Place) : Disk :=
    if (d.node? p).isSome then d else d.put p .directory

/-- Change the disk. -/
def withDisk (c : Computer) (d : Disk) : Computer := { c with world := { c.world with disk := d } }

/-- Make a directory and those on the way to it. -/
def createDirs (path : Path) (c : Computer) : Except OsError Unit × Computer :=
  let r := c.world.disk.makeDirectories c.cwd (path.text.length + 1) path.text
  (r.1, c.withDisk r.2)

/-- Put a file into the current directory; a file that names its interpreter can be
executed. -/
def putFile (c : Computer) (path : Path) (text : String) : Except OsError Unit × Computer :=
  match createDirs (path.parent?.getD ⟨""⟩) c with
  | (.error e, c) => (.error e, c)
  | (.ok (), c) =>
    match c.world.disk.walk c.cwd true path.text with
    | .error e => (.error e, c)
    | .ok place =>
      if (c.world.disk.node? place).any (·.isDirectory) then (.error .isADirectory, c)
      else
        let executable := ['#', '!'].isPrefixOf text.toList
        (.ok (), c.withDisk (c.world.disk.putFile place text.toUTF8 executable).1)

/-- The text of a file. -/
def readText (path : Path) (c : Computer) : Except OsError String := do
  let bytes ← c.world.disk.read c.cwd path.text
  match String.fromUTF8? bytes with
  | some s => pure s
  | none => .error .notText

/-- Make an empty file, or empty the file that is there. -/
def createFile (path : Path) (c : Computer) : Except OsError FileHandle × Computer :=
  let r := c.world.openForWriting c.cwd false path.text
  (r.1.map fun n => ⟨n⟩, { c with world := r.2 })

/-- Remove a file, or a directory with all it holds. -/
def remove (path : Path) (c : Computer) : Except OsError Unit × Computer :=
  let r := c.world.disk.remove c.cwd path.text
  (r.1, c.withDisk r.2)

/-- The first name of a temporary directory that is not taken. `fuel` bounds the
number of names that are tried. -/
def temporaryName (c : Computer) (pre : String) : Nat → Nat → String
  | 0, n => "/tmp/" ++ pre ++ toString n
  | fuel + 1, n =>
    let path := "/tmp/" ++ pre ++ toString n
    if c.world.disk.isPresent c.cwd path then temporaryName c pre fuel (n + 1) else path

/-- The path of the next temporary directory. -/
def temporaryPath (c : Computer) (pre : String) : Path :=
  ⟨temporaryName c pre (c.world.disk.nodes.length + 1) c.nextTemporary⟩

/-- Make a new directory for temporary files at a path. -/
def makeTemporary (path : Path) (c : Computer) : Except OsError Path × Computer :=
  match c.world.disk.makeDirectory c.cwd path.text with
  | .ok d => (.ok path, { c.withDisk d with nextTemporary := c.nextTemporary + 1 })
  | .error e => (.error e, c)

/-- The program of a name: a name is looked for on the search path, anything longer
is a path to the program itself. -/
def which (name : String) (c : Computer) : Option Path :=
  let path : Path :=
    if (Path.mk name).parts.length ≤ 1 then ⟨"/usr/bin/" ++ name⟩
    else Path.join ⟨"/" ++ "/".intercalate c.cwd⟩ ⟨name⟩
  match c.world.disk.lookup c.cwd true path.text with
  | .ok (_, .program _) => some path
  | .ok (_, .file _ _ true) => some path
  | _ => none

/-! ## Processes -/

/-- How many nested steps a program may take. -/
def maxSteps : Nat := 100000

/-- Run a program with these streams to its end. -/
def runProgram (c : Computer) (image : Image) (argv : List String) (cwd : Place)
    (input output errors : Nat) : ExitStatus × Computer :=
  let s := ShellState.start c.world cwd environment (argv.headD "") c.nextPid
    [(0, input), (1, output), (2, errors)]
  let r := Shell.runImage maxSteps image argv s
  (r.1, { c with world := r.2, nextPid := c.nextPid + 100 })

/-- What a program stands for, if it may be started in a directory. -/
def findProgram (c : Computer) (argv : List String) (directory : Path) :
    Except OsError (Image × Place) := do
  if (directory.text :: argv).any fun a => a.toList.contains (Char.ofNat 0) then
    .error .zeroInArgument
  match ← c.world.disk.lookup c.cwd true directory.text with
  | (place, .directory) =>
    let image ← Shell.findImage c.world place (argv.headD "")
    pure (image, place)
  | _ => .error .notADirectory

/-- Run a program in the current directory until it ends. -/
def capture (program : String) (arguments : List String) (c : Computer) :
    Except OsError Captured × Computer :=
  match findProgram c (program :: arguments) ⟨"."⟩ with
  | .error e => (.error e, c)
  | .ok (image, cwd) =>
    let (input, world) := c.world.openStream (.device .null)
    let (output, world) := world.openStream (.sink .empty)
    let (errors, world) := world.openStream (.sink .empty)
    let (status, c) :=
      runProgram { c with world := world } image (program :: arguments) cwd input output errors
    (.ok ⟨status, Text.ofBytes (c.world.sunk output), Text.ofBytes (c.world.sunk errors)⟩, c)

/-- Start a process. -/
def launch (request : Launch) (c : Computer) : Except OsError Unit × Computer :=
  let argv := request.program :: request.arguments
  match findProgram c argv request.directory with
  | .error e => (.error e, c)
  | .ok (image, cwd) =>
    let task : Task :=
      { seq := request.seq
        image := image
        argv := argv
        cwd := cwd
        input := .empty
        inputOpen := request.input = .pipe
        output := match request.output with
          | .pipe => none
          | .file handle => some handle.id
        errors := request.errors.id
        feeds := none
        status := none }
    (.ok (), { c with tasks := c.tasks.filter (fun t => t.seq ≠ request.seq) ++ [task] })

/-- Change the task with a number. -/
def onTask (c : Computer) (seq : Nat) (f : Task → Task) : Computer :=
  { c with tasks := c.tasks.map fun t => if t.seq = seq then f t else t }

/-- Hand what a process printed to the process that it feeds. -/
def handOn (c : Computer) (bytes : ByteArray) : Option (Nat × Bool) → Computer
  | none => c
  | some (seq, last) =>
    c.onTask seq fun t => { t with input := t.input ++ bytes, inputOpen := t.inputOpen && !last }

/-- Run a task to its end. -/
def runTask (c : Computer) (t : Task) : Computer :=
  let (input, world) := c.world.openStream (.source t.input 0)
  let (sink, world) := world.openStream (.sink .empty)
  let (status, c) := runProgram { c with world := world } t.image t.argv t.cwd input
    (t.output.getD sink) t.errors
  (c.onTask t.seq fun t => { t with status := some status }).handOn (c.world.sunk sink) t.feeds

/-- Run every task whose input is known, up to a number of them. -/
def settle : Nat → Computer → Computer
  | 0, c => c
  | fuel + 1, c =>
    match c.tasks.find? fun t => t.status.isNone && !t.inputOpen with
    | none => c
    | some t => settle fuel (c.runTask t)

/-- Run every task whose input is known. -/
def settled (c : Computer) : Computer := c.settle c.tasks.length

/-- Close the input of a process. -/
def closeInput (seq : Nat) (c : Computer) : Computer :=
  c.onTask seq fun t => { t with inputOpen := false }

/-- Wait for a process. -/
def await (seq : Nat) (c : Computer) : ExitStatus × Computer :=
  let c := c.settled
  match (c.tasks.find? fun t => t.seq = seq).bind (·.status) with
  | some status => (status, c)
  | none =>
    let c := (c.closeInput seq).settled
    (((c.tasks.find? fun t => t.seq = seq).bind (·.status)).getD (.signaled 9), c)

/-- A process that is killed does nothing any more. -/
def kill (seq : Nat) (c : Computer) : Computer :=
  c.onTask seq fun t => { t with status := some (t.status.getD (.signaled 9)) }

/-- A computer as a host for runs. -/
def host : Host Computer where
  home := ⟨home⟩
  readText := readText
  isPresent path c := c.world.disk.isPresent c.cwd path.text
  isFile path c := c.world.disk.isFile c.cwd path.text
  which := which
  createDirs := createDirs
  createTemporary pre c := c.makeTemporary (c.temporaryPath pre)
  createFile := createFile
  duplicate file c := (.ok file, c)
  remove := remove
  capture := capture
  launch := launch
  connect a b c := c.onTask a fun t => { t with feeds := some (b, true) }
  join _ _ c := c.settled
  bridge a b c := c.onTask a fun t => { t with feeds := some (b, false) }
  discard a c := c.onTask a fun t => { t with feeds := none }
  drain _ _ c := (true, c.settled)
  closeInput := closeInput
  await seq c :=
    let (status, c) := c.await seq
    (.known status, c)
  kill := kill

end Computer

end MediaPipeline.Machine
