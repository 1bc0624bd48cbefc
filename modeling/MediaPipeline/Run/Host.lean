import MediaPipeline.Command
import MediaPipeline.System

/-!
# The machine under a run

What a run asks of the machine that it runs on. The library decides what is
asked and in which order; a host says what comes of it. `σ` is the state of the
machine.
-/

namespace MediaPipeline

/-- A file that was opened for writing. -/
structure FileHandle where
  id : Nat
deriving DecidableEq

/-- What a process reads. -/
inductive ProcessInput where
  /-- Nothing: its input ends at once. -/
  | empty
  /-- Bytes that are copied to it. -/
  | pipe
deriving DecidableEq

/-- Where the bytes that a process prints go. -/
inductive ProcessOutput where
  /-- To whoever copies them. -/
  | pipe
  | file (handle : FileHandle)
deriving DecidableEq

/-- The request to start a process. -/
structure Launch where
  /-- The number of the process, by which it is known from then on. -/
  seq : Nat
  program : String
  arguments : List String
  directory : Path
  input : ProcessInput
  output : ProcessOutput
  /-- The file that takes its error messages. -/
  errors : FileHandle
deriving DecidableEq

/-- What a process that ran on its own has left. -/
structure Captured where
  status : ExitStatus
  output : String
  errors : String
deriving DecidableEq

/-- A machine with state `σ`. -/
structure Host (σ : Type) where
  /-- The home directory. -/
  home : Path
  /-- The text of a file. -/
  readText : Path → σ → Except OsError String
  /-- Whether a path leads to anything. -/
  isPresent : Path → σ → Bool
  /-- Whether a path leads to a regular file. -/
  isFile : Path → σ → Bool
  /-- The program of a name on the search path. -/
  which : String → σ → Option Path
  /-- Make a directory and those on the way to it. -/
  createDirs : Path → σ → Except OsError Unit × σ
  /-- Make a new directory for temporary files, whose name starts like this. -/
  createTemporary : String → σ → Except OsError Path × σ
  /-- Make an empty file, or empty the file that is there. -/
  createFile : Path → σ → Except OsError FileHandle × σ
  /-- Open an open file once more. -/
  duplicate : FileHandle → σ → Except OsError FileHandle × σ
  /-- Remove a file, or a directory with all it holds. -/
  remove : Path → σ → Except OsError Unit × σ
  /-- Run a program in the current directory until it ends. -/
  capture : String → List String → σ → Except OsError Captured × σ
  /-- Start a process. -/
  launch : Launch → σ → Except OsError Unit × σ
  /-- Copy what one process prints to the input of another, for good. -/
  connect : Nat → Nat → σ → σ
  /-- Wait until a connection has copied everything. -/
  join : Nat → Nat → σ → σ
  /-- Start to copy what one process prints to the input of another, to leave that
  input open afterwards. -/
  bridge : Nat → Nat → σ → σ
  /-- Stop reading what a process prints. -/
  discard : Nat → σ → σ
  /-- Wait until a bridge has copied everything; whether the input is still open. -/
  drain : Nat → Nat → σ → Bool × σ
  /-- Close the input of a process. -/
  closeInput : Nat → σ → σ
  /-- Wait for a process. -/
  await : Nat → σ → Ending × σ
  /-- Kill a process. -/
  kill : Nat → σ → σ

/-- Something that is done with the pipes between processes. -/
inductive Wiring where
  /-- What the first process prints is copied to the input of the second, for good. -/
  | connect (source target : Nat)
  /-- A connection is waited for. -/
  | join (source target : Nat)
  /-- What the first process prints is copied to the input of the second, which stays
  open. -/
  | bridge (source target : Nat)
  /-- What a process prints is not read. -/
  | discard (source : Nat)
  /-- The input of a process is closed. -/
  | close (target : Nat)
deriving DecidableEq

/-- Do something with the pipes between processes. -/
def Host.wire {σ : Type} (host : Host σ) : Wiring → σ → σ
  | .connect source target => host.connect source target
  | .join source target => host.join source target
  | .bridge source target => host.bridge source target
  | .discard source => host.discard source
  | .close target => host.closeInput target

end MediaPipeline
