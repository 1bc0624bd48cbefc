/-!
# What the operating system answers

The ways a request to the file system or a program start is refused, how a
process ends, and the texts for both.
-/

namespace MediaPipeline

/-- Why the operating system refused a request. -/
inductive OsError where
  | notFound
  | permissionDenied
  | fileExists
  | notADirectory
  | isADirectory
  | nameTooLong
  | directoryNotEmpty
  | tooManyLinks
  | noSuchDevice
  /-- A path holds the character with code zero. -/
  | zeroInPath
  /-- A program name or argument holds the character with code zero. -/
  | zeroInArgument
  /-- A file that is read as text is not UTF-8. -/
  | notText
deriving DecidableEq, Repr

namespace OsError

/-- The text of a refusal. -/
def message : OsError → String
  | notFound => "No such file or directory (os error 2)"
  | permissionDenied => "Permission denied (os error 13)"
  | fileExists => "File exists (os error 17)"
  | notADirectory => "Not a directory (os error 20)"
  | isADirectory => "Is a directory (os error 21)"
  | nameTooLong => "File name too long (os error 36)"
  | directoryNotEmpty => "Directory not empty (os error 39)"
  | tooManyLinks => "Too many levels of symbolic links (os error 40)"
  | noSuchDevice => "No such device or address (os error 6)"
  | zeroInPath => "file name contained an unexpected NUL byte"
  | zeroInArgument => "nul byte found in provided data"
  | notText => "stream did not contain valid UTF-8"

/-- The text that a command shows, without the number. -/
def shortMessage : OsError → String
  | notFound => "No such file or directory"
  | permissionDenied => "Permission denied"
  | fileExists => "File exists"
  | notADirectory => "Not a directory"
  | isADirectory => "Is a directory"
  | nameTooLong => "File name too long"
  | directoryNotEmpty => "Directory not empty"
  | tooManyLinks => "Too many levels of symbolic links"
  | noSuchDevice => "No such device or address"
  | zeroInPath | zeroInArgument | notText => "Invalid argument"

end OsError

/-- How a process ended. -/
inductive ExitStatus where
  | exited (code : Nat)
  | signaled (signal : Nat)
deriving DecidableEq, Repr

namespace ExitStatus

/-- Only the exit code zero is a success. -/
def isSuccess : ExitStatus → Bool
  | exited code => code == 0
  | signaled _ => false

/-- The names of the signals from one up. -/
def signalNames : List String :=
  ["SIGHUP", "SIGINT", "SIGQUIT", "SIGILL", "SIGTRAP", "SIGABRT", "SIGBUS", "SIGFPE",
    "SIGKILL", "SIGUSR1", "SIGSEGV", "SIGUSR2", "SIGPIPE", "SIGALRM", "SIGTERM", "SIGSTKFLT",
    "SIGCHLD", "SIGCONT", "SIGSTOP", "SIGTSTP", "SIGTTIN", "SIGTTOU", "SIGURG", "SIGXCPU",
    "SIGXFSZ", "SIGVTALRM", "SIGPROF", "SIGWINCH", "SIGIO", "SIGPWR", "SIGSYS"]

/-- The name of a signal. -/
def signalName? : Nat → Option String
  | 0 => none
  | n + 1 => signalNames[n]?

/-- The text of a status. -/
def render : ExitStatus → String
  | exited code => "exit status: " ++ toString code
  | signaled n =>
    match signalName? n with
    | some name => "signal: " ++ toString n ++ " (" ++ name ++ ")"
    | none => "signal: " ++ toString n

end ExitStatus

/-- What waiting for a process comes to. -/
inductive Ending where
  | known (status : ExitStatus)
  /-- The process could not be waited for. -/
  | unknown (error : OsError)
deriving DecidableEq

/-- Whether a process is known to have ended with success. -/
def Ending.isSuccess : Ending → Bool
  | known status => status.isSuccess
  | unknown _ => false

end MediaPipeline
