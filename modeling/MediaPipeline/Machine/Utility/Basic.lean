import MediaPipeline.Machine.Options
import MediaPipeline.Machine.World

/-!
# Utilities

A utility reads its input and some files, prints, and ends with a status.
-/

namespace MediaPipeline.Machine

/-- What a utility runs with. -/
structure UtilityContext where
  /-- The name under which it was started, for messages. -/
  name : String
  cwd : Place
  input : Nat
  output : Nat
  errors : Nat

/-- A utility: its status, and the world after it. -/
abbrev Utility := UtilityContext → List String → World → Nat × World

namespace Utility

/-- Report a problem. -/
def complain (c : UtilityContext) (w : World) (text : String) : World :=
  w.print c.errors (c.name ++ ": " ++ text ++ "\n")

/-- Fail with a message. -/
def fail (c : UtilityContext) (w : World) (text : String) : Nat × World := (1, complain c w text)

/-- Fail after a wrong call. -/
def usage (c : UtilityContext) (w : World) (text : String) : Nat × World :=
  fail c w (text ++ "\nTry '" ++ c.name ++ " --help' for more information.")

/-- End with a status, whatever the arguments are. -/
def ending (status : Nat) : Utility := fun _ _ w => (status, w)

/-- The whole content of an operand; a dash names the input. -/
def readOperand (c : UtilityContext) (w : World) (limit : Option Nat) (operand : String) :
    Except OsError ByteArray × World :=
  if operand = "-" then
    let (bytes, w) := w.read c.input limit
    (.ok bytes, w)
  else
    match w.openForReading c.cwd operand with
    | (.error e, w) => (.error e, w)
    | (.ok n, w) =>
      let (bytes, w) := w.read n limit
      (.ok bytes, w)

/-- The operands of a call that reads its input when there are none. -/
def orInput (operands : List String) : List String := if operands.isEmpty then ["-"] else operands

end Utility

end MediaPipeline.Machine
