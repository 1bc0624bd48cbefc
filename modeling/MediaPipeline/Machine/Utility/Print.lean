import MediaPipeline.Machine.Utility.Basic
import MediaPipeline.Shell.Format

/-!
# Printing arguments

`printf` and `echo`. Output and complaints come out in the order in which they
arise.
-/

namespace MediaPipeline.Machine.Utility

/-- A fault in the words of the utility. -/
def formatFaultText : Shell.FormatFault → String
  | .notNumeric arg => Quoting.plain arg ++ ": expected a numeric value"
  | .partlyNumeric arg => Quoting.plain arg ++ ": value not completely converted"
  | .outOfRange arg => Quoting.plain arg ++ ": Numerical result out of range"
  | .afterCharacter rest =>
    "warning: " ++ rest ++ ": character(s) following character constant have been ignored"
  | .unused arg => "warning: ignoring excess arguments, starting with " ++ Quoting.plain arg
  | .unknownConversion text => text ++ ": invalid conversion specification"
  | .missingConversion => "%: invalid conversion specification"
  | .missingDigits => "missing hexadecimal number in escape"

/-- Print by a format. -/
def printf : Utility := fun c args w =>
  let args := if args.head? = some "--" then args.tail else args
  match args with
  | [] => usage c w "missing operand"
  | format :: args =>
    let f := Shell.printFormatted .utility format args
    let w := f.printed.foldl (fun w p =>
      match p with
      | .bytes b => (w.write c.output b).2
      | .fault e => complain c w (formatFaultText e)) w
    (if f.faults.all (·.isWarning) then 0 else 1, w)

/-- Print the arguments. -/
def echo : Utility := fun c args w =>
  let (quiet, args) := if args.head? = some "-n" then (true, args.tail) else (false, args)
  (0, w.print c.output (" ".intercalate args ++ (if quiet then "" else "\n")))

end MediaPipeline.Machine.Utility
