import MediaPipeline.Machine.Utility.Concatenate
import MediaPipeline.Machine.Utility.Count
import MediaPipeline.Machine.Utility.Head
import MediaPipeline.Machine.Utility.Place
import MediaPipeline.Machine.Utility.Print
import MediaPipeline.Machine.Utility.Replace

/-!
# The utilities of a machine

The programs of the machine that are no shells, by name.
-/

namespace MediaPipeline.Machine.Utility

/-- The utilities by name. -/
def all : List (String × Utility) :=
  [("cat", cat), ("echo", echo), ("false", ending 1), ("head", head), ("ln", ln),
    ("mkdir", mkdir), ("printf", printf), ("rm", rm), ("sleep", ending 0), ("touch", touch),
    ("tr", tr), ("true", ending 0), ("wc", wc)]

/-- The utility with a name. -/
def named? (name : String) : Option Utility := (all.find? fun u => u.1 == name).map (·.2)

end MediaPipeline.Machine.Utility
