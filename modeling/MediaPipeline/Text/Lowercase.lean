import MediaPipeline.Text.LowercaseTable
import MediaPipeline.Text.Printable

/-!
# Lower case

Full lower-case mapping of text: one character becomes one character, except
the capital I with a dot, which becomes two; a capital sigma that ends a word
becomes the final form.
-/

namespace MediaPipeline.Text

/-- Whether a character takes part in case. -/
def isCased (c : Char) : Bool := inRanges casedRanges c.toNat

/-- Whether case mapping looks through a character. -/
def isCaseIgnorable (c : Char) : Bool := inRanges caseIgnorableRanges c.toNat

/-- Whether the nearest character that is not looked through is cased. -/
def nextIsCased (cs : List Char) : Bool :=
  match cs.dropWhile isCaseIgnorable with
  | c :: _ => isCased c
  | [] => false

/-- The lower-case form of one character outside the two special cases. -/
def lowerChar (c : Char) : Char :=
  match lowercaseRuns.find? fun r =>
      r.first ≤ c.toNat && c.toNat ≤ r.last && (c.toNat - r.first) % r.step == 0 with
  | some r => Char.ofNat (Int.toNat (Int.ofNat c.toNat + r.shift))
  | none => c

/-- Lower case of the rest of a text, given what stands before it, nearest first. -/
def lowerFrom : List Char → List Char → List Char
  | _, [] => []
  | before, c :: cs =>
    let lowered :=
      if c.toNat == 0x130 then ['i', Char.ofNat 0x307]
      else if c.toNat == 0x3A3 then
        [Char.ofNat (if nextIsCased before && !nextIsCased cs then 0x3C2 else 0x3C3)]
      else [lowerChar c]
    lowered ++ lowerFrom (c :: before) cs

/-- The lower-case form of a string. -/
def lowercase (s : String) : String :=
  String.ofList (lowerFrom [] s.toList)

/-- The lower-case form of a string in which only ASCII letters change. -/
def lowercaseAscii (cs : List Char) : List Char :=
  cs.map Char.toLower

end MediaPipeline.Text
