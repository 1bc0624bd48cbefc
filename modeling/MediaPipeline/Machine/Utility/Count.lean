import MediaPipeline.Machine.Utility.Basic

/-!
# Counting

`wc` counts lines, words, characters and bytes, and measures the longest line.
-/

namespace MediaPipeline.Machine.Utility

/-- The numbers of a text. -/
structure Counts where
  lines : Nat
  words : Nat
  bytes : Nat
  /-- The width of the longest line. -/
  longest : Nat

namespace Counts

/-- The number of words of bytes. -/
def wordsOf (inWord : Bool) : List UInt8 → Nat
  | [] => 0
  | b :: bs =>
    if b = 32 ∨ (9 ≤ b ∧ b ≤ 13) then wordsOf false bs
    else if 32 < b ∧ b < 127 then (if inWord then 0 else 1) + wordsOf true bs
    else wordsOf inWord bs

/-- The width of the longest line, from a column on. -/
def longestOf (column longest : Nat) : List UInt8 → Nat
  | [] => max column longest
  | b :: bs =>
    if b = 10 ∨ b = 12 ∨ b = 13 then longestOf 0 (max column longest) bs
    else if b = 9 then longestOf (column + 8 - column % 8) longest bs
    else if 32 ≤ b ∧ b < 127 then longestOf (column + 1) longest bs
    else longestOf column longest bs

/-- The numbers of bytes. -/
def ofBytes (bytes : ByteArray) : Counts :=
  let all := bytes.toList
  ⟨all.count 10, wordsOf false all, bytes.size, longestOf 0 0 all⟩

/-- The numbers of two texts together. -/
def add (a b : Counts) : Counts :=
  ⟨a.lines + b.lines, a.words + b.words, a.bytes + b.bytes, max a.longest b.longest⟩

/-- The numbers that are asked for, in their order. Every byte is a character. -/
def chosen (n : Counts) (letters : List Char) : List Nat :=
  (if letters.contains 'l' then [n.lines] else []) ++
  (if letters.contains 'w' then [n.words] else []) ++
  (if letters.contains 'm' then [n.bytes] else []) ++
  (if letters.contains 'c' then [n.bytes] else []) ++
  (if letters.contains 'L' then [n.longest] else [])

/-- The line of a table. -/
def row (n : Counts) (letters : List Char) (width : Nat) (title : String) : String :=
  let column (k : Nat) : String :=
    let s := toString k
    String.ofList (List.replicate (width - s.length) ' ') ++ s
  " ".intercalate ((n.chosen letters).map column) ++ title ++ "\n"

end Counts

/-- The width of the columns, by what is known of the operands beforehand. -/
def columnWidth (c : UtilityContext) (w : World) (letters : List Char) (operands : List String) :
    Nat :=
  if operands.length = 1 ∧ letters.eraseDups.length = 1 then 1
  else
    let found := operands.map fun operand =>
      if operand = "-" then some none
      else
        match w.disk.lookup c.cwd true operand with
        | .ok (_, .file _ data _) => some (some data.size)
        | .ok _ => some none
        | .error _ => none
    let sum := (found.filterMap fun f => f.bind id).foldl (· + ·) 0
    max (toString sum).length (if found.contains (some none) then 7 else 1)

/-- Print the numbers of operands, and add them up. -/
def countAll (c : UtilityContext) (row : Counts → String → String) :
    List String → Nat → Counts → World → Nat × Counts × World
  | [], status, total, w => (status, total, w)
  | operand :: rest, status, total, w =>
    match readOperand c w none operand with
    | (.ok bytes, w) =>
      let n := Counts.ofBytes bytes
      countAll c row rest status (total.add n) (w.print c.output (row n operand))
    | (.error e, w) =>
      let w := complain c w (Quoting.label operand ++ ": " ++ e.shortMessage)
      let w := if e = .isADirectory then w.print c.output (row ⟨0, 0, 0, 0⟩ operand) else w
      countAll c row rest 1 total w

/-- The options of `wc`. -/
def wcRules : List OptionRule :=
  [⟨'c', "bytes", false⟩, ⟨'m', "chars", false⟩, ⟨'l', "lines", false⟩, ⟨'w', "words", false⟩,
    ⟨'L', "max-line-length", false⟩]

/-- Count lines, words and bytes. -/
def wc : Utility := fun c args w =>
  let a := Arguments.read wcRules false args
  match a.fault with
  | some text => usage c w text
  | none =>
    let letters := if a.options.isEmpty then ['l', 'w', 'c'] else a.options.map (·.1)
    let operands := orInput a.operands
    let width := columnWidth c w letters operands
    let row (n : Counts) (name : String) : String :=
      n.row letters width (if a.operands.isEmpty then "" else " " ++ name)
    let (status, total, w) := countAll c row operands 0 ⟨0, 0, 0, 0⟩ w
    (status, if 1 < operands.length then w.print c.output (row total "total") else w)

end MediaPipeline.Machine.Utility
