import MediaPipeline.Machine.Utility.Basic
import MediaPipeline.Shell.Format

/-!
# Replacing bytes

`tr` replaces the bytes of one set by those of another, deletes them, or keeps one
of several in a row. A set is written as a list of bytes, ranges, classes and
repetitions.
-/

namespace MediaPipeline.Machine.Utility

/-- A part of a set. -/
inductive SetItem where
  | byte (b : UInt8)
  | range (first last : UInt8)
  | class (name : String)
  /-- All bytes that are equal to a byte, which is that byte alone. -/
  | same (b : UInt8)
  /-- A byte so many times; without a number as often as there is place. -/
  | repeated (b : UInt8) (count : Option Nat)
deriving DecidableEq

/-- A byte of the text of a set, and whether it was escaped. -/
abbrev SetByte := UInt8 × Bool

namespace SetItem

/-! ## Reading -/

/-- The bytes of the text of a set. `fuel` bounds their number. -/
def unescape : Nat → List UInt8 → List SetByte
  | 0, _ => []
  | _ + 1, [] => []
  | fuel + 1, 92 :: b :: bs =>
    let c := Quoting.charOf b
    match Shell.letterEscape? c with
    | some n => (n.toUInt8, true) :: unescape fuel bs
    | none =>
      let short := (b :: bs).take 3 |>.map Quoting.charOf
      let (n, rest) := Shell.Numeral.readDigits 8 3 short 0
      let used := short.length - rest.length
      if used = 0 then (b, true) :: unescape fuel bs
      else if n < 256 then (n.toUInt8, true) :: unescape fuel ((b :: bs).drop used)
      else ((n / 8).toUInt8, true) :: unescape fuel ((b :: bs).drop (used - 1))
  | fuel + 1, b :: bs => (b, false) :: unescape fuel bs

/-- The characters of bytes. -/
def chars (bs : List SetByte) : List Char := bs.map fun b => Quoting.charOf b.1

/-- The text of bytes. -/
def text (bs : List SetByte) : String := String.ofList (chars bs)

/-- Split at the first place where a byte stands in front of a closing bracket. -/
def splitAtClose (mark : UInt8) : List SetByte → Option (List SetByte × List SetByte)
  | a :: b :: bs =>
    if a = (mark, false) ∧ b = (93, false) then some ([], bs)
    else (splitAtClose mark (b :: bs)).map fun p => (a :: p.1, p.2)
  | _ => none

/-- The names of classes. -/
def classNames : List String :=
  ["alnum", "alpha", "blank", "cntrl", "digit", "graph", "lower", "print", "punct", "space",
    "upper", "xdigit"]

/-- A class or a byte with its equals, from behind the bracket that opens it, and what
follows; nothing if it is none. -/
def readNamed : List SetByte → Except String (Option (SetItem × List SetByte))
  | (mark, false) :: rest =>
    if mark = 58 ∨ mark = 61 then
      match splitAtClose mark rest with
      | none => .ok none
      | some (name, rest) =>
        match name, mark == 58 with
        | [], true => .error "missing character class name '[::]'"
        | [], false => .error "missing equivalence class character '[==]'"
        | [b], false => .ok (some (.same b.1, rest))
        | name, true =>
          if classNames.contains (text name) then .ok (some (.class (text name), rest))
          else .error ("invalid character class " ++ Quoting.plain (text name))
        | name, false =>
          .error (text name ++ ": equivalence class operand must be a single character")
    else .ok none
  | _ => .ok none

/-- A repetition, from behind the bracket that opens it, and what follows. -/
def readRepeated : List SetByte → Except String (Option (SetItem × List SetByte))
  | (b, _) :: (42, false) :: rest =>
    match rest.span fun c => c ≠ (93, false) with
    | (_, []) => .ok none
    | (number, _ :: rest) =>
      if number.isEmpty then .ok (some (.repeated b none, rest))
      else
        let digits := chars number
        let base := if digits.head? = some '0' then 8 else 10
        let (n, left) := Shell.Numeral.readDigits base digits.length digits 0
        if left.isEmpty then .ok (some (.repeated b (if n = 0 then none else some n), rest))
        else
          .error ("invalid repeat count " ++ Quoting.plain (text number) ++
            " in [c*n] construct")
  | _ => .ok none

/-- A byte in a message about a range. -/
def show1 (b : UInt8) : String :=
  String.ofList (if Quoting.isPrintable b then [Quoting.charOf b] else Quoting.escapeByte b)

/-- A range, or one byte. -/
def readPlain (b : SetByte) : List SetByte → Except String (SetItem × List SetByte)
  | (45, false) :: (last, _) :: rest =>
    if last < b.1 then
      .error ("range-endpoints of '" ++ show1 b.1 ++ "-" ++ show1 last ++
        "' are in reverse collating sequence order")
    else .ok (.range b.1 last, rest)
  | rest => .ok (.byte b.1, rest)

/-- The parts of a set. `fuel` bounds their number. -/
def readAll : Nat → List SetByte → Except String (List SetItem)
  | 0, _ => .ok []
  | _ + 1, [] => .ok []
  | fuel + 1, b :: rest => do
    let bracketed ← if b = (91, false) then
        match ← readNamed rest with
        | some found => pure (some found)
        | none => readRepeated rest
      else pure none
    let (item, rest) ← match bracketed with
      | some found => pure found
      | none => readPlain b rest
    pure (item :: (← readAll fuel rest))

/-- The set that a text stands for. -/
def ofText (s : String) : Except String (List SetItem) :=
  let bytes := s.toUTF8.toList
  readAll (bytes.length + 1) (unescape (bytes.length + 1) bytes)

/-! ## Members -/

/-- Whether a byte belongs to a class. -/
def inClass (name : String) (b : UInt8) : Bool :=
  let c := Quoting.charOf b
  let graphic := 33 ≤ b && b < 127
  match name with
  | "lower" => c.isLower
  | "upper" => c.isUpper
  | "alpha" => c.isAlpha
  | "digit" => c.isDigit
  | "alnum" => c.isAlphanum
  | "space" => b = 32 || (9 ≤ b && b ≤ 13)
  | "blank" => b = 32 || b = 9
  | "cntrl" => b < 32 || b = 127
  | "graph" => graphic
  | "print" => graphic || b = 32
  | "punct" => graphic && !c.isAlphanum
  | _ => (Shell.Numeral.digit? 16 c).isSome

/-- All bytes. -/
def allBytes : List UInt8 := (List.range 256).map Nat.toUInt8

/-- The members of a part, in order. A repetition without a number has `room`
members. -/
def members (room : Nat) : SetItem → List UInt8
  | .byte b | .same b => [b]
  | .range a b => allBytes.filter fun x => a ≤ x && x ≤ b
  | .class name => allBytes.filter (inClass name)
  | .repeated b count => List.replicate (count.getD room) b

/-- Whether a part takes the room that is left. -/
def isOpen (i : SetItem) : Bool :=
  match i with
  | .repeated _ none => true
  | _ => false

/-- The members of a set that is to have at least so many. -/
def membersOf (wanted : Nat) (items : List SetItem) : List UInt8 :=
  let fixed := (items.flatMap (members 0)).length
  items.flatMap (members (wanted - fixed))

/-- The places, counted in members, at which classes of letters of one case stand. -/
def casePlaces (items : List SetItem) (start : Nat) : List Nat :=
  match items with
  | [] => []
  | i :: rest =>
    let more := casePlaces rest (start + (i.members 0).length)
    if i = .class "lower" ∨ i = .class "upper" then start :: more else more

end SetItem

/-! ## Edits -/

/-- What is to be done with bytes. -/
structure ByteEdit where
  deletes : Bool
  squeezes : Bool
  complements : Bool
  truncates : Bool
  first : List SetItem
  second : Option (List SetItem)

namespace ByteEdit

/-- The members of the first set. -/
def firstMembers (t : ByteEdit) : List UInt8 :=
  let named := SetItem.membersOf 0 t.first
  if t.complements then SetItem.allBytes.filter fun b => !named.contains b else named

/-- Whether bytes are replaced. -/
def replaces (t : ByteEdit) : Bool := !t.deletes && t.second.isSome

/-- The members of the second set. -/
def secondMembers (t : ByteEdit) : List UInt8 :=
  SetItem.membersOf t.firstMembers.length (t.second.getD [])

/-- The name of a class, if a part is one. -/
def className? : SetItem → Option String
  | .class name => some name
  | _ => none

/-- What is wrong with a second set of replacements. -/
def replacementFault? (t : ByteEdit) (second : List SetItem) : Option String :=
  let classes := second.filterMap className?
  let isSame : SetItem → Bool := fun
    | .same _ => true
    | _ => false
  let replacement := t.secondMembers
  if second.any isSame then
    some "[=c=] expressions may not appear in string2 when translating"
  else if classes.any fun n => n ≠ "lower" && n ≠ "upper" then
    some ("when translating, the only character classes that may appear in\n" ++
      "string2 are 'upper' and 'lower'")
  else if (SetItem.casePlaces second 0).any fun n => !(SetItem.casePlaces t.first 0).contains n then
    some "misaligned [:upper:] and/or [:lower:] construct"
  else if replacement.isEmpty && !t.truncates then
    some "when not truncating set1, string2 must be non-empty"
  else if replacement.length < t.firstMembers.length && !t.truncates &&
      (second.getLast?.bind className?).isSome then
    some ("when translating with string1 longer than string2,\n" ++
      "the latter string must not end with a character class")
  else if t.complements && !(t.first.filterMap className?).isEmpty &&
      1 < replacement.eraseDups.length then
    some ("when translating with complemented character classes,\n" ++
      "string2 must map all characters in the domain to one")
  else none

/-- What is wrong with an edit. -/
def fault? (t : ByteEdit) : Option String :=
  if t.first.any SetItem.isOpen then
    some "the [c*] repeat construct may not appear in string1"
  else
    match t.second with
    | none => none
    | some second =>
      if 1 < (second.filter SetItem.isOpen).length then
        some "only one [c*] repeat construct may appear in string2"
      else if t.replaces then t.replacementFault? second
      else if second.any SetItem.isOpen then
        some "the [c*] construct may appear in string2 only when translating"
      else none

/-- What each byte becomes. The last member of a short second set is used again; of
a member that is named twice the last place counts. -/
def table (t : ByteEdit) : Array UInt8 :=
  let second := t.secondMembers
  let first := if t.truncates then t.firstMembers.take second.length else t.firstMembers
  first.zipIdx.foldl (fun (table : Array UInt8) (p : UInt8 × Nat) =>
    match (second[p.2]?).orElse fun _ => second.getLast? with
    | some b => table.setIfInBounds p.1.toNat b
    | none => table) SetItem.allBytes.toArray

/-- Keep one of equal bytes in a row that are in a set. -/
def squeeze (inSet : UInt8 → Bool) : List UInt8 → List UInt8
  | a :: b :: rest =>
    if a = b && inSet a then squeeze inSet (b :: rest) else a :: squeeze inSet (b :: rest)
  | bs => bs

/-- Whether bytes are in a set, as a table. -/
def membership (set : List UInt8) : UInt8 → Bool :=
  let table : Array Bool :=
    set.foldl (fun (t : Array Bool) b => t.setIfInBounds b.toNat true) (Array.replicate 256 false)
  fun b => table[b.toNat]?.getD false

/-- The bytes after an edit. -/
def apply (t : ByteEdit) (bytes : List UInt8) : List UInt8 :=
  let inFirst := membership t.firstMembers
  let table := t.table
  let kept :=
    if t.deletes then bytes.filter fun b => !inFirst b
    else if t.replaces then bytes.map fun b => table[b.toNat]?.getD b
    else bytes
  if t.squeezes then
    squeeze (if t.second.isSome then membership t.secondMembers else inFirst) kept
  else kept

end ByteEdit

/-- The options of `tr`. -/
def trRules : List OptionRule :=
  [⟨'c', "complement", false⟩, ⟨'C', "", false⟩, ⟨'d', "delete", false⟩,
    ⟨'s', "squeeze-repeats", false⟩, ⟨'t', "truncate-set1", false⟩]

/-- What is wrong with the number of sets. -/
def setCountFault? (deletes squeezes : Bool) (sets : List String) : Option String :=
  let least := if deletes = squeezes then 2 else 1
  let most := if deletes && !squeezes then 1 else 2
  if sets.isEmpty then some "missing operand"
  else if sets.length < least then
    some ("missing operand after " ++ Quoting.plain (sets.getLast?.getD "") ++ "\n" ++
      (if squeezes then
        "Two strings must be given when both deleting and squeezing repeats."
      else "Two strings must be given when translating."))
  else
    match sets.drop most with
    | [] => none
    | extra :: _ =>
      some ("extra operand " ++ Quoting.plain extra ++
        (if sets.length = 2 then
          "\nOnly one string may be given when deleting without squeezing repeats."
        else ""))

/-- Replace, delete or squeeze the bytes of the input. -/
def tr : Utility := fun c args w =>
  let a := Arguments.read trRules true args
  let deletes := a.has 'd'
  let squeezes := a.has 's'
  match a.fault.orElse fun _ => setCountFault? deletes squeezes a.operands with
  | some text => usage c w text
  | none =>
    let w := a.operands.foldl (fun w set =>
      let slashes := set.toList.reverse.takeWhile (· = '\\')
      if slashes.length % 2 = 1 then
        complain c w "warning: an unescaped backslash at end of string is not portable"
      else w) w
    let sets : Except String (List SetItem × Option (List SetItem)) := do
      let first ← SetItem.ofText (a.operands.headD "")
      match a.operands.tail with
      | [] => pure (first, none)
      | second :: _ => pure (first, some (← SetItem.ofText second))
    match sets with
    | .error text => fail c w text
    | .ok (first, second) =>
      let t : ByteEdit :=
        ⟨deletes, squeezes, a.has 'c' || a.has 'C', a.has 't', first, second⟩
      match t.fault? with
      | some text => fail c w text
      | none =>
        let (bytes, w) := w.read c.input none
        (0, (w.write c.output ⟨(t.apply bytes.toList).toArray⟩).2)

end MediaPipeline.Machine.Utility
