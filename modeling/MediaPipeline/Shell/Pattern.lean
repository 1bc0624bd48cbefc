/-!
# Shell patterns

Patterns with `*`, `?` and bracket expressions. Each character of a pattern says
whether it was quoted; a quoted character stands for itself.
-/

namespace MediaPipeline.Shell

/-- A character with the information whether it was quoted. -/
abbrev Marked := Char × Bool

/-- Whether a character of a pattern is special. -/
def isSpecial (m : Marked) : Bool :=
  !m.2 && (m.1 == '*' || m.1 == '?' || m.1 == '[')

/-- The items of a bracket expression, and the pattern after it. -/
def readBracket : List Marked → Option (List Marked × List Marked)
  | [] => none
  | m :: ms =>
    -- A closing bracket in front is an item.
    match go ms with
    | some (items, rest) => some (m :: items, rest)
    | none => none
where
  /-- Read up to the closing bracket. -/
  go : List Marked → Option (List Marked × List Marked)
    | [] => none
    | (']', false) :: rest => some ([], rest)
    | m :: rest => (go rest).map fun p => (m :: p.1, p.2)

/-- Whether a character is among the items of a bracket expression. -/
def inItems (c : Char) : List Marked → Bool
  | (a, _) :: ('-', false) :: (b, _) :: rest => (a ≤ c && c ≤ b) || inItems c rest
  | (a, _) :: rest => a == c || inItems c rest
  | [] => false

/-- Whether a bracket expression, possibly negated, takes a character. -/
def bracketTakes (c : Char) : List Marked → Bool
  | (n, false) :: items =>
    if n = '!' ∨ n = '^' then !inItems c items else inItems c ((n, false) :: items)
  | items => inItems c items

/-- Whether a pattern matches a whole text. -/
def matchPattern : Nat → List Marked → List Char → Bool
  | 0, _, _ => false
  | _ + 1, [], cs => cs.isEmpty
  | fuel + 1, (p, quoted) :: ps, cs =>
    if p = '*' ∧ quoted = false then
      matchPattern fuel ps cs ||
        (match cs with
          | [] => false
          | _ :: rest => matchPattern fuel ((p, quoted) :: ps) rest)
    else
      match cs with
      | [] => false
      | c :: rest =>
        if p = '?' ∧ quoted = false then matchPattern fuel ps rest
        else if p = '[' ∧ quoted = false then
          match readBracket ps with
          | some (items, after) => bracketTakes c items && matchPattern fuel after rest
          | none => c == '[' && matchPattern fuel ps rest
        else c == p && matchPattern fuel ps rest

/-- Whether a pattern matches a whole text. -/
def Pattern.holds (ps : List Marked) (cs : List Char) : Bool :=
  matchPattern (ps.length + cs.length + 1) ps cs

/-- Remove the part of a text at its start that a pattern matches: the shortest
one, or the longest. -/
def removeStart (longest : Bool) (ps : List Marked) (cs : List Char) : List Char :=
  let lengths := List.range (cs.length + 1)
  let lengths := if longest then lengths.reverse else lengths
  match lengths.find? fun n => Pattern.holds ps (cs.take n) with
  | some n => cs.drop n
  | none => cs

/-- Remove the part of a text at its end that a pattern matches: the shortest one,
or the longest. -/
def removeEnd (longest : Bool) (ps : List Marked) (cs : List Char) : List Char :=
  let lengths := List.range (cs.length + 1)
  let lengths := if longest then lengths else lengths.reverse
  match lengths.find? fun n => Pattern.holds ps (cs.drop n) with
  | some n => cs.take n
  | none => cs

end MediaPipeline.Shell
