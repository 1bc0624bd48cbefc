import MediaPipeline.Text.Blank

/-!
# Identifiers

Segments, sequences and resources of a package are named by 128-bit unique
identifiers. Each level has a type of its own, so that a segment is never taken
for a resource.

An identifier may be written with or without hyphens, in either case, after
`urn:uuid:`, or (with hyphens) in braces; it is printed in lower case with
hyphens.
-/

namespace MediaPipeline

/-- A 128-bit unique identifier. -/
structure Uuid where
  bits : BitVec 128
deriving DecidableEq

namespace Uuid

/-- The value of a hexadecimal digit. -/
def hexDigit? (c : Char) : Option Nat :=
  if '0' ≤ c ∧ c ≤ '9' then some (c.toNat - '0'.toNat)
  else if 'a' ≤ c ∧ c ≤ 'f' then some (c.toNat - 'a'.toNat + 10)
  else if 'A' ≤ c ∧ c ≤ 'F' then some (c.toNat - 'A'.toNat + 10)
  else none

/-- The hexadecimal digits of a text that holds nothing else. -/
def hexValue? (cs : List Char) : Option Nat :=
  cs.foldlM (fun n c => (hexDigit? c).map (n * 16 + ·)) 0

/-- Thirty-two digits in a row. -/
def plain? (cs : List Char) : Option Uuid :=
  if cs.length = 32 then (hexValue? cs).map fun n => ⟨BitVec.ofNat 128 n⟩ else none

/-- Digits in groups of 8, 4, 4, 4 and 12, joined by hyphens. -/
def hyphenated? (cs : List Char) : Option Uuid :=
  let hyphen i := cs[i]? == some '-'
  if cs.length = 36 ∧ hyphen 8 ∧ hyphen 13 ∧ hyphen 18 ∧ hyphen 23 then
    plain? (cs.take 8 ++ (cs.drop 9).take 4 ++ (cs.drop 14).take 4 ++
      (cs.drop 19).take 4 ++ cs.drop 24)
  else none

/-- What a reference to an identifier starts with. -/
def urn : List Char := "urn:uuid:".toList

/-- One of the four written forms, with nothing around it. -/
def bare? (cs : List Char) : Option Uuid :=
  if cs.length = 32 then plain? cs
  else if cs.length = 36 then hyphenated? cs
  else if cs.length = 38 ∧ cs.head? = some (Char.ofNat 0x7B) ∧
      cs.getLast? = some (Char.ofNat 0x7D) then
    hyphenated? ((cs.drop 1).dropLast)
  else if urn.isPrefixOf cs then hyphenated? (cs.drop urn.length)
  else none

/-- An identifier as packages and requests write it: blanks around it and one
leading `urn:uuid:` are dropped first. -/
def parse? (s : String) : Option Uuid :=
  let body := Text.trim s.toList
  bare? (if urn.isPrefixOf body then body.drop urn.length else body)

/-- The digit for the four bits that start at bit `4 * i`. -/
def nibble (u : Uuid) (i : Nat) : Char :=
  Nat.digitChar ((u.bits.toNat / Nat.pow 16 i) % 16)

/-- The printed form. -/
def render (u : Uuid) : String :=
  let digits := (List.range 32).map fun i => u.nibble (31 - i)
  String.ofList (digits.take 8 ++ '-' :: (digits.drop 8).take 4 ++ '-' ::
    (digits.drop 12).take 4 ++ '-' :: (digits.drop 16).take 4 ++ '-' :: digits.drop 20)

instance : ToString Uuid := ⟨render⟩

/-! ## Printed forms -/

theorem digitChar_inj {m n : Nat} (hm : m < 16) (hn : n < 16)
    (h : Nat.digitChar m = Nat.digitChar n) : m = n := by
  have hall : ∀ m < 16, ∀ n < 16, Nat.digitChar m = Nat.digitChar n → m = n := by decide
  exact hall m hm n hn h

theorem nibble_ne_hyphen (u : Uuid) (i : Nat) : u.nibble i ≠ '-' := by
  have hall : ∀ n < 16, Nat.digitChar n ≠ '-' := by decide
  exact hall _ (Nat.mod_lt _ (by decide))

/-- Without its hyphens, the printed form is the digits. -/
theorem filter_render (u : Uuid) :
    u.render.toList.filter (· ≠ '-') = (List.range 32).map fun i => u.nibble (31 - i) := by
  have hdigits : ∀ c ∈ (List.range 32).map fun i => u.nibble (31 - i), c ≠ '-' := by
    intro c hc
    obtain ⟨i, -, rfl⟩ := List.mem_map.mp hc
    exact u.nibble_ne_hyphen _
  rw [render, String.toList_ofList]
  generalize (List.range 32).map (fun i => u.nibble (31 - i)) = l at hdigits ⊢
  have hkeep {part : List Char} (h : ∀ c ∈ part, c ∈ l) : part.filter (· ≠ '-') = part :=
    List.filter_eq_self.mpr fun c hc => by simpa using hdigits c (h c hc)
  have hslice (i n : Nat) : ((l.drop i).take n).filter (· ≠ '-') = (l.drop i).take n :=
    hkeep fun c hc => List.mem_of_mem_drop (List.mem_of_mem_take hc)
  have hjoin (i n : Nat) : (l.drop i).take n ++ l.drop (i + n) = l.drop i := by
    rw [← List.drop_drop, List.take_append_drop]
  have hfirst : (l.take 8).filter (· ≠ '-') = l.take 8 := hkeep fun c hc => List.mem_of_mem_take hc
  have hlast : (l.drop 20).filter (· ≠ '-') = l.drop 20 := hkeep fun c hc => List.mem_of_mem_drop hc
  have hhyphen (part : List Char) : ('-' :: part).filter (· ≠ '-') = part.filter (· ≠ '-') := rfl
  simp only [List.filter_append, hhyphen, hfirst, hslice, hlast, List.append_assoc]
  rw [hjoin 16 4, hjoin 12 4, hjoin 8 4, List.take_append_drop]

/-- An identifier is known from its printed form. -/
theorem render_inj {u v : Uuid} (h : u.render = v.render) : u = v := by
  have hdigits : (List.range 32).map (fun i => u.nibble (31 - i)) =
      (List.range 32).map fun i => v.nibble (31 - i) := by
    rw [← u.filter_render, ← v.filter_render, h]
  have hnibble (i : Nat) (hi : i < 32) :
      u.bits.toNat / 16 ^ i % 16 = v.bits.toNat / 16 ^ i % 16 := by
    have heq := List.map_inj_left.mp hdigits (31 - i) (List.mem_range.mpr (by omega))
    rw [show 31 - (31 - i) = i by omega] at heq
    exact digitChar_inj (Nat.mod_lt _ (by decide)) (Nat.mod_lt _ (by decide)) heq
  -- The remainders by powers of sixteen are put together from the digits, the lowest first.
  have hlow (n : Nat) (hn : n ≤ 32) : u.bits.toNat % 16 ^ n = v.bits.toNat % 16 ^ n := by
    induction n with
    | zero => rw [Nat.pow_zero, Nat.mod_one, Nat.mod_one]
    | succ n ih => rw [Nat.mod_pow_succ, Nat.mod_pow_succ, ih (by omega), hnibble n (by omega)]
  have hbits : u.bits.toNat = v.bits.toNat := by
    have hlimit : (16 : Nat) ^ 32 = 2 ^ 128 := by decide
    have heq := hlow 32 (Nat.le_refl _)
    rwa [hlimit, Nat.mod_eq_of_lt u.bits.isLt, Nat.mod_eq_of_lt v.bits.isLt] at heq
  obtain ⟨ubits⟩ := u
  obtain ⟨vbits⟩ := v
  exact congrArg Uuid.mk (BitVec.eq_of_toNat_eq hbits)

end Uuid

/-- Names a segment, a time-ordered part of the composition. -/
structure SegmentId where
  uuid : Uuid
deriving DecidableEq

/-- Names a sequence, one virtual track across all segments. -/
structure SequenceId where
  uuid : Uuid
deriving DecidableEq

/-- Names a resource, the essence behind a sequence in one segment. -/
structure ResourceId where
  uuid : Uuid
deriving DecidableEq

instance : ToString SegmentId := ⟨fun i => i.uuid.render⟩
instance : ToString SequenceId := ⟨fun i => i.uuid.render⟩
instance : ToString ResourceId := ⟨fun i => i.uuid.render⟩

/-- The segment named by a text. -/
def SegmentId.parse? (s : String) : Option SegmentId := (Uuid.parse? s).map SegmentId.mk

/-- The sequence named by a text. -/
def SequenceId.parse? (s : String) : Option SequenceId := (Uuid.parse? s).map SequenceId.mk

/-- The resource named by a text. -/
def ResourceId.parse? (s : String) : Option ResourceId := (Uuid.parse? s).map ResourceId.mk

end MediaPipeline
