/-!
# Bytes and text

Text is stored as UTF-8. Bytes that are no UTF-8 are shown with the replacement
character, one for each longest start of a sequence that breaks off.
-/

namespace MediaPipeline.Text

/-- What stands for bytes that are no text. -/
def replacement : Char := Char.ofNat 0xFFFD

/-- The bounds of the second byte of a sequence, by its first byte. -/
def secondBounds (b : UInt8) : UInt8 × UInt8 :=
  if b = 0xE0 then (0xA0, 0xBF)
  else if b = 0xED then (0x80, 0x9F)
  else if b = 0xF0 then (0x90, 0xBF)
  else if b = 0xF4 then (0x80, 0x8F)
  else (0x80, 0xBF)

/-- The number of bytes of a sequence, by its first byte; zero if none starts so. -/
def sequenceLength (b : UInt8) : Nat :=
  if b < 0x80 then 1
  else if 0xC2 ≤ b ∧ b ≤ 0xDF then 2
  else if 0xE0 ≤ b ∧ b ≤ 0xEF then 3
  else if 0xF0 ≤ b ∧ b ≤ 0xF4 then 4
  else 0

/-- A sequence that is being read. -/
structure Partial where
  value : Nat
  /-- How many bytes are missing. -/
  missing : Nat
  /-- The bounds of the next byte. -/
  low : UInt8
  high : UInt8

/-- Start a sequence with a byte: the characters it completes, and what is open. -/
def startSequence (b : UInt8) : List Char × Option Partial :=
  match sequenceLength b with
  | 1 => ([Char.ofNat b.toNat], none)
  | 2 => ([], some ⟨b.toNat - 0xC0, 1, 0x80, 0xBF⟩)
  | 3 => ([], some ⟨b.toNat - 0xE0, 2, (secondBounds b).1, (secondBounds b).2⟩)
  | 4 => ([], some ⟨b.toNat - 0xF0, 3, (secondBounds b).1, (secondBounds b).2⟩)
  | _ => ([replacement], none)

/-- Take one byte. -/
def decodeByte (state : List Char × Option Partial) (b : UInt8) : List Char × Option Partial :=
  let (out, opened) := state
  let start (out : List Char) :=
    let (cs, opened) := startSequence b
    (cs ++ out, opened)
  match opened with
  | none => start out
  | some p =>
    if p.low ≤ b ∧ b ≤ p.high then
      let value := p.value * 64 + (b.toNat - 0x80)
      match p.missing with
      | 0 | 1 => (Char.ofNat value :: out, none)
      | n + 1 => (out, some ⟨value, n, 0x80, 0xBF⟩)
    else start (replacement :: out)

/-- The text of bytes. -/
def ofBytes (bytes : ByteArray) : String :=
  match String.fromUTF8? bytes with
  | some s => s
  | none =>
    let (out, opened) := bytes.foldl decodeByte ([], none)
    String.ofList (if opened.isSome then replacement :: out else out).reverse

end MediaPipeline.Text
