import MediaPipeline.Text.Printable

/-!
# Quoted text

How a path is shown inside an error message: between double quotes, with a
backslash before quotes and backslashes, short escapes for the common controls
and the code point in hexadecimal for every other character that cannot be
shown.
-/

namespace MediaPipeline.Text

/-- The digits of a number in lower-case hexadecimal. -/
def hexDigits (n : Nat) : List Char := Nat.toDigits 16 n

/-- How one character is written between quotes. -/
def escapeChar (c : Char) : List Char :=
  if c == '\t' then ['\\', 't']
  else if c == '\r' then ['\\', 'r']
  else if c == '\n' then ['\\', 'n']
  else if c.toNat == 0 then ['\\', '0']
  else if c == '\'' || c == '"' || c == '\\' then ['\\', c]
  else if isPrintable c then [c]
  else ['\\', 'u', Char.ofNat 0x7B] ++ hexDigits c.toNat ++ [Char.ofNat 0x7D]

/-- Text between double quotes. -/
def quoted (s : String) : String :=
  String.ofList ('"' :: (s.toList.flatMap escapeChar ++ ['"']))

end MediaPipeline.Text
