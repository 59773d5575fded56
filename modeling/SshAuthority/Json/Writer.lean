/-
SshAuthority/Json/Writer.lean

Writing JSON in printable ASCII.

Whatever is not printable ASCII is escaped, above `0xFFFF` as a pair of
surrogates, so a written value is one line whatever texts it holds. A comma and
a colon are followed by one space. A whole number is written if it has as many
digits as are converted at all (`isWritable`).
-/
import SshAuthority.Json.Value

namespace SshAuthority.Json

/-- The escape of a 16 bit unit. -/
def unitEscape (n : Nat) : Text := [0x5C, 0x75] ++ Hex.ofNat 4 n

/-- One code point within a written text. -/
def writePoint (c : CodePoint) : Text :=
  if c = 0x22 || c = 0x5C then [0x5C, c]
  else if c = 0x0A then [0x5C, 0x6E]
  else if c = 0x0D then [0x5C, 0x72]
  else if c = 0x09 then [0x5C, 0x74]
  else if c = 0x0C then [0x5C, 0x66]
  else if c = 0x08 then [0x5C, 0x62]
  else if 0x20 ≤ c.val && c.val ≤ 0x7E then [c]
  else if c.val < 0x10000 then unitEscape c.val
  else unitEscape (0xD800 + (c.val - 0x10000) / 0x400) ++
    unitEscape (0xDC00 + (c.val - 0x10000) % 0x400)

/-- A text in quotation marks. -/
def writeText (t : Text) : Text := [0x22] ++ t.flatMap writePoint ++ [0x22]

/-- A number with a point or an exponent, or the name of one that is not finite. -/
def writeReal : Real64 → Text
  | .nan => "NaN"
  | .infinite negative => if negative then "-Infinity" else "Infinity"
  | x => x.text

mutual

/-- The JSON text of a value. -/
def write : Json → Text
  | .null => "null"
  | .bool true => "true"
  | .bool false => "false"
  | .int n => Decimal.ofInt n
  | .real x => writeReal x
  | .text t => writeText t
  | .array items => [0x5B] ++ writeItems items ++ [0x5D]
  | .object entries => [0x7B] ++ writeEntries entries ++ [0x7D]

/-- The items of an array, with commas between them. -/
def writeItems : List Json → Text
  | [] => []
  | [item] => write item
  | item :: rest => write item ++ [0x2C, 0x20] ++ writeItems rest

/-- The entries of an object, with commas between them. -/
def writeEntries : List (Text × Json) → Text
  | [] => []
  | [(name, value)] => writeText name ++ [0x3A, 0x20] ++ write value
  | (name, value) :: rest =>
    writeText name ++ [0x3A, 0x20] ++ write value ++ [0x2C, 0x20] ++ writeEntries rest

end

mutual

/-- Whether the value is written at all: every whole number in it has to have a text. -/
def isWritable : Json → Bool
  | .int n => (Decimal.text? n).isOk
  | .array items => areWritable items
  | .object entries => entriesWritable entries
  | _ => true

/-- Whether all items of an array are written. -/
def areWritable : List Json → Bool
  | [] => true
  | item :: rest => item.isWritable && areWritable rest

/-- Whether the values of all entries of an object are written. -/
def entriesWritable : List (Text × Json) → Bool
  | [] => true
  | (_, value) :: rest => value.isWritable && entriesWritable rest

end

end SshAuthority.Json
