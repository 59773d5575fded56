/-
SshAuthority/Text/Capital.lean

Capital forms that stay within ASCII.

Names of log levels are compared in capitals. A few letters outside ASCII have
capital forms within it (the dotless i, the long s, the sharp s and the Latin
ligatures); a text with any other letter has no capital form of interest.
-/
import SshAuthority.Text.CodePoint

namespace SshAuthority

/-- The capital form of a code point, if it is ASCII. -/
def CodePoint.asciiCapital? (c : CodePoint) : Option Text :=
  if 0x61 ≤ c.val && c.val ≤ 0x7A then some [CodePoint.ofNat (c.val - 32)]
  else if c.isAscii then some [c]
  else match c.val with
    | 0xDF => some "SS"
    | 0x131 => some "I"
    | 0x17F => some "S"
    | 0xFB00 => some "FF"
    | 0xFB01 => some "FI"
    | 0xFB02 => some "FL"
    | 0xFB03 => some "FFI"
    | 0xFB04 => some "FFL"
    | 0xFB05 => some "ST"
    | 0xFB06 => some "ST"
    | _ => none

/-- The capital form of a text, if it is ASCII. -/
def Text.asciiCapital? (t : Text) : Option Text :=
  (t.mapM CodePoint.asciiCapital?).map List.flatten

end SshAuthority
