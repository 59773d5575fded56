/-
SshAuthority/Text/Blank.lean

Blank code points, and texts with the blanks at their ends removed.

A code point is blank if Unicode gives it the bidirectional class WS, B or S, or
the category Zs. That is one class wider than ASCII white space: the no-break
space and the information separators U+001C to U+001F belong to it, the zero
width space and the byte order mark do not. Numbers are read with a slightly
smaller set, `CodePoint.isNumberBlank`.
-/
import SshAuthority.Text.CodePoint

namespace SshAuthority

namespace CodePoint

/-- The blank code points. -/
def isBlank (c : CodePoint) : Bool :=
  let n := c.val
  (0x09 ≤ n && n ≤ 0x0D) || (0x1C ≤ n && n ≤ 0x20) || n == 0x85 || n == 0xA0 ||
  n == 0x1680 || (0x2000 ≤ n && n ≤ 0x200A) || n == 0x2028 || n == 0x2029 ||
  n == 0x202F || n == 0x205F || n == 0x3000

/-- The blanks that may surround a number: all but the information separators. -/
def isNumberBlank (c : CodePoint) : Bool :=
  c.isBlank && !(0x1C ≤ c.val && c.val ≤ 0x1F)

end CodePoint

namespace Text

/-- The text without the blanks at both ends. -/
def trim (t : Text) : Text := dropBoth CodePoint.isBlank t

/-- The text without the blanks at its end. -/
def trimRight (t : Text) : Text := dropRight CodePoint.isBlank t

/-- Whether every code point is blank. -/
def isBlank (t : Text) : Bool := t.all CodePoint.isBlank

end Text

end SshAuthority
