/-
SshAuthority/Text/Quoted.lean

Texts in quotation marks, as messages show what they were given.

A text stands between apostrophes, or between double quotation marks if it holds
an apostrophe and no double mark. The mark in use and the backslash are escaped,
as are line feed, carriage return, tab and whatever is not printable.
-/
import SshAuthority.Text.Printable
import SshAuthority.Encoding.Hex

namespace SshAuthority.Text

/-- One code point inside a text between the marks `mark`. -/
def quotePoint (mark c : CodePoint) : Text :=
  if c = mark || c = 0x5C then [0x5C, c]
  else if c = 0x0A then "\\n"
  else if c = 0x0D then "\\r"
  else if c = 0x09 then "\\t"
  else if c.isPrintable then [c]
  else if c.val < 0x100 then "\\x" ++ Hex.ofNat 2 c.val
  else if c.val < 0x10000 then "\\u" ++ Hex.ofNat 4 c.val
  else "\\U" ++ Hex.ofNat 8 c.val

/-- The mark that surrounds a text. -/
def quoteMark (t : Text) : CodePoint :=
  if t.contains 0x27 && !t.contains 0x22 then 0x22 else 0x27

/-- The text in quotation marks. -/
def quoted (t : Text) : Text :=
  let mark := quoteMark t
  [mark] ++ t.flatMap (quotePoint mark) ++ [mark]

end SshAuthority.Text
