/-
SshAuthority/Encoding/Bytes.lean

Octet strings, and the numbers they spell.

Keys, certificates and request bodies are lists of octets. A number is spelled
with its most significant octet first (`toNat`, `ofNat`) or, in the Edwards
signature schemes, last (`toNatLE`, `ofNatLE`).
-/
import SshAuthority.Text.CodePoint

namespace SshAuthority

/-- An octet string. -/
abbrev Bytes := List UInt8

namespace Bytes

/-- The number spelled by the octets, most significant first. -/
def toNat (b : Bytes) : Nat := b.foldl (fun n x => n * 256 + x.toNat) 0

/-- The number spelled by the octets, least significant first. -/
def toNatLE (b : Bytes) : Nat := b.foldr (fun x n => n * 256 + x.toNat) 0

/-- The last `width` octets of `n`, least significant first. -/
def ofNatLE : (width n : Nat) → Bytes
  | 0, _ => []
  | width + 1, n => UInt8.ofNat (n % 256) :: ofNatLE width (n / 256)

/-- The last `width` octets of `n`, most significant first. -/
def ofNat (width n : Nat) : Bytes := (ofNatLE width n).reverse

/-- How many octets the number needs; zero needs none. -/
def sizeOf (n : Nat) : Nat := if n = 0 then 0 else n.log2 / 8 + 1

/-- The shortest octet string that spells `n`. -/
def ofNatShort (n : Nat) : Bytes := ofNat (sizeOf n) n

/-- The octets of an ASCII string. -/
def ofString (s : String) : Bytes := s.toList.map fun c => UInt8.ofNat c.toNat

/-- The octets of an ASCII text; a text with other code points has none. -/
def ofAscii? (t : Text) : Option Bytes :=
  if t.isAscii then some (t.map fun c => UInt8.ofNat c.val) else none

/-- The text whose code points are the octets. -/
def toLatin (b : Bytes) : Text := b.map CodePoint.ofByte

/-- The text of ASCII octets; other octets have none. -/
def toAscii? (b : Bytes) : Option Text :=
  if b.all (· < 0x80) then some (toLatin b) else none

instance : Coe String Bytes := ⟨ofString⟩

/-- The white space of ASCII. -/
def isSpace (b : UInt8) : Bool := b == 0x20 || (0x09 ≤ b && b ≤ 0x0D)

/-- The octets without the white space at their end. -/
def trimRight (b : Bytes) : Bytes := (b.reverse.dropWhile isSpace).reverse

/-- The octets without the white space at both ends. -/
def trim (b : Bytes) : Bytes := trimRight (b.dropWhile isSpace)

/-- The rest of `b` after `start`, if `b` begins with it. -/
def after? : Bytes → Bytes → Option Bytes
  | [], b => some b
  | _ :: _, [] => none
  | x :: start, y :: b => if x = y then after? start b else none

/-- The lines of `b`, without the line feeds that end them. -/
def lines : Bytes → List Bytes
  | [] => [[]]
  | x :: rest =>
    if x = 0x0A then [] :: lines rest
    else match lines rest with
      | [] => [[x]]
      | line :: more => (x :: line) :: more

end Bytes

end SshAuthority
