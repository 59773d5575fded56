/-
SshAuthority/Text/Utf16.lean

UTF-16 and UTF-32 in either order of octets.

A high surrogate directly before a low one makes a code point above `0xFFFF`;
any other surrogate stands for itself.
-/
import SshAuthority.Encoding.Bytes

namespace SshAuthority

/-- Which octet of a unit comes first. -/
inductive Endian where
  | big
  | little
  deriving DecidableEq

namespace Utf16

/-- The 16 bit units spelled by pairs of octets. -/
def units? (order : Endian) : Bytes → Option (List Nat)
  | [] => some []
  | [_] => none
  | a :: b :: rest =>
    let unit := match order with
      | .big => a.toNat * 256 + b.toNat
      | .little => b.toNat * 256 + a.toNat
    (units? order rest).map (unit :: ·)

/-- Whether the unit is the first half of a pair. -/
def isHigh (n : Nat) : Bool := 0xD800 ≤ n && n < 0xDC00

/-- Whether the unit is the second half of a pair. -/
def isLow (n : Nat) : Bool := 0xDC00 ≤ n && n < 0xE000

/-- The code point of a pair of units. -/
def pair (high low : Nat) : CodePoint :=
  CodePoint.ofNat (0x10000 + (high - 0xD800) * 0x400 + (low - 0xDC00))

/-- The text of a sequence of units. -/
def ofUnits : List Nat → Text
  | [] => []
  | [unit] => [CodePoint.ofNat unit]
  | high :: low :: rest =>
    if isHigh high && isLow low then pair high low :: ofUnits rest
    else CodePoint.ofNat high :: ofUnits (low :: rest)

/-- The text in UTF-16; fails on an odd number of octets. -/
def decode? (order : Endian) (b : Bytes) : Option Text := (units? order b).map ofUnits

end Utf16

namespace Utf32

/-- The text in UTF-32; fails on a broken unit and above `0x10FFFF`. -/
def decode? (order : Endian) : Bytes → Option Text
  | [] => some []
  | a :: b :: c :: d :: rest =>
    let unit := match order with
      | .big => Bytes.toNat [a, b, c, d]
      | .little => Bytes.toNat [d, c, b, a]
    if h : unit < 0x110000 then (decode? order rest).map (⟨unit, h⟩ :: ·) else none
  | _ => none

end Utf32

end SshAuthority
