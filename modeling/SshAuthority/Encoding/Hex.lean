/-
SshAuthority/Encoding/Hex.lean

Hexadecimal digits: of numbers in escapes, and of octet strings.
-/
import SshAuthority.Encoding.Bytes

namespace SshAuthority.Hex

/-- The lower case digit with the given value below sixteen. -/
def digit (d : Nat) : CodePoint :=
  CodePoint.ofNat (if d < 10 then 0x30 + d else 0x57 + d)

/-- The upper case digit with the given value below sixteen. -/
def capital (d : Nat) : CodePoint :=
  CodePoint.ofNat (if d < 10 then 0x30 + d else 0x37 + d)

/-- The value of a digit of either case. -/
def value? (c : CodePoint) : Option Nat :=
  if 0x30 ≤ c.val && c.val ≤ 0x39 then some (c.val - 0x30)
  else if 0x41 ≤ c.val && c.val ≤ 0x46 then some (c.val - 0x37)
  else if 0x61 ≤ c.val && c.val ≤ 0x66 then some (c.val - 0x57)
  else none

/-- The last `width` digits of `n`. -/
def ofNat : (width n : Nat) → Text
  | 0, _ => []
  | width + 1, n => ofNat width (n / 16) ++ [digit (n % 16)]

/-- Two digits for every octet. -/
def ofBytes (b : Bytes) : Text :=
  b.flatMap fun x => [digit (x.toNat / 16), digit (x.toNat % 16)]

/-- The octets spelled by pairs of digits. -/
def toBytes? : Text → Option Bytes
  | [] => some []
  | [_] => none
  | high :: low :: rest => do
    let h ← value? high
    let l ← value? low
    let b ← toBytes? rest
    return UInt8.ofNat (h * 16 + l) :: b

end SshAuthority.Hex
