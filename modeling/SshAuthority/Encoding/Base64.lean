/-
SshAuthority/Encoding/Base64.lean

Base64, read in two ways.

Key files are read leniently (`decodeLenient?`): octets outside the alphabet are
skipped, and a padding that completes a group ends the text, whatever follows.
Tokens are read strictly (`decodeUrl?`): the other alphabet, no octet outside it,
unused bits zero, and padding only if it fills the last group.
-/
import SshAuthority.Encoding.Bytes

namespace SshAuthority.Base64

/-- The value of a letter of the common alphabet. -/
def value? (c : UInt8) : Option Nat :=
  if 0x41 ≤ c && c ≤ 0x5A then some (c.toNat - 0x41)
  else if 0x61 ≤ c && c ≤ 0x7A then some (c.toNat - 0x61 + 26)
  else if 0x30 ≤ c && c ≤ 0x39 then some (c.toNat - 0x30 + 52)
  else if c = 0x2B then some 62
  else if c = 0x2F then some 63
  else none

/-- The value of a letter of the alphabet for URLs. -/
def urlValue? (c : UInt8) : Option Nat :=
  if c = 0x2D then some 62
  else if c = 0x5F then some 63
  else if c = 0x2B || c = 0x2F then none
  else value? c

/-- The letter with a value below 64. -/
def letter (v : Nat) : UInt8 :=
  UInt8.ofNat (if v < 26 then 0x41 + v else if v < 52 then 0x61 + (v - 26)
    else if v < 62 then 0x30 + (v - 52) else if v = 62 then 0x2B else 0x2F)

/-- The octets of six bit values; what does not fill an octet is dropped. -/
def join : List Nat → Bytes
  | a :: b :: c :: d :: rest =>
    UInt8.ofNat (a * 4 + b / 16) :: UInt8.ofNat (b % 16 * 16 + c / 4) ::
      UInt8.ofNat (c % 4 * 64 + d) :: join rest
  | [a, b, c] => [UInt8.ofNat (a * 4 + b / 16), UInt8.ofNat (b % 16 * 16 + c / 4)]
  | [a, b] => [UInt8.ofNat (a * 4 + b / 16)]
  | _ => []

/-- The letters of octets, with padding to whole groups. -/
def encode : Bytes → Bytes
  | a :: b :: c :: rest =>
    let n := a.toNat * 65536 + b.toNat * 256 + c.toNat
    letter (n / 262144) :: letter (n / 4096 % 64) :: letter (n / 64 % 64) :: letter (n % 64) ::
      encode rest
  | [a, b] =>
    let n := a.toNat * 1024 + b.toNat * 4
    [letter (n / 4096), letter (n / 64 % 64), letter (n % 64), 0x3D]
  | [a] => [letter (a.toNat / 4), letter (a.toNat % 4 * 16), 0x3D, 0x3D]
  | [] => []

/-- The values up to the end of a lenient text. `place` counts the letters of the
open group and `pads` the padding since the last of them. -/
def collect : (place pads : Nat) → Bytes → Option (List Nat)
  | place, _, [] => if place = 0 then some [] else none
  | place, pads, c :: rest =>
    if c = 0x3D then
      if 2 ≤ place then
        if 4 ≤ place + pads + 1 then some [] else collect place (pads + 1) rest
      else collect place pads rest
    else match value? c with
      | none => collect place pads rest
      | some v => (collect ((place + 1) % 4) 0 rest).map (v :: ·)

/-- The octets of a lenient text; fails if the last group is open. -/
def decodeLenient? (b : Bytes) : Option Bytes := (collect 0 0 b).map join

/-- Whether the bits that fill no octet are zero. -/
def isCanonical (values : List Nat) : Bool :=
  match values.length % 4, values.getLast? with
  | 0, _ => true
  | 2, some last => last % 16 = 0
  | 3, some last => last % 4 = 0
  | _, _ => false

/-- The octets of a strict text. -/
def decodeUrl? (b : Bytes) : Option Bytes := do
  let letters := (b.reverse.dropWhile (· = 0x3D)).reverse
  if letters.length ≠ b.length && b.length % 4 ≠ 0 then none
  else
    let values ← letters.mapM urlValue?
    if isCanonical values then some (join values) else none

end SshAuthority.Base64
