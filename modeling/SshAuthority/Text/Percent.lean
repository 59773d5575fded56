/-
SshAuthority/Text/Percent.lean

Percent encoding: an octet as a percent sign and two hexadecimal digits.

Encoding keeps the code points of a safe set and spells all others as the octets
of their UTF-8. Decoding goes run by run over the ASCII stretches of a text; in
each, the escaped and the plain octets together are read as UTF-8.
-/
import SshAuthority.Text.Utf8
import SshAuthority.Encoding.Hex

namespace SshAuthority.Percent

/-- Letters, digits and four marks, which never need an escape. -/
def isUnreserved (c : CodePoint) : Bool :=
  c.isAscii && (c.toChar?.any Char.isAlphanum || [0x2D, 0x2E, 0x5F, 0x7E].contains c.val)

/-- The escape of an octet. -/
def escape (b : UInt8) : Text := [0x25, Hex.capital (b.toNat / 16), Hex.capital (b.toNat % 16)]

/-- The text with all but safe code points escaped; surrogates cannot be. -/
def encode? (safe : CodePoint → Bool) (t : Text) : Option Text :=
  (t.mapM fun c =>
    if safe c then some [c]
    else if c.isSurrogate then none
    else some ((Utf8.encodePoint c).flatMap escape)).map List.flatten

/-- The octets of ASCII text with the escapes resolved. A percent sign that begins no
escape stands for itself. -/
def octets : Text → Bytes
  | c :: a :: b :: rest =>
    match decide (c = 0x25), Hex.value? a, Hex.value? b with
    | true, some high, some low => UInt8.ofNat (high * 16 + low) :: octets rest
    | _, _, _ => UInt8.ofNat c.val :: octets (a :: b :: rest)
  | short => short.map fun c => UInt8.ofNat c.val

/-- Decodes on, with the ASCII code points since the last other one held back in
reverse. -/
def decodeFrom (held : Text) : Text → Text
  | [] => Utf8.decodeLossy (octets held.reverse)
  | c :: rest =>
    if c.isAscii then decodeFrom (c :: held) rest
    else Utf8.decodeLossy (octets held.reverse) ++ c :: decodeFrom [] rest

/-- The text with the escapes resolved. -/
def decode (t : Text) : Text := decodeFrom [] t

end SshAuthority.Percent
