/-
SshAuthority/Text/Utf8.lean

UTF-8, read octet by octet.

Between two octets the reader holds either nothing or an open sequence: how many
octets are missing, the bits so far, and the range the next octet must lie in.
The ranges of the second octet keep out overlong forms, numbers above `0x10FFFF`
and, unless they are admitted, surrogates; so every octet is judged as it comes
and no decoded number is checked afterwards.

Main definitions: `decode?` reads a whole text or fails, `decodeLossy` replaces
each longest run that begins no character by U+FFFD, `encode?` fails only on
surrogates.
-/
import SshAuthority.Encoding.Bytes

namespace SshAuthority.Utf8

/-- A started sequence: `missing` more octets complete the bits in `value`, and
the next of them lies between `low` and `high`. -/
structure Open where
  missing : Nat
  value : Nat
  low : UInt8
  high : UInt8

/-- What one octet does to the reader. -/
inductive Step where
  | emit (c : CodePoint)
  | hold (state : Open)
  | reject

/-- The step of an octet that begins a character. -/
def lead (surrogates : Bool) (b : UInt8) : Step :=
  if b < 0x80 then .emit (CodePoint.ofByte b)
  else if b < 0xC2 then .reject
  else if b < 0xE0 then .hold ⟨1, b.toNat - 0xC0, 0x80, 0xBF⟩
  else if b < 0xF0 then
    .hold ⟨2, b.toNat - 0xE0, if b = 0xE0 then 0xA0 else 0x80,
      if b = 0xED && !surrogates then 0x9F else 0xBF⟩
  else if b < 0xF5 then
    .hold ⟨3, b.toNat - 0xF0, if b = 0xF0 then 0x90 else 0x80, if b = 0xF4 then 0x8F else 0xBF⟩
  else .reject

/-- The step of an octet within an open sequence. -/
def extend (s : Open) (b : UInt8) : Step :=
  if s.low ≤ b && b ≤ s.high then
    let value := s.value * 64 + (b.toNat - 0x80)
    if s.missing = 1 then .emit (CodePoint.ofNat value)
    else .hold ⟨s.missing - 1, value, 0x80, 0xBF⟩
  else .reject

/-- The step of an octet in any state of the reader. -/
def step (surrogates : Bool) : Option Open → UInt8 → Step
  | none, b => lead surrogates b
  | some s, b => extend s b

/-- Reads on from the given state to the end of the octets. -/
def decodeFrom (surrogates : Bool) : Option Open → Bytes → Option Text
  | none, [] => some []
  | some _, [] => none
  | state, b :: rest =>
    match step surrogates state b with
    | .emit c => (decodeFrom surrogates none rest).map (c :: ·)
    | .hold s => decodeFrom surrogates (some s) rest
    | .reject => none

/-- The text in UTF-8; fails on any octet out of place. -/
def decode? (b : Bytes) : Option Text := decodeFrom false none b

/-- Like `decode?`, but a surrogate may be spelled like any other code point. -/
def decodeWide? (b : Bytes) : Option Text := decodeFrom true none b

/-- Reads on from the given state, with a replacement for what is out of place. -/
def decodeLossyFrom : Option Open → Bytes → Text
  | none, [] => []
  | some _, [] => [0xFFFD]
  | none, b :: rest =>
    match lead false b with
    | .emit c => c :: decodeLossyFrom none rest
    | .hold s => decodeLossyFrom (some s) rest
    | .reject => 0xFFFD :: decodeLossyFrom none rest
  | some s, b :: rest =>
    match extend s b with
    | .emit c => c :: decodeLossyFrom none rest
    | .hold s => decodeLossyFrom (some s) rest
    | .reject => 0xFFFD :: match lead false b with
      | .emit c => c :: decodeLossyFrom none rest
      | .hold s => decodeLossyFrom (some s) rest
      | .reject => 0xFFFD :: decodeLossyFrom none rest

/-- The text in UTF-8, with U+FFFD for whatever begins no character. -/
def decodeLossy (b : Bytes) : Text := decodeLossyFrom none b

/-- The octets of one code point. -/
def encodePoint (c : CodePoint) : Bytes :=
  let n := c.val
  if n < 0x80 then [UInt8.ofNat n]
  else if n < 0x800 then [UInt8.ofNat (0xC0 + n / 64), UInt8.ofNat (0x80 + n % 64)]
  else if n < 0x10000 then
    [UInt8.ofNat (0xE0 + n / 4096), UInt8.ofNat (0x80 + n / 64 % 64), UInt8.ofNat (0x80 + n % 64)]
  else
    [UInt8.ofNat (0xF0 + n / 262144), UInt8.ofNat (0x80 + n / 4096 % 64),
      UInt8.ofNat (0x80 + n / 64 % 64), UInt8.ofNat (0x80 + n % 64)]

/-- The octets of a text; surrogates have none. -/
def encode? (t : Text) : Option Bytes :=
  if t.any CodePoint.isSurrogate then none else some (t.flatMap encodePoint)

end SshAuthority.Utf8
