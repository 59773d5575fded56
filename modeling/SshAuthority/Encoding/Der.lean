/-
SshAuthority/Encoding/Der.lean

Values in the Distinguished Encoding Rules, as far as keys use them.

A value is a tag, a length and contents. Tags of the universal class that keys
use have constructors of their own; any other value is kept as its contents or,
if it is constructed, as the value inside.
-/
import SshAuthority.Encoding.Wire

namespace SshAuthority

/-- A DER value. -/
inductive Der where
  | boolean (value : Bool)
  | integer (value : Int)
  | bitString (unused : Nat) (octets : Bytes)
  | octetString (octets : Bytes)
  | null
  | identifier (octets : Bytes)
  | sequence (items : List Der)
  | set (items : List Der)
  | tagged (kind tag : Nat) (value : Der)
  | other (kind tag : Nat) (octets : Bytes)

namespace Der

/-- The number of a tag that needs more than its first octet, and what follows it. -/
def longTag? (tag : Nat) : Bytes → Option (Nat × Bytes)
  | [] => none
  | b :: rest =>
    let tag := tag * 128 + b.toNat % 128
    if b < 0x80 then some (tag, rest) else longTag? tag rest

/-- The class, whether the value is constructed, the tag, and what follows them. -/
def head? : Bytes → Option (Nat × Bool × Nat × Bytes)
  | [] => none
  | b :: rest =>
    let kind := b.toNat / 64
    let constructed := b.toNat / 32 % 2 = 1
    if b.toNat % 32 = 31 then
      (longTag? 0 rest).map fun (tag, after) => (kind, constructed, tag, after)
    else some (kind, constructed, b.toNat % 32, rest)

/-- The contents that the length before them announces, and what follows them. -/
def contents? : Bytes → Option (Bytes × Bytes)
  | [] => none
  | b :: rest =>
    if b < 0x80 then Wire.take b.toNat rest
    else if b = 0x80 then none
    else
      let size := b.toNat - 0x80
      Wire.take (Bytes.toNat (rest.take size)) (rest.drop size)

/-- The value of a tag of the universal class with contents that are not made of
values, if it is one of those known. -/
def primitive? (tag : Nat) (c : Bytes) : Option Der :=
  match tag with
  | 1 => if c = [0x00] then some (.boolean false) else if c = [0xFF] then some (.boolean true) else none
  | 2 => some (.integer (Wire.signed c))
  | 3 =>
    match c with
    | unused :: octets => if unused < 8 then some (.bitString unused.toNat octets) else none
    | [] => none
  | 4 => some (.octetString c)
  | 5 => if c.isEmpty then some .null else none
  | 6 => if c.isEmpty then none else some (.identifier c)
  | _ => some (.other 0 tag c)

/-- Whether a tag of the universal class is one of those known, and never constructed. -/
def isPrimitiveTag (tag : Nat) : Bool := [1, 2, 3, 4, 5, 6, 12, 22].contains tag

mutual

/-- Takes one value from the front of the octets. -/
def readWithin? : (fuel : Nat) → Bytes → Option (Der × Bytes)
  | 0, _ => none
  | fuel + 1, b =>
    match head? b with
    | none => none
    | some (kind, constructed, tag, afterTag) =>
      match contents? afterTag with
      | none => none
      | some (c, rest) =>
        if kind = 0 && (tag = 16 || tag = 17) then
          if constructed then
            (readItems? fuel c).map fun items =>
              (if tag = 16 then .sequence items else .set items, rest)
          else none
        else if kind = 0 && isPrimitiveTag tag then
          if constructed then none else (primitive? tag c).map (·, rest)
        else if constructed then
          match readWithin? fuel c with
          | some (value, []) => some (.tagged kind tag value, rest)
          | _ => none
        else some (.other kind tag c, rest)

/-- The values that fill the octets. -/
def readItems? : (fuel : Nat) → Bytes → Option (List Der)
  | _, [] => some []
  | 0, _ => none
  | fuel + 1, b =>
    match readWithin? fuel b with
    | none => none
    | some (value, rest) => (readItems? fuel rest).map (value :: ·)

end

/-- Takes one value from the front of the octets. -/
def readFront? (b : Bytes) : Option (Der × Bytes) := readWithin? (2 * b.length + 1) b

/-- The value that fills the octets. -/
def read? (b : Bytes) : Option Der :=
  match readFront? b with
  | some (value, []) => some value
  | _ => none

/-- The number a value stands for; truth values count as one and zero. -/
def int? : Der → Option Int
  | .integer n => some n
  | .boolean b => some (if b then 1 else 0)
  | _ => none

/-- The numbers of a sequence that holds nothing else. -/
def ints? : Der → Option (List Int)
  | .sequence items => items.mapM int?
  | _ => none

end Der

end SshAuthority
