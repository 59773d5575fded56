/-
SshAuthority/Network/Address.lean

Addresses and networks of the internet protocol.

An address of version 4 is four decimal numbers between points, without leading
zeros; one of version 6 is eight hexadecimal numbers between colons, where one
run of zeros may be left out and the last two may be an address of version 4. A
network is an address and the length of the part that its members share; the
rest of the address has to be zero.
-/
import SshAuthority.Text.Digit
import SshAuthority.Encoding.Hex

namespace SshAuthority.Address

/-! ### Version 4 -/

/-- The number that ASCII digits spell. -/
def digits? (t : Text) : Option Nat :=
  if !t.isEmpty && t.all CodePoint.isAsciiDigit then
    some (t.foldl (fun n c => n * 10 + (c.val - 0x30)) 0)
  else none

/-- One of the four numbers of an address. -/
def octet? (t : Text) : Option Nat := do
  let n ← digits? t
  if t.length ≤ 3 && n ≤ 255 && (t.length = 1 || t.head? ≠ some 0x30) then some n else none

/-- The number of an address of version 4. -/
def version4? (t : Text) : Option Nat := do
  let octets ← (Text.splitOn 0x2E t).mapM octet?
  if octets.length = 4 then some (octets.foldl (fun n x => n * 256 + x) 0) else none

/-! ### Version 6 -/

/-- One of the eight numbers of an address. -/
def group? (t : Text) : Option Nat := do
  if t.isEmpty || 4 < t.length then none
  else return (← t.mapM Hex.value?).foldl (fun n x => n * 16 + x) 0

/-- The parts between the colons, with an address of version 4 at the end taken as
two numbers. -/
def parts? (t : Text) : Option (List Text) :=
  let parts := Text.splitOn 0x3A t
  match parts.getLast? with
  | none => none
  | some last =>
    if last.contains 0x2E then
      (version4? last).map fun n =>
        parts.dropLast ++ [Hex.ofNat 4 (n / 0x10000), Hex.ofNat 4 (n % 0x10000)]
    else some parts

/-- The parts on one side of a gap. The part at the far end may be empty only if the
gap reaches to that end. -/
def side? (farEnd : Option Text) (parts : List Text) : Option (List Nat) :=
  if farEnd = some [] then
    if parts.length = 1 then some [] else none
  else parts.mapM group?

/-- The eight numbers of an address of version 6 without a zone. -/
def groups? (t : Text) : Option (List Nat) := do
  let parts ← parts? t
  if parts.length < 3 then none
  else
    let inner := parts.tail.dropLast
    match inner.idxOf? [] with
    | none => if parts.length = 8 then parts.mapM group? else none
    | some i =>
      let front := parts.take (i + 1)
      let back := parts.drop (i + 2)
      let high ← side? front.head? front
      let low ← side? back.getLast? back
      if (inner.filter (·.isEmpty)).length = 1 && high.length + low.length < 8 then
        some (high ++ List.replicate (8 - high.length - low.length) 0 ++ low)
      else none

/-- The number of an address of version 6. A zone after a percent sign is allowed. -/
def version6? (t : Text) : Option Nat := do
  let address ← match Text.cut? 0x25 t with
    | none => some t
    | some (address, zone) => if zone.isEmpty || zone.contains 0x25 then none else some address
  return (← groups? address).foldl (fun n x => n * 0x10000 + x) 0

/-! ### Networks -/

/-- How many of `width` bits are set from the top on, if all others are clear. -/
def leadingBits? (width mask : Nat) : Option Nat :=
  (List.range (width + 1)).find? fun k => mask = 2 ^ width - 2 ^ (width - k)

/-- The length of the shared part that a mask gives: a number, or an address with the
shared bits set or with all others set. -/
def maskLength? (width : Nat) (mask : Text) : Option Nat :=
  match digits? mask with
  | some n => if n ≤ width then some n else none
  | none =>
    if width ≠ 32 then none
    else (version4? mask).bind fun m =>
      (leadingBits? 32 m).or (leadingBits? 32 (2 ^ 32 - 1 - m))

/-- Whether an address is that of a network with the mask. -/
def isNetworkOf (width address : Nat) (mask : Option Text) : Bool :=
  match mask with
  | none => true
  | some m =>
    match maskLength? width m with
    | some length => address % 2 ^ (width - length) = 0
    | none => false

/-- Whether the text is a network. -/
def isNetwork (t : Text) : Bool :=
  let (address, mask) := match Text.cut? 0x2F t with
    | some (address, mask) => (address, some mask)
    | none => (t, none)
  match version4? address with
  | some n => isNetworkOf 32 n mask
  | none =>
    match version6? address with
    | some n => isNetworkOf 128 n mask
    | none => false

end SshAuthority.Address
