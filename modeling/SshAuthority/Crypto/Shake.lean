/-
SshAuthority/Crypto/Shake.lean

SHAKE256, the extendable output function that Ed448 signatures use.

The sponge holds 25 lanes of 64 bits, lane `x + 5·y` standing in column `x` and
row `y`. Input and output pass through its first 136 octets.
-/
import SshAuthority.Crypto.Sha2

namespace SshAuthority.Shake

/-- The constants of the 24 rounds. -/
def constants : List UInt64 :=
  [0x0000000000000001, 0x0000000000008082, 0x800000000000808a, 0x8000000080008000,
   0x000000000000808b, 0x0000000080000001, 0x8000000080008081, 0x8000000000008009,
   0x000000000000008a, 0x0000000000000088, 0x0000000080008009, 0x000000008000000a,
   0x000000008000808b, 0x800000000000008b, 0x8000000000008089, 0x8000000000008003,
   0x8000000000008002, 0x8000000000000080, 0x000000000000800a, 0x800000008000000a,
   0x8000000080008081, 0x8000000000008080, 0x0000000080000001, 0x8000000080008008]

/-- How far each lane is rotated. -/
def offsets : List UInt64 :=
  [0, 1, 62, 28, 27,
   36, 44, 6, 55, 20,
   3, 10, 43, 25, 39,
   41, 45, 15, 21, 8,
   18, 2, 61, 56, 14]

/-- Rotation to the left. -/
def rotate (x n : UInt64) : UInt64 := if n = 0 then x else (x <<< n) ||| (x >>> (64 - n))

/-- One round of the permutation with its constant. -/
def round (s : Array UInt64) (constant : UInt64) : Array UInt64 :=
  let lane (t : Array UInt64) (x y : Nat) : UInt64 := t.getD (x % 5 + 5 * (y % 5)) 0
  let column (x : Nat) : UInt64 :=
    lane s x 0 ^^^ lane s x 1 ^^^ lane s x 2 ^^^ lane s x 3 ^^^ lane s x 4
  let columns := (List.range 5).toArray.map column
  let mixed := (List.range 25).toArray.map fun i =>
    s.getD i 0 ^^^ columns.getD ((i + 4) % 5) 0 ^^^ rotate (columns.getD ((i + 1) % 5) 0) 1
  let turned := (List.zipWith rotate mixed.toList offsets).toArray
  -- the lane that comes to column `x` and row `y` stood in column `x + 3·y` and row `x`
  let moved := (List.range 25).toArray.map fun i => lane turned (i % 5 + 3 * (i / 5)) (i % 5)
  let chosen := (List.range 25).toArray.map fun i =>
    let x := i % 5
    let y := i / 5
    lane moved x y ^^^ (~~~lane moved (x + 1) y &&& lane moved (x + 2) y)
  chosen.set! 0 (chosen.getD 0 0 ^^^ constant)

/-- The permutation of the sponge. -/
def permute (s : Array UInt64) : Array UInt64 := constants.foldl round s

/-- How many octets pass through the sponge at a time. -/
def rate : Nat := 136

/-- The state after a block of input. -/
def absorb (s : Array UInt64) (block : Bytes) : Array UInt64 :=
  let words := (Sha2.pieces 8 17 block).map fun b => UInt64.ofNat (Bytes.toNatLE b)
  let padded := words ++ List.replicate 8 0
  permute (List.zipWith (· ^^^ ·) s.toList padded).toArray

/-- The message with its end marked, filling whole blocks. -/
def pad (message : Bytes) : Bytes :=
  let gap := rate - message.length % rate
  if gap = 1 then message ++ [0x9F]
  else message ++ [0x1F] ++ List.replicate (gap - 2) 0 ++ [0x80]

/-- `blocks` blocks of output. -/
def squeeze (s : Array UInt64) : (blocks : Nat) → Bytes
  | 0 => []
  | blocks + 1 =>
    ((s.toList.take 17).flatMap fun w => Bytes.ofNatLE 8 w.toNat) ++ squeeze (permute s) blocks

/-- The first `size` octets of SHAKE256. -/
def shake256 (size : Nat) (message : Bytes) : Bytes :=
  let padded := pad message
  let state := (Sha2.pieces rate (padded.length / rate) padded).foldl absorb
    (Array.replicate 25 0)
  (squeeze state (size / rate + 1)).take size

end SshAuthority.Shake
