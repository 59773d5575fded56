/-
SshAuthority/Crypto/Sha1.lean

SHA-1, which older signatures on certificates still use.
-/
import SshAuthority.Crypto.Sha2

namespace SshAuthority.Sha1

/-- The five working words. -/
structure State where
  a : UInt32
  b : UInt32
  c : UInt32
  d : UInt32
  e : UInt32

/-- Rotation to the left. -/
def rotate (x : UInt32) (n : UInt32) : UInt32 := (x <<< n) ||| (x >>> (32 - n))

/-- The next word of a schedule, from those before it. -/
def expand (w : Array UInt32) : Array UInt32 :=
  let n := w.size
  w.push (rotate (w.getD (n - 3) 0 ^^^ w.getD (n - 8) 0 ^^^ w.getD (n - 14) 0 ^^^ w.getD (n - 16) 0) 1)

/-- The schedule of a block: 80 words, each with the number of its round. -/
def schedule (block : Bytes) : List (UInt32 × Nat) :=
  let words := (Sha2.pieces 4 16 block).map fun b => UInt32.ofNat (Bytes.toNat b)
  ((List.range 64).foldl (fun w _ => expand w) words.toArray).toList.zipIdx

/-- Round `i` with its schedule word. -/
def round (s : State) : UInt32 × Nat → State
  | (w, i) =>
    let (f, k) :=
      if i < 20 then ((s.b &&& s.c) ||| (~~~s.b &&& s.d), (0x5a827999 : UInt32))
      else if i < 40 then (s.b ^^^ s.c ^^^ s.d, 0x6ed9eba1)
      else if i < 60 then ((s.b &&& s.c) ||| (s.b &&& s.d) ||| (s.c &&& s.d), 0x8f1bbcdc)
      else (s.b ^^^ s.c ^^^ s.d, 0xca62c1d6)
    ⟨rotate s.a 5 + f + s.e + k + w, s.a, rotate s.b 30, s.c, s.d⟩

/-- The state after a block. -/
def compress (s : State) (block : Bytes) : State :=
  let t := (schedule block).foldl round s
  ⟨s.a + t.a, s.b + t.b, s.c + t.c, s.d + t.d, s.e + t.e⟩

/-- The SHA-1 digest. -/
def sha1 (message : Bytes) : Bytes :=
  let padded := Sha2.pad 64 8 message
  let s := (Sha2.pieces 64 (padded.length / 64) padded).foldl compress
    ⟨0x67452301, 0xefcdab89, 0x98badcfe, 0x10325476, 0xc3d2e1f0⟩
  [s.a, s.b, s.c, s.d, s.e].flatMap fun w => Bytes.ofNat 4 w.toNat

end SshAuthority.Sha1
