/-
SshAuthority/Crypto/Curve.lean

The elliptic curves of ECDSA keys, in short Weierstrass form.

Scalar multiples are computed in Jacobian coordinates, in which `(x, y, z)` is
the point `(x / z², y / z³)` and `z = 0` the neutral element, so that one field
inversion at the end suffices. An encoded point is 04 with both coordinates, or
02 or 03, for an even or odd `y`, with the first one alone.
-/
import SshAuthority.Crypto.Modular
import SshAuthority.Crypto.Hash

namespace SshAuthority

/-- A supported curve. -/
inductive Curve where
  | nistp256
  | nistp384
  | nistp521
  | secp256k1
  deriving DecidableEq

namespace Curve

/-- The numbers that define a curve: `y² = x³ + a·x + b` modulo `p`, and a generator
of prime order `n`. -/
structure Domain where
  p : Nat
  a : Nat
  b : Nat
  gx : Nat
  gy : Nat
  n : Nat

/-- The numbers of each curve. -/
def domain : Curve → Domain
  | .nistp256 =>
    { p := 0xffffffff00000001000000000000000000000000ffffffffffffffffffffffff
      a := 0xffffffff00000001000000000000000000000000fffffffffffffffffffffffc
      b := 0x5ac635d8aa3a93e7b3ebbd55769886bc651d06b0cc53b0f63bce3c3e27d2604b
      gx := 0x6b17d1f2e12c4247f8bce6e563a440f277037d812deb33a0f4a13945d898c296
      gy := 0x4fe342e2fe1a7f9b8ee7eb4a7c0f9e162bce33576b315ececbb6406837bf51f5
      n := 0xffffffff00000000ffffffffffffffffbce6faada7179e84f3b9cac2fc632551 }
  | .nistp384 =>
    { p := 2 ^ 384 - 2 ^ 128 - 2 ^ 96 + 2 ^ 32 - 1
      a := 2 ^ 384 - 2 ^ 128 - 2 ^ 96 + 2 ^ 32 - 4
      b := 0xb3312fa7e23ee7e4988e056be3f82d19181d9c6efe8141120314088f5013875ac656398d8a2ed19d2a85c8edd3ec2aef
      gx := 0xaa87ca22be8b05378eb1c71ef320ad746e1d3b628ba79b9859f741e082542a385502f25dbf55296c3a545e3872760ab7
      gy := 0x3617de4a96262c6f5d9e98bf9292dc29f8f41dbd289a147ce9da3113b5f0b8c00a60b1ce1d7e819d7a431d7c90ea0e5f
      n := 0xffffffffffffffffffffffffffffffffffffffffffffffffc7634d81f4372ddf581a0db248b0a77aecec196accc52973 }
  | .nistp521 =>
    { p := 2 ^ 521 - 1
      a := 2 ^ 521 - 4
      b := 0x0051953eb9618e1c9a1f929a21a0b68540eea2da725b99b315f3b8b489918ef109e156193951ec7e937b1652c0bd3bb1bf073573df883d2c34f1ef451fd46b503f00
      gx := 0xc6858e06b70404e9cd9e3ecb662395b4429c648139053fb521f828af606b4d3dbaa14b5e77efe75928fe1dc127a2ffa8de3348b3c1856a429bf97e7e31c2e5bd66
      gy := 0x11839296a789a3bc0045c8a5fb42c7d1bd998f54449579b446817afbd17273e662c97ee72995ef42640c550b9013fad0761353c7086a272c24088be94769fd16650
      n := 0x1fffffffffffffffffffffffffffffffffffffffffffffffffffffffffffffffffa51868783bf2f966b7fcc0148f709a5d03bb5c9b8899c47aebb6fb71e91386409 }
  | .secp256k1 =>
    { p := 2 ^ 256 - 2 ^ 32 - 977
      a := 0
      b := 7
      gx := 0x79be667ef9dcbbac55a06295ce870b07029bfcdb2dce28d959f2815b16f81798
      gy := 0x483ada7726a3c4655da4fbfc0e1108a8fd17b448a68554199c47d08ffb10d4b8
      n := 0xfffffffffffffffffffffffffffffffebaaedce6af48a03bbfd25e8cd0364141 }

/-- The name of the curve in keys: its common name, or its object identifier. -/
def name : Curve → Bytes
  | .nistp256 => "nistp256"
  | .nistp384 => "nistp384"
  | .nistp521 => "nistp521"
  | .secp256k1 => "1.3.132.0.10"

/-- All curves. -/
def all : List Curve := [.nistp256, .nistp384, .nistp521, .secp256k1]

/-- The curve with a name. -/
def ofName? (b : Bytes) : Option Curve := all.find? (·.name = b)

/-- The hash function of signatures on the curve. -/
def hash : Curve → Hash
  | .nistp256 => .sha256
  | .nistp384 => .sha384
  | .nistp521 => .sha512
  | .secp256k1 => .sha256

/-- How many octets a coordinate takes. -/
def size (c : Curve) : Nat := Bytes.sizeOf c.domain.p

/-! ### Points -/

/-- A point in Jacobian coordinates. -/
structure Point where
  x : Nat
  y : Nat
  z : Nat

/-- The neutral element. -/
def Point.zero : Point := ⟨1, 1, 0⟩

/-- The sum of a point with itself. -/
def double (c : Domain) (q : Point) : Point :=
  if q.z = 0 || q.y = 0 then .zero
  else
    let p := c.p
    let yy := q.y * q.y % p
    let s := 4 * q.x * yy % p
    let zz := q.z * q.z % p
    let m := (3 * q.x * q.x + c.a * (zz * zz % p)) % p
    let x := Modular.sub p (m * m) (2 * s)
    let y := Modular.sub p (m * Modular.sub p s x) (8 * yy * yy)
    ⟨x, y, 2 * q.y * q.z % p⟩

/-- The sum of two points. -/
def add (c : Domain) (q r : Point) : Point :=
  if q.z = 0 then r
  else if r.z = 0 then q
  else
    let p := c.p
    let zq := q.z * q.z % p
    let zr := r.z * r.z % p
    let uq := q.x * zr % p
    let ur := r.x * zq % p
    let sq := q.y * zr % p * r.z % p
    let sr := r.y * zq % p * q.z % p
    if uq = ur then
      if sq = sr then double c q else .zero
    else
      let h := Modular.sub p ur uq
      let s := Modular.sub p sr sq
      let hh := h * h % p
      let hhh := hh * h % p
      let v := uq * hh % p
      let x := Modular.sub p (s * s) (hhh + 2 * v)
      let y := Modular.sub p (s * Modular.sub p v x) (sq * hhh)
      ⟨x, y, h * q.z % p * r.z % p⟩

/-- The multiple of a point by a number. -/
def multiple (c : Domain) (k : Nat) (q : Point) : Point :=
  if k = 0 then .zero
  else
    let half := double c (multiple c (k / 2) q)
    if k % 2 = 1 then add c half q else half
termination_by k
decreasing_by omega

/-- The affine coordinates of a point other than the neutral element. -/
def affine? (c : Domain) (q : Point) : Option (Nat × Nat) :=
  if q.z = 0 then none
  else
    let i := Modular.inverse c.p q.z
    let ii := i * i % c.p
    some (q.x * ii % c.p, q.y * ii % c.p * i % c.p)

/-- The generator. -/
def generator (c : Domain) : Point := ⟨c.gx, c.gy, 1⟩

/-- The right side of the equation of the curve at `x`. -/
def rightSide (c : Domain) (x : Nat) : Nat := (x * x % c.p * x + c.a * x + c.b) % c.p

/-- The point an octet string encodes, if it is one of the curve. -/
def decodePoint? (c : Curve) : Bytes → Option (Nat × Nat)
  | [] => none
  | tag :: body =>
    let d := c.domain
    if tag = 0x04 then
      let x := Bytes.toNat (body.take c.size)
      let y := Bytes.toNat (body.drop c.size)
      if body.length = 2 * c.size && x < d.p && y < d.p && y * y % d.p = rightSide d x then some (x, y)
      else none
    else if tag = 0x02 || tag = 0x03 then
      let x := Bytes.toNat body
      if body.length = c.size && x < d.p then
        (Modular.sqrt? d.p (rightSide d x)).map fun root =>
          (x, if root % 2 = tag.toNat - 2 then root else (d.p - root) % d.p)
      else none
    else none

/-- The encoding of a point with both coordinates. -/
def encodePoint (c : Curve) (x y : Nat) : Bytes :=
  0x04 :: (Bytes.ofNat c.size x ++ Bytes.ofNat c.size y)

/-- The encoded point that belongs to a secret number. -/
def publicPoint? (c : Curve) (secret : Nat) : Option Bytes :=
  (affine? c.domain (multiple c.domain secret (generator c.domain))).map fun (x, y) => c.encodePoint x y

end Curve

end SshAuthority
