/-
SshAuthority/Crypto/Ecdsa.lean

ECDSA signatures.

A signature is made with a number that is drawn for it alone. The number is given, so
that signing is a function of it, the secret number and the message.
-/
import SshAuthority.Crypto.Curve

namespace SshAuthority.Ecdsa

/-- The leading bits of the digest, as many as the order of the curve has. -/
def hashedNumber (c : Curve) (message : Bytes) : Nat :=
  let digest := c.hash.digest message
  let bits := c.domain.n.log2 + 1
  Bytes.toNat digest / 2 ^ (8 * digest.length - bits)

/-- The signature of a message with a one-time number: two numbers. -/
def sign (c : Curve) (secret oneTime : Nat) (message : Bytes) : Nat × Nat :=
  let d := c.domain
  let r := match Curve.affine? d (Curve.multiple d oneTime (Curve.generator d)) with
    | some (x, _) => x % d.n
    | none => 0
  let s := Modular.inverse d.n oneTime * ((hashedNumber c message + r * secret) % d.n) % d.n
  (r, s)

/-- Whether two numbers sign a message under an encoded point. -/
def verify (c : Curve) (point message : Bytes) (r s : Nat) : Bool :=
  let d := c.domain
  match c.decodePoint? point with
  | none => false
  | some (x, y) =>
    if r = 0 || s = 0 || d.n ≤ r || d.n ≤ s then false
    else
      let w := Modular.inverse d.n s
      let u := hashedNumber c message * w % d.n
      let v := r * w % d.n
      let sum := Curve.add d (Curve.multiple d u (Curve.generator d)) (Curve.multiple d v ⟨x, y, 1⟩)
      match Curve.affine? d sum with
      | some (x, _) => x % d.n = r
      | none => false

end SshAuthority.Ecdsa
