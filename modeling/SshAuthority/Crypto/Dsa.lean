/-
SshAuthority/Crypto/Dsa.lean

DSA signatures, which are only ever checked here, never made.
-/
import SshAuthority.Crypto.Modular
import SshAuthority.Crypto.Hash

namespace SshAuthority.Dsa

/-- The numbers of a public key. -/
structure Public where
  p : Nat
  q : Nat
  g : Nat
  y : Nat
  deriving DecidableEq

/-- How many bits a number has. -/
def bits (n : Nat) : Nat := if n = 0 then 0 else n.log2 + 1

/-- Whether the numbers can be those of a public key. -/
def isPublicKey (k : Public) : Bool :=
  [1024, 2048, 3072, 4096].contains (bits k.p) && [160, 224, 256].contains (bits k.q) &&
  1 < k.g && k.g < k.p

/-- Whether a secret number belongs to a public key. -/
def isSecretKey (k : Public) (x : Nat) : Bool :=
  0 < x && x < k.q && Modular.pow k.p k.g x = k.y

/-- Whether two numbers sign a message under a public key. -/
def verify (k : Public) (message : Bytes) (r s : Nat) : Bool :=
  if r = 0 || s = 0 || k.q ≤ r || k.q ≤ s then false
  else
    let h := Bytes.toNat (Sha1.sha1 message)
    let w := Modular.inverse k.q s
    let u := h * w % k.q
    let v := r * w % k.q
    Modular.pow k.p k.g u * Modular.pow k.p k.y v % k.p % k.q = r

end SshAuthority.Dsa
