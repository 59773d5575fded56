/-
SshAuthority/Crypto/Rsa.lean

RSA signatures with the padding of PKCS #1 version 1.5.
-/
import SshAuthority.Crypto.Modular
import SshAuthority.Crypto.Hash

namespace SshAuthority.Rsa

/-- What a signature with a modulus of `size` octets is the power of, if the digest
fits. -/
def padded? (hash : Hash) (size : Nat) (message : Bytes) : Option Bytes :=
  let tail := hash.rsaHead ++ hash.digest message
  if size < tail.length + 11 then none
  else some ([0x00, 0x01] ++ List.replicate (size - tail.length - 3) 0xFF ++ [0x00] ++ tail)

/-- The signature of a message with the secret exponent `d`. -/
def sign? (hash : Hash) (n d : Nat) (message : Bytes) : Option Bytes :=
  let size := Bytes.sizeOf n
  (padded? hash size message).map fun b => Bytes.ofNat size (Modular.pow n (Bytes.toNat b) d)

/-- Whether a signature signs a message under the public exponent `e`. -/
def verify (hash : Hash) (n e : Nat) (message signature : Bytes) : Bool :=
  let size := Bytes.sizeOf n
  let s := Bytes.toNat signature
  signature.length = size && s < n &&
    padded? hash size message = some (Bytes.ofNat size (Modular.pow n s e))

/-- Whether modulus and exponent can be those of a public key. -/
def isPublicKey (n e : Int) : Bool := 3 ≤ n && 3 ≤ e && e < n && e % 2 = 1

/-- The numbers of a secret key beside those of the public one. -/
structure Secret where
  d : Nat
  p : Nat
  q : Nat
  /-- The secret exponent modulo `p - 1`. -/
  dp : Nat
  /-- The secret exponent modulo `q - 1`. -/
  dq : Nat
  /-- The inverse of `q` modulo `p`. -/
  qInverse : Nat
  deriving DecidableEq

/-- Whether secret numbers belong together and to a public key. -/
def isSecretKey (n e : Nat) (s : Secret) : Bool :=
  s.d < n && s.p * s.q = n && s.p < n && s.q < n &&
  Modular.isProbablePrime s.p && Modular.isProbablePrime s.q &&
  s.d * e % Nat.lcm (s.p - 1) (s.q - 1) = 1 % Nat.lcm (s.p - 1) (s.q - 1) &&
  s.dp = s.d % (s.p - 1) && s.dq = s.d % (s.q - 1) &&
  s.qInverse < s.p && s.qInverse * s.q % s.p = 1

end SshAuthority.Rsa
