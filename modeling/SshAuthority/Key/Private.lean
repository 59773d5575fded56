/-
SshAuthority/Key/Private.lean

Private keys, and the signatures they make.

A private key is a public key with the secret that belongs to it. A seed or a
secret number is turned into the public part here; where a file gives both, they
are checked against each other.
-/
import SshAuthority.Key.Public

namespace SshAuthority

/-- The secret of a private key. -/
inductive KeySecret where
  | seed (octets : Bytes)
  | rsa (numbers : Rsa.Secret)
  | number (value : Nat)
  /-- The secret stays on a device. -/
  | device
  deriving DecidableEq

/-- A private key. -/
structure PrivateKey where
  publicPart : PublicKey
  secret : KeySecret
  deriving DecidableEq

namespace PrivateKey

/-- The Ed25519 key of a seed. -/
def ofSeed25519 (seed : Bytes) : Except KeyFault PrivateKey :=
  if seed.length = 32 then
    .ok ⟨.ofMaterial (.ed25519 (Edwards.publicKey Edwards.ed25519 seed)), .seed seed⟩
  else .error .invalid

/-- The Ed448 key of a seed. -/
def ofSeed448 (seed : Bytes) : Except KeyFault PrivateKey :=
  if seed.length = 57 then
    .ok ⟨.ofMaterial (.ed448 (Edwards.publicKey Edwards.ed448 seed)), .seed seed⟩
  else .error .invalid

/-- The RSA key of its numbers. The exponents modulo `p - 1` and `q - 1` follow from
the others where they are not given. -/
def ofRsa (n e d p q : Int) (exponents : Option (Int × Int)) (qInverse : Int) :
    Except KeyFault PrivateKey :=
  let given := match exponents with
    | some (dp, dq) => [dp, dq]
    | none => []
  if Rsa.isPublicKey n e && ([d, p, q, qInverse] ++ given).all (0 ≤ ·) then
    let secret : Rsa.Secret :=
      { d := d.toNat, p := p.toNat, q := q.toNat
        dp := match exponents with
          | some (dp, _) => dp.toNat
          | none => d.toNat % (p.toNat - 1)
        dq := match exponents with
          | some (_, dq) => dq.toNat
          | none => d.toNat % (q.toNat - 1)
        qInverse := qInverse.toNat }
    if Rsa.isSecretKey n.toNat e.toNat secret then
      .ok ⟨.ofMaterial (.rsa e.toNat n.toNat), .rsa secret⟩
    else .error .badNumbers
  else .error .badNumbers

/-- The DSA key of its numbers. -/
def ofDsa (p q g y x : Int) : Except KeyFault PrivateKey := do
  let key ← KeyFields.dsaKey? p q g y
  if 0 ≤ x && Dsa.isSecretKey key x.toNat then .ok ⟨.ofMaterial (.dsa key), .number x.toNat⟩
  else .error .badNumbers

/-- The ECDSA key of its secret number, with the public point if it is given. -/
def ofCurve (curve : Curve) (secret : Int) (point : Option Bytes) : Except KeyFault PrivateKey :=
  if secret ≤ 0 || (curve.domain.n : Int) ≤ secret then .error .badNumbers
  else match curve.publicPoint? secret.toNat with
    | none => .error .badNumbers
    | some own =>
      let point := point.getD own
      if (curve.decodePoint? point).isSome && curve.decodePoint? point = curve.decodePoint? own then
        .ok ⟨.ofMaterial (.ecdsa curve point), .number secret.toNat⟩
      else .error .badNumbers

/-- A key whose secret stays on a device. -/
def ofDevice (m : KeyMaterial) : PrivateKey := ⟨.ofMaterial m, .device⟩

/-- The algorithm of the key. -/
def algorithm (k : PrivateKey) : KeyAlgorithm := k.publicPart.algorithm

/-- The wire encoding of the public part. -/
def blob (k : PrivateKey) : Bytes := k.publicPart.blob

/-- The signature of a message: the scheme's name and the body. The one-time number counts
for ECDSA only. Fails if the key is too small for the hash, or does not sign unattended. -/
def sign? (k : PrivateKey) (oneTime : Nat) (message : Bytes) : Option Bytes :=
  match k.publicPart.material, k.secret with
  | .ed25519 _, .seed seed =>
    some (Wire.putString KeyAlgorithm.ed25519.name ++
      Wire.putString (Edwards.sign Edwards.ed25519 seed message))
  | .ed448 _, .seed seed =>
    some (Wire.putString KeyAlgorithm.ed448.name ++
      Wire.putString (Edwards.sign Edwards.ed448 seed message))
  | .rsa _ n, .rsa secret =>
    (Rsa.sign? .sha256 n secret.d message).map fun s =>
      Wire.putString "rsa-sha2-256" ++ Wire.putString s
  | .ecdsa curve _, .number secret =>
    let (r, s) := Ecdsa.sign curve secret oneTime message
    some (Wire.putString (KeyAlgorithm.ecdsa curve).name ++
      Wire.putString (Wire.putMpint r ++ Wire.putMpint s))
  | _, _ => none

end PrivateKey

end SshAuthority
