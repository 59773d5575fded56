/-
SshAuthority/Key/OpenSsh.lean

The OpenSSH private key format.

After a magic word stand the cipher, the key derivation and its options, the
number of keys, the public key, and the secret part. The secret part begins with
one number given twice, by which decryption is checked, and ends with padding
1, 2, 3, … up to the cipher's block size of eight. Only plain keys are read;
of an encrypted one the public key can be taken all the same.
-/
import SshAuthority.Key.Private

namespace SshAuthority.OpenSsh

/-- The word that begins every private key file. -/
def magic : Bytes := Bytes.ofString "openssh-key-v1" ++ [0]

/-- The head of a file. -/
structure Head where
  cipher : Bytes
  keyCount : Nat
  publicBlob : Bytes

/-- Takes the head of a file after the magic word. -/
def head : Wire.Reader Head := do
  let cipher ← Wire.string
  let _derivation ← Wire.string
  let _options ← Wire.string
  let keyCount ← Wire.uint32
  let publicBlob ← Wire.string
  return { cipher, keyCount, publicBlob }

/-- Takes the secret fields of a key of the algorithm. A seed is followed by the public
key, which is cut off by its length. -/
def secretFields : KeyAlgorithm → Wire.Reader (Except KeyFault PrivateKey)
  | .ed25519 => do
    let (own, secret) := (← Wire.string, ← Wire.string)
    return PrivateKey.ofSeed25519 (seedOf own secret)
  | .ed448 => do
    let (own, secret) := (← Wire.string, ← Wire.string)
    return PrivateKey.ofSeed448 (seedOf own secret)
  | .rsa => do
    let n ← Wire.mpint
    let e ← Wire.mpint
    let d ← Wire.mpint
    let qInverse ← Wire.mpint
    let p ← Wire.mpint
    let q ← Wire.mpint
    return PrivateKey.ofRsa n e d p q none qInverse
  | .dsa => do
    let p ← Wire.mpint
    let q ← Wire.mpint
    let g ← Wire.mpint
    let y ← Wire.mpint
    let x ← Wire.mpint
    return PrivateKey.ofDsa p q g y x
  | .ecdsa _ => do
    let name ← Wire.string
    let point ← Wire.string
    let secret ← Wire.mpint
    return do PrivateKey.ofCurve (← KeyFields.curve? name) secret (some point)
  | .skEd25519 => do
    let fields := KeyFields.skEd25519 (← Wire.string) (← Wire.string)
    device
    return do return PrivateKey.ofDevice (← fields.material?)
  | .skEcdsa => do
    let fields := KeyFields.skEcdsa (← Wire.string) (← Wire.string) (← Wire.string)
    device
    return do return PrivateKey.ofDevice (← fields.material?)
where
  /-- The seed before the public key. -/
  seedOf (own secret : Bytes) : Bytes :=
    if own.isEmpty then [] else secret.take (secret.length - own.length)
  /-- Takes what a device needs to find its secret. -/
  device : Wire.Reader Unit := do
    let _flags ← Wire.byte
    let _handle ← Wire.string
    let _reserved ← Wire.string

/-- Whether the octets are the padding 1, 2, 3, … below the block size. -/
def isPadding (b : Bytes) : Bool :=
  b.length < 8 && b = (List.range b.length).map fun i => UInt8.ofNat (i + 1)

/-- Takes a key, its comment and the padding from the secret part. -/
def secretPart (b : Bytes) : Except KeyFault PrivateKey :=
  let parts : Option (Except KeyFault PrivateKey × Bytes × Bytes) := do
    let (first, b) ← Wire.uint32 b
    let (second, b) ← Wire.uint32 b
    if first ≠ second then none
    else
      let (name, b) ← Wire.string b
      let algorithm ← KeyAlgorithm.ofName? name
      let (key, b) ← secretFields algorithm b
      let (comment, padding) ← Wire.string b
      some (key, comment, padding)
  match parts with
  | none => .error .invalid
  | some (key, comment, padding) =>
    if isPadding padding then
      key.map fun k => { k with publicPart := { k.publicPart with comment := some comment } }
    else .error .invalid

/-- The private key of a file. -/
def privateKey (b : Bytes) : Except KeyFault PrivateKey :=
  let parts : Option (Head × Bytes) := do
    let rest ← Bytes.after? magic b
    let (h, rest) ← head rest
    let (secret, _) ← Wire.string rest
    some (h, secret)
  match parts with
  | none => .error .invalid
  | some (h, secret) =>
    if h.keyCount ≠ 1 || h.cipher ≠ Bytes.ofString "none" then .error .invalid
    else secretPart secret

/-- The public key in the head of a file. -/
def publicKey (b : Bytes) : Except KeyFault PublicKey :=
  match (Bytes.after? magic b).bind fun rest => head rest with
  | none => .error .invalid
  | some (h, _) => if h.keyCount ≠ 1 then .error .invalid else PublicKey.ofBlob h.publicBlob

end SshAuthority.OpenSsh
