/-
SshAuthority/Key/Public.lean

Public keys, their wire encoding, and the signatures they verify.

In a packet a key is its algorithm's name and then its fields. Fields come to a
key in two steps. They are first taken from the packet as they stand
(`KeyFields`), which fails only where octets are missing; then they are checked
(`KeyFields.material?`): the numbers must suit the algorithm and a point must lie
on its curve. The material of a `PublicKey` is of the kind that its algorithm names;
for a key on a curve the name and the material each say which curve it is, and the
two may differ.
-/
import SshAuthority.Key.Algorithm
import SshAuthority.Encoding.Wire
import SshAuthority.Outcome
import SshAuthority.Text.Utf8
import SshAuthority.Crypto.Edwards
import SshAuthority.Crypto.Ecdsa
import SshAuthority.Crypto.Rsa
import SshAuthority.Crypto.Dsa

namespace SshAuthority

/-- Why something is no key. -/
inductive KeyFault where
  /-- It is not of a known form. -/
  | invalid
  /-- It is of a known form, but no key has such numbers. -/
  | badNumbers
  /-- A name in it is no text. -/
  | badName
  deriving DecidableEq

/-- The fields of a public key as they stand in a packet. -/
inductive KeyFields where
  | ed25519 (point : Bytes)
  | ed448 (point : Bytes)
  | rsa (e n : Int)
  | dsa (p q g y : Int)
  | ecdsa (curve point : Bytes)
  | skEd25519 (point application : Bytes)
  | skEcdsa (curve point application : Bytes)
  deriving DecidableEq

/-- The numbers and points of a public key. -/
inductive KeyMaterial where
  | ed25519 (point : Bytes)
  | ed448 (point : Bytes)
  | rsa (e n : Nat)
  | dsa (key : Dsa.Public)
  | ecdsa (curve : Curve) (point : Bytes)
  | skEd25519 (point application : Bytes)
  | skEcdsa (curve : Curve) (point application : Bytes)
  deriving DecidableEq

namespace KeyFields

/-- Takes the fields of a key of the algorithm. -/
def read : KeyAlgorithm → Wire.Reader KeyFields
  | .ed25519 => return .ed25519 (← Wire.string)
  | .ed448 => return .ed448 (← Wire.string)
  | .rsa => return .rsa (← Wire.mpint) (← Wire.mpint)
  | .dsa => return .dsa (← Wire.mpint) (← Wire.mpint) (← Wire.mpint) (← Wire.mpint)
  | .ecdsa _ => return .ecdsa (← Wire.string) (← Wire.string)
  | .skEd25519 => return .skEd25519 (← Wire.string) (← Wire.string)
  | .skEcdsa => return .skEcdsa (← Wire.string) (← Wire.string) (← Wire.string)

/-- The curve of a name. -/
def curve? (name : Bytes) : Except KeyFault Curve :=
  match Curve.ofName? name with
  | some c => .ok c
  | none => .error (if (Utf8.decode? name).isSome then .badNumbers else .badName)

/-- The curve of a name, if the point lies on it. -/
def curveOf? (name point : Bytes) : Except KeyFault Curve := do
  let c ← curve? name
  if (c.decodePoint? point).isSome then .ok c else .error .badNumbers

/-- The DSA key of four numbers. -/
def dsaKey? (p q g y : Int) : Except KeyFault Dsa.Public :=
  let key : Dsa.Public := ⟨p.toNat, q.toNat, g.toNat, y.toNat⟩
  if 0 ≤ p && 0 ≤ q && 0 ≤ g && 0 ≤ y && Dsa.isPublicKey key then .ok key else .error .badNumbers

/-- The key material, if the fields pass the checks of the algorithm. -/
def material? : KeyFields → Except KeyFault KeyMaterial
  | .ed25519 point => if point.length = 32 then .ok (.ed25519 point) else .error .invalid
  | .ed448 point => if point.length = 57 then .ok (.ed448 point) else .error .invalid
  | .rsa e n => if Rsa.isPublicKey n e then .ok (.rsa e.toNat n.toNat) else .error .badNumbers
  | .dsa p q g y => return .dsa (← dsaKey? p q g y)
  | .ecdsa name point => return .ecdsa (← curveOf? name point) point
  | .skEd25519 point application =>
    if point.length = 32 then .ok (.skEd25519 point application) else .error .badNumbers
  | .skEcdsa name point application => return .skEcdsa (← curveOf? name point) point application

/-- Whether keys of the algorithm have fields of this kind. -/
def suits : KeyFields → KeyAlgorithm → Bool
  | .ed25519 _, .ed25519 | .ed448 _, .ed448 | .rsa _ _, .rsa | .dsa _ _ _ _, .dsa
  | .ecdsa _ _, .ecdsa _ | .skEd25519 _ _, .skEd25519 | .skEcdsa _ _ _, .skEcdsa => true
  | _, _ => false

end KeyFields

namespace KeyMaterial

/-- The algorithm of the key. -/
def algorithm : KeyMaterial → KeyAlgorithm
  | .ed25519 _ => .ed25519
  | .ed448 _ => .ed448
  | .rsa _ _ => .rsa
  | .dsa _ => .dsa
  | .ecdsa curve _ => .ecdsa curve
  | .skEd25519 _ _ => .skEd25519
  | .skEcdsa _ _ _ => .skEcdsa

/-- Whether keys of the algorithm have material of this kind. -/
def suits : KeyMaterial → KeyAlgorithm → Bool
  | .ed25519 _, .ed25519 | .ed448 _, .ed448 | .rsa _ _, .rsa | .dsa _, .dsa | .ecdsa _ _, .ecdsa _
  | .skEd25519 _ _, .skEd25519 | .skEcdsa _ _ _, .skEcdsa => true
  | _, _ => false

/-- Material suits its own algorithm. -/
@[simp]
theorem suits_algorithm (m : KeyMaterial) : m.suits m.algorithm = true := by
  cases m <;> rfl

/-- The strings that the fields of the key are; a number is one, too. -/
def strings : KeyMaterial → List Bytes
  | .ed25519 point => [point]
  | .ed448 point => [point]
  | .rsa e n => [Wire.signedOctets e, Wire.signedOctets n]
  | .dsa k => [Wire.signedOctets k.p, Wire.signedOctets k.q, Wire.signedOctets k.g,
      Wire.signedOctets k.y]
  | .ecdsa curve point => [curve.name, point]
  | .skEd25519 point application => [point, application]
  | .skEcdsa curve point application => [curve.name, point, application]

/-- The fields of the key as they stand in a packet. -/
def encode (m : KeyMaterial) : Bytes := m.strings.flatMap Wire.putString

/-- The name of the key where nothing but its fields is known. For a security key it is put
together from the name of the curve, so it need not be that of an algorithm. -/
def name : KeyMaterial → Bytes
  | .skEcdsa curve _ _ => Bytes.ofString "sk-ecdsa-sha2-" ++ curve.name ++ "@openssh.com"
  | m => m.algorithm.name

/-- The wire encoding of the key under that name. -/
def blob (m : KeyMaterial) : Bytes := Wire.putString m.name ++ m.encode

end KeyMaterial

namespace KeyFields

/-- What is read for an algorithm suits it. -/
theorem suits_of_read {a : KeyAlgorithm} {b rest : Bytes} {f : KeyFields}
    (h : read a b = some (f, rest)) : f.suits a = true := by
  cases a <;>
    simp only [read, Wire.bind_eq_some_iff, Wire.pure_apply, Option.some.injEq,
      Prod.mk.injEq] at h <;> grind [suits]

/-- What fills the octets for an algorithm suits it. -/
theorem suits_of_whole? {a : KeyAlgorithm} {b : Bytes} {f : KeyFields}
    (h : Wire.whole? (read a) b = some f) : f.suits a = true := by
  unfold Wire.whole? at h
  split at h
  · next hr =>
    cases h
    exact suits_of_read hr
  · cases h

/-- Checked fields stay of their kind. -/
theorem suits_material? {f : KeyFields} {m : KeyMaterial} (h : f.material? = .ok m)
    (a : KeyAlgorithm) : m.suits a = f.suits a := by
  cases a <;> cases f <;>
    simp only [material?, Except.bind_eq_ok_iff, Except.pure_eq_ok_iff] at h <;>
    grind [KeyFields.suits, KeyMaterial.suits]

end KeyFields

namespace KeyMaterial

/-! ### Signatures -/

/-- The hash functions of RSA signatures, by the names of the signature schemes. -/
def rsaHash? (scheme : Bytes) : Option Hash :=
  ([("ssh-rsa", .sha1), ("rsa-sha2-256", .sha256), ("rsa-sha2-512", .sha512),
    ("ssh-rsa-sha224@ssh.com", .sha224), ("ssh-rsa-sha256@ssh.com", .sha256),
    ("ssh-rsa-sha384@ssh.com", .sha384), ("ssh-rsa-sha512@ssh.com", .sha512),
    ("rsa2048-sha256", .sha256), ("rsa1024-sha1", .sha1)] : List (String × Hash)).findSome?
    fun (name, hash) => if Bytes.ofString name = scheme then some hash else none

/-- Two numbers that fill a string. -/
def pair? (b : Bytes) : Option (Nat × Nat) := do
  let (r, s) ← Wire.whole? (do return (← Wire.mpint, ← Wire.mpint)) b
  if 0 ≤ r && 0 ≤ s then some (r.toNat, s.toNat) else none

/-- What a security key signs: the hashed application and message around the flags
and the counter of the device. -/
def deviceMessage (application message : Bytes) (flags counter : Nat) : Bytes :=
  Sha2.sha256 application ++ Bytes.ofNat 1 flags ++ Wire.putUint32 counter ++ Sha2.sha256 message

/-- Whether the body of a signature by the named scheme signs the message. -/
def verifyBody (key : KeyMaterial) (scheme message body : Bytes) : Bool :=
  match key with
  | .ed25519 point =>
    match Wire.whole? Wire.string body with
    | some s => scheme = KeyAlgorithm.ed25519.name && Edwards.verify Edwards.ed25519 point message s
    | none => false
  | .ed448 point =>
    match Wire.whole? Wire.string body with
    | some s => scheme = KeyAlgorithm.ed448.name && Edwards.verify Edwards.ed448 point message s
    | none => false
  | .rsa e n =>
    match rsaHash? scheme, Wire.whole? Wire.string body with
    | some hash, some s => Rsa.verify hash n e message s
    | _, _ => false
  | .dsa k =>
    match Wire.whole? Wire.string body with
    | some s => scheme = KeyAlgorithm.dsa.name && s.length = 40 &&
        Dsa.verify k message (Bytes.toNat (s.take 20)) (Bytes.toNat (s.drop 20))
    | none => false
  | .ecdsa curve point =>
    match (Wire.whole? Wire.string body).bind pair? with
    | some (r, s) => scheme = (KeyAlgorithm.ecdsa curve).name && Ecdsa.verify curve point message r s
    | none => false
  | .skEd25519 point application =>
    match Wire.whole? (do return (← Wire.string, ← Wire.byte, ← Wire.uint32)) body with
    | some (s, flags, counter) => scheme = KeyAlgorithm.skEd25519.name &&
        Edwards.verify Edwards.ed25519 point (deviceMessage application message flags counter) s
    | none => false
  | .skEcdsa curve point application =>
    match Wire.whole? (do return (← Wire.string, ← Wire.byte, ← Wire.uint32)) body with
    | some (b, flags, counter) =>
      match pair? b with
      | some (r, s) => scheme = KeyAlgorithm.skEcdsa.name &&
          Ecdsa.verify curve point (deviceMessage application message flags counter) r s
      | none => false
    | none => false

/-- Whether a signature, its scheme's name and then its body, signs the message. -/
def verify (key : KeyMaterial) (message signature : Bytes) : Bool :=
  match Wire.string signature with
  | some (scheme, body) => key.verifyBody scheme message body
  | none => false

end KeyMaterial

/-- A public key: its algorithm as it was named, its material, and a comment. -/
structure PublicKey where
  algorithm : KeyAlgorithm
  material : KeyMaterial
  comment : Option Bytes
  /-- The material is of the kind that the algorithm names. -/
  suits : material.suits algorithm = true
  deriving DecidableEq

namespace PublicKey

/-- The wire encoding: the algorithm's name and the fields. -/
def blob (k : PublicKey) : Bytes := Wire.putString k.algorithm.name ++ k.material.encode

/-- The key with the material's own algorithm and no comment. -/
def ofMaterial (m : KeyMaterial) : PublicKey := ⟨m.algorithm, m, none, m.suits_algorithm⟩

/-- The key of an algorithm with the given fields. -/
def ofFields (algorithm : KeyAlgorithm) (fields : KeyFields) (suits : fields.suits algorithm = true) :
    Except KeyFault PublicKey :=
  match h : fields.material? with
  | .error fault => .error fault
  | .ok material => .ok ⟨algorithm, material, none, (KeyFields.suits_material? h algorithm).trans suits⟩

/-- Reads a wire encoding. -/
def ofBlob (b : Bytes) : Except KeyFault PublicKey :=
  match Wire.string b with
  | none => .error .invalid
  | some (name, rest) =>
    match KeyAlgorithm.ofName? name with
    | none => .error .invalid
    | some algorithm =>
      match h : Wire.whole? (KeyFields.read algorithm) rest with
      | none => .error .invalid
      | some fields => ofFields algorithm fields (KeyFields.suits_of_whole? h)

end PublicKey

end SshAuthority
