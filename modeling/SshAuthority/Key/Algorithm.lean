/-
SshAuthority/Key/Algorithm.lean

The algorithms of SSH keys and the names they go by.

A key algorithm has one name in keys and one or more names as the type of
certificates for its keys. The security key algorithms need a touch on a device
for every signature, so they can be certified but cannot sign unattended.
-/
import SshAuthority.Crypto.Curve

namespace SshAuthority

/-- A public key algorithm. -/
inductive KeyAlgorithm where
  | ed25519
  | ed448
  | rsa
  | dsa
  | ecdsa (curve : Curve)
  | skEd25519
  | skEcdsa
  deriving DecidableEq

namespace KeyAlgorithm

/-- All algorithms. -/
def all : List KeyAlgorithm :=
  [.ed25519, .ed448, .rsa, .dsa, .ecdsa .nistp256, .ecdsa .nistp384, .ecdsa .nistp521,
    .ecdsa .secp256k1, .skEd25519, .skEcdsa]

/-- The name in keys. -/
def name : KeyAlgorithm → Bytes
  | .ed25519 => "ssh-ed25519"
  | .ed448 => "ssh-ed448"
  | .rsa => "ssh-rsa"
  | .dsa => "ssh-dss"
  | .ecdsa curve => Bytes.ofString "ecdsa-sha2-" ++ curve.name
  | .skEd25519 => "sk-ssh-ed25519@openssh.com"
  | .skEcdsa => "sk-ecdsa-sha2-nistp256@openssh.com"

/-- The name as a text. -/
def text (a : KeyAlgorithm) : Text := Bytes.toLatin a.name

/-- The algorithm with a name in keys. -/
def ofName? (b : Bytes) : Option KeyAlgorithm := all.find? (·.name = b)

/-- What ends the name of every certificate type. -/
def certificateTail : Bytes := "-cert-v01@openssh.com"

/-- The type of new certificates for keys of the algorithm. -/
def certificateType : KeyAlgorithm → Bytes
  | .skEd25519 => Bytes.ofString "sk-ssh-ed25519" ++ certificateTail
  | .skEcdsa => Bytes.ofString "sk-ecdsa-sha2-nistp256" ++ certificateTail
  | a => a.name ++ certificateTail

/-- All types of certificates for keys of the algorithm. -/
def certificateTypes : KeyAlgorithm → List Bytes
  | .rsa =>
    ["rsa-sha2-256", "rsa-sha2-512", "ssh-rsa"].map fun name => Bytes.ofString name ++ certificateTail
  | a => [a.certificateType]

/-- The algorithm of the keys in certificates of a type. -/
def ofCertificateType? (b : Bytes) : Option KeyAlgorithm := all.find? (·.certificateTypes.contains b)

/-- The names that may begin a line with a key or a certificate. -/
def lineNames : List Bytes := all.map name ++ all.flatMap certificateTypes

/-- Whether keys of the algorithm can sign certificates unattended. -/
def canSign : KeyAlgorithm → Bool
  | .ed25519 | .rsa | .ecdsa .nistp256 | .ecdsa .nistp384 | .ecdsa .nistp521 => true
  | _ => false

end KeyAlgorithm

end SshAuthority
