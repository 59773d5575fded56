/-
SshAuthority/Certificate/Fields.lean

The fields of a certificate, in the order in which a packet holds them.

A certificate begins with its type, which fixes the algorithm of the key that it
is for, and ends with a signature over all before. Critical options and
extensions are lists of a name with data, packed into one string. Readers take
the fields as they stand and check no more than that they are complete.
-/
import SshAuthority.Key.Public

namespace SshAuthority

/-- The fields before the signature; `κ` is what stands for the key. -/
structure CertificateFields (κ : Type) where
  type : Bytes
  nonce : Bytes
  subject : κ
  serial : Nat
  kind : Nat
  keyId : Bytes
  principals : Bytes
  validAfter : Nat
  validBefore : Nat
  critical : Bytes
  extensions : Bytes
  reserved : Bytes
  signer : Bytes
  deriving DecidableEq

namespace CertificateFields

/-! ### Reading -/

/-- The algorithm of a certificate type. -/
def subjectAlgorithm (type : Bytes) : Wire.Reader KeyAlgorithm :=
  fun b => (KeyAlgorithm.ofCertificateType? type).map (·, b)

/-- Takes the fields before the signature. -/
def read : Wire.Reader (CertificateFields KeyFields) := do
  let type ← Wire.string
  let algorithm ← subjectAlgorithm type
  let nonce ← Wire.string
  let subject ← KeyFields.read algorithm
  let serial ← Wire.uint64
  let kind ← Wire.uint32
  let keyId ← Wire.string
  let principals ← Wire.string
  let validAfter ← Wire.uint64
  let validBefore ← Wire.uint64
  let critical ← Wire.string
  let extensions ← Wire.string
  let reserved ← Wire.string
  let signer ← Wire.string
  return ⟨type, nonce, subject, serial, kind, keyId, principals, validAfter, validBefore,
    critical, extensions, reserved, signer⟩

/-! ### Writing -/

/-- Whether the lengths of all strings can be written. -/
def fits (f : CertificateFields KeyMaterial) : Bool :=
  ([f.type, f.nonce, f.keyId, f.principals, f.critical, f.extensions, f.reserved, f.signer] ++
    f.subject.strings).all Wire.fits

/-- The fields as a packet holds them. -/
def encode (f : CertificateFields KeyMaterial) : Bytes :=
  Wire.putString f.type ++ Wire.putString f.nonce ++ f.subject.encode ++
    Wire.putUint64 f.serial ++ Wire.putUint32 f.kind ++ Wire.putString f.keyId ++
    Wire.putString f.principals ++ Wire.putUint64 f.validAfter ++
    Wire.putUint64 f.validBefore ++ Wire.putString f.critical ++
    Wire.putString f.extensions ++ Wire.putString f.reserved ++ Wire.putString f.signer

/-- Names with data as one string holds them. -/
def packOptions (options : List (Bytes × Bytes)) : Bytes :=
  options.flatMap fun (name, data) => Wire.putString name ++ Wire.putString data

/-- The number of user certificates among the kinds. -/
def userKind : Nat := 1

/-- The number of host certificates among the kinds. -/
def hostKind : Nat := 2

end CertificateFields

end SshAuthority
