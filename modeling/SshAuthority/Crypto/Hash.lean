/-
SshAuthority/Crypto/Hash.lean

The hash functions a signature may name.
-/
import SshAuthority.Crypto.Sha1

namespace SshAuthority

/-- A hash function of a signature scheme. -/
inductive Hash where
  | sha1
  | sha224
  | sha256
  | sha384
  | sha512
  deriving DecidableEq

namespace Hash

/-- The digest of a message. -/
def digest : Hash → Bytes → Bytes
  | .sha1 => Sha1.sha1
  | .sha224 => Sha2.sha224
  | .sha256 => Sha2.sha256
  | .sha384 => Sha2.sha384
  | .sha512 => Sha2.sha512

/-- The DER head that stands before the digest in an RSA signature. -/
def rsaHead : Hash → Bytes
  | .sha1 => [0x30, 0x21, 0x30, 0x09, 0x06, 0x05, 0x2B, 0x0E, 0x03, 0x02, 0x1A, 0x05, 0x00, 0x04, 0x14]
  | .sha224 => [0x30, 0x2D, 0x30, 0x0D, 0x06, 0x09, 0x60, 0x86, 0x48, 0x01, 0x65, 0x03, 0x04, 0x02,
      0x04, 0x05, 0x00, 0x04, 0x1C]
  | .sha256 => [0x30, 0x31, 0x30, 0x0D, 0x06, 0x09, 0x60, 0x86, 0x48, 0x01, 0x65, 0x03, 0x04, 0x02,
      0x01, 0x05, 0x00, 0x04, 0x20]
  | .sha384 => [0x30, 0x41, 0x30, 0x0D, 0x06, 0x09, 0x60, 0x86, 0x48, 0x01, 0x65, 0x03, 0x04, 0x02,
      0x02, 0x05, 0x00, 0x04, 0x30]
  | .sha512 => [0x30, 0x51, 0x30, 0x0D, 0x06, 0x09, 0x60, 0x86, 0x48, 0x01, 0x65, 0x03, 0x04, 0x02,
      0x03, 0x05, 0x00, 0x04, 0x40]

end Hash

end SshAuthority
