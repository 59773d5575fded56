/-
SshAuthority/Certificate/Issue.lean

Issuing user certificates.

A certificate is drafted, signed with the private key of the host's group, and
then read again from its text and checked, so that nothing leaves that does not
say what it should. It allows a terminal and nothing else, and forces one command.
-/
import SshAuthority.Certificate.Basic
import SshAuthority.Config.HostGroup
import SshAuthority.Token.Claims

namespace SshAuthority

/-- What a user certificate is to say. -/
structure Draft where
  subject : PublicKey
  nonce : Bytes
  serial : Int
  keyId : Text
  validAfter : Int
  validBefore : Int
  command : Text

namespace Draft

/-- A number in a field of eight octets. -/
def uint64? (n : Int) : Except Defect Nat :=
  if 0 ≤ n && n < 2 ^ 64 then .ok n.toNat else .error .outOfRange

/-- A text in a field of octets. -/
def octets? (t : Text) : Except Defect Bytes :=
  match Utf8.encode? t with
  | some b => .ok b
  | none => .error .unencodable

/-- The fields of the certificate that the signing key is to sign. -/
def fields (d : Draft) (signer : PublicKey) : Except Defect (CertificateFields KeyMaterial) := do
  let command ← octets? d.command
  let serial ← uint64? d.serial
  let keyId ← octets? d.keyId
  let validAfter ← uint64? d.validAfter
  let validBefore ← uint64? d.validBefore
  return {
    type := d.subject.algorithm.certificateType
    nonce := d.nonce
    subject := d.subject.material
    serial
    kind := CertificateFields.userKind
    keyId
    principals := []
    validAfter
    validBefore
    critical := CertificateFields.packOptions
      [(Certificate.forceCommandName, Wire.putString command)]
    extensions := CertificateFields.packOptions [("permit-pty", [])]
    reserved := []
    signer := signer.blob }

end Draft

/-- A certificate that was signed. -/
structure SignedCertificate where
  type : Bytes
  /-- All before the signature. -/
  body : Bytes
  signature : Bytes
  deriving DecidableEq

namespace SignedCertificate

/-- The packet. -/
def blob (c : SignedCertificate) : Bytes := c.body ++ Wire.putString c.signature

/-- The text, on one line. -/
def text (c : SignedCertificate) : Text :=
  Bytes.toLatin (c.type ++ [0x20] ++ Base64.encode c.blob)

end SignedCertificate

/-- The certificate of fields, signed with a private key and a one-time number. A string that
is too long for its length to be written is out of range. -/
def CertificateFields.sign (fields : CertificateFields KeyMaterial) (key : PrivateKey)
    (oneTime : Nat) : Except Defect SignedCertificate :=
  if fields.fits then
    match key.sign? oneTime fields.encode with
    | some signature =>
      if Wire.fits signature then .ok ⟨fields.type, fields.encode, signature⟩
      else .error .outOfRange
    | none => .error .badValue
  else .error .outOfRange

/-- The certificate of a draft, signed with a private key and a one-time number. -/
def Draft.sign (d : Draft) (key : PrivateKey) (oneTime : Nat) : Except Defect SignedCertificate := do
  (← d.fields key.publicPart).sign key oneTime

/-- An issued certificate. -/
structure IssuedCertificate where
  certificate : SignedCertificate
  serial : Int
  keyId : Text
  validAfter : Int
  validBefore : Int

/-- How many seconds the certificate is valid. -/
def IssuedCertificate.validSeconds (c : IssuedCertificate) : Int := c.validBefore - c.validAfter

namespace Issue

/-- What chance and the clock contribute to a certificate. -/
structure Circumstances where
  /-- The time of day in seconds. -/
  clock : Rat
  serial : Int
  nonce : Bytes
  /-- The one-time number of the signature, for a key that needs one. -/
  oneTime : Nat

/-- The second of the clock. -/
def Circumstances.second (c : Circumstances) : Int := Rat.wholePart c.clock

/-- Issues a certificate for a key that is valid from `now` on. The self-check goes by
the clock. -/
def issueAt (decoder : Token.Decoder) (info : HostInfo) (subject : PublicKey)
    (token command : Text) (now : Int) (c : Circumstances) : Except Failure IssuedCertificate := do
  if command.isEmpty then throw (.signing .emptyCommand)
  let (validAfter, validBefore) ← Token.validityWindow decoder info.duration token now
  if validBefore ≤ validAfter then throw (.validation (.emptyWindow validAfter validBefore))
  let keyId ← (Token.keyId decoder token).mapError .defect
  let draft : Draft :=
    { subject, nonce := c.nonce, serial := c.serial, keyId, validAfter, validBefore, command }
  let certificate ← (draft.sign info.userKeys.privateKey.value c.oneTime).mapError
    fun cause => .signing (.construction cause)
  (Certificate.checkText certificate.text subject info.userKeys.publicKey.value command
    c.clock).mapError .validation
  return { certificate, serial := c.serial, keyId, validAfter, validBefore }

/-- Issues a certificate for a key that is valid from the present second on. -/
def issue (decoder : Token.Decoder) (info : HostInfo) (subject : PublicKey) (token command : Text)
    (c : Circumstances) : Except Failure IssuedCertificate :=
  issueAt decoder info subject token command c.second c

/-- The record of a certificate that was issued. -/
def record (info : HostInfo) (c : IssuedCertificate) : Log.Record where
  level := Log.Level.info
  logger := "oinit_ca.signer"
  message := Text.ofString "Certificate signed: group=" ++ info.group ++
    Text.ofString " pattern=" ++ info.pattern ++ Text.ofString " serial=" ++
    Decimal.ofInt c.serial ++ Text.ofString " key_id=" ++ c.keyId ++
    Text.ofString " validity=" ++ Decimal.ofInt c.validSeconds ++ [0x73]
  extras := { group := some (.text info.group), serial := some (.int c.serial) }

end Issue

end SshAuthority
