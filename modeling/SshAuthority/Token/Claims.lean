/-
SshAuthority/Token/Claims.lean

Access tokens and what they claim.

A token is a header, a payload and a signature, in base64url with points between
them. The authorization service vouches for it, so the signature is not checked
here and only three claims are read: the time of expiry, the subject and the
issuer. A token that is not of this form claims nothing. Tokens are taken apart by a
decoder, and there is one thing in which decoders differ: what they make of a part
whose values nest too deep to be read.
-/
import SshAuthority.Failure
import SshAuthority.Json.Reader
import SshAuthority.Encoding.Base64

namespace SshAuthority.Token

/-- The claims of a token, by name. -/
abbrev Claims := Table Json

/-- The three parts: what stands before the first point, between, and after the last. -/
def parts? (token : Bytes) : Option (Bytes × Bytes × Bytes) := do
  let (front, signature) ← Text.cutLast? 0x2E (Bytes.toLatin token)
  let (header, payload) ← Text.cut? 0x2E front
  let octets := fun (t : Text) => t.map fun c => UInt8.ofNat c.val
  return (octets header, octets payload, octets signature)

/-- What a decoder makes of a part whose values nest too deep to be read. The fault is one of the
JSON reader, and versions of a decoder differ in whether they catch it. -/
inductive DeepPart where
  /-- It refuses the token, as any other that it cannot decode. -/
  | refused
  /-- It does not catch the fault. -/
  | uncaught
  deriving DecidableEq

/-- A decoder of tokens. -/
structure Decoder where
  header : DeepPart
  payload : DeepPart
  deriving DecidableEq

/-- The entries of a part that is a JSON object. -/
def entries? (deep : DeepPart) (part : Bytes) : Except Defect (Option (Table Json)) :=
  match (Base64.decodeUrl? part).map Json.readBytes with
  | some (.ok (.object entries)) => .ok (some entries)
  | some (.error .tooDeep) =>
    match deep with
    | .refused => .ok none
    | .uncaught => .error .tooDeep
  | _ => .ok none

/-- The one header parameter that may be critical. -/
def unencodedName : Text := "b64"

/-- Whether a list of critical parameters names known and present ones only. -/
def acceptsCritical (header : Table Json) : Json → Bool
  | .array [] => false
  | .array items => items.all fun
    | .text name => name = unencodedName && (Table.get? name header).isSome
    | _ => false
  | _ => false

/-- Whether a header is one of a token that can be read: its key identifier is a text
and its payload is not set apart. -/
def acceptsHeader (header : Table Json) : Bool :=
  (match Table.get? "kid" header with
    | none | some (.text _) => true
    | some _ => false) &&
  (match Table.get? "crit" header with
    | none => true
    | some critical => acceptsCritical header critical) &&
  (match Table.get? unencodedName header with
    | some (.bool false) => false
    | _ => true)

/-- The claims of a token in octets, if it is of the form of one. The payload is read last. -/
def ofOctets? (decoder : Decoder) (token : Bytes) : Except Defect (Option Claims) :=
  match parts? token with
  | none => .ok none
  | some (header, payload, signature) => do
    match ← entries? decoder.header header with
    | none => return none
    | some parameters =>
      if (Base64.decodeUrl? payload).isSome && (Base64.decodeUrl? signature).isSome &&
        acceptsHeader parameters then entries? decoder.payload payload
      else return none

/-- The claims of a token. -/
def claims (decoder : Decoder) (token : Text) : Except Defect Claims :=
  match Utf8.encode? token with
  | none => .error .unencodable
  | some octets => (ofOctets? decoder octets).map (·.getD [])

namespace Claims

/-- The last second that a certificate can name. -/
def maxSecond : Nat := 2 ^ 64 - 1

/-- A number cut to whole seconds, if it lies within the range of certificates. -/
def second? (x : Rat) : Option Int :=
  if 0 ≤ x ∧ x ≤ (maxSecond : Rat) then some (Rat.wholePart x) else none

/-- The second at which the token expires. -/
def expiry (claims : Claims) : Except SigningFault Int :=
  match Table.get? "exp" claims with
  | some (.int n) =>
    if 0 ≤ n && n ≤ maxSecond then .ok n else .error (.expiryOutOfRange (.int n))
  | some (.real x) =>
    match x.toRat?.bind second? with
    | some n => .ok n
    | none => .error (.expiryOutOfRange (.real x))
  | _ => .error .noExpiry

/-- The key identifier of certificates for tokens that do not name their user. -/
def anonymousKeyId : Text := "oinit-ca"

/-- The key identifier of a certificate: the user and the issuer, if both are there. -/
def keyId (claims : Claims) : Text :=
  match Table.get? "sub" claims, Table.get? "iss" claims with
  | some subject, some issuer =>
    if subject.isPresent && issuer.isPresent then
      subject.display ++ [0x40] ++ issuer.display
    else anonymousKeyId
  | _, _ => anonymousKeyId

end Claims

/-- The second at which a token expires. -/
def expiry (decoder : Decoder) (token : Text) : Except Failure Int := do
  let c ← (claims decoder token).mapError .defect
  c.expiry.mapError .signing

/-- The key identifier of certificates for a token. -/
def keyId (decoder : Decoder) (token : Text) : Except Defect Text :=
  (claims decoder token).map Claims.keyId

/-- The seconds between which a certificate is valid that is issued at `now` for
`duration` seconds or, if that is zero, for as long as the token. -/
def validityWindow (decoder : Decoder) (duration : Int) (token : Text) (now : Int) :
    Except Failure (Int × Int) :=
  if duration = 0 then return (now, ← expiry decoder token) else .ok (now, now + duration)

end SshAuthority.Token
