/-
SshAuthority/Service/CertificateRequest.lean

What the body of a request for a certificate says.

The body is a JSON object with a public key and an access token, both texts that
are not empty and can be written in UTF-8. Its content type has to be one of
JSON. Two kinds of faults are told apart: a body that is malformed, and one that
cannot be decoded at all.
-/
import SshAuthority.Json.Reader

namespace SshAuthority

/-- A request for a certificate. -/
structure CertificateRequest where
  publicKey : Text
  token : Text
  deriving DecidableEq

/-- Why a body is no request. -/
inductive BodyFault where
  | malformed
  | undecodable
  deriving DecidableEq

namespace CertificateRequest

/-- Whether a content type is one of JSON, whatever its parameters. -/
def isJsonType (contentType : Text) : Bool :=
  let type := Text.lowerAscii (Text.trim (contentType.takeWhile (· ≠ 0x3B)))
  match Text.splitOn 0x2F type with
  | [main, sub] => main = "application" && (sub = "json" || Text.endsWith "+json" sub)
  | _ => false

/-- A text field of an object. -/
def field? (name : Text) (value : Json) : Option Text :=
  match value.get? name with
  | some (.text t) => if t.isEmpty || t.any CodePoint.isSurrogate then none else some t
  | _ => none

/-- The request that a value is. -/
def ofJson? (value : Json) : Option CertificateRequest :=
  return ⟨← field? "pubkey" value, ← field? "token" value⟩

/-- Reads a body. -/
def ofBody (contentType : Option Text) (body : Bytes) : Except BodyFault CertificateRequest :=
  if body.isEmpty || !contentType.any isJsonType then .error .malformed
  else match Json.readBytes body with
    | .error .malformed => .error .malformed
    | .error _ => .error .undecodable
    | .ok value =>
      match ofJson? value with
      | some r => .ok r
      | none => .error .malformed

end CertificateRequest

end SshAuthority
