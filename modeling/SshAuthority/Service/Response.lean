/-
SshAuthority/Service/Response.lean

Responses of the service, and what failures become in them.

A caller learns the class of a failure and not its cause; the cause goes to the
log.
-/
import SshAuthority.Certificate.Issue
import SshAuthority.Service.Request

namespace SshAuthority

/-- A response. -/
inductive Response where
  /-- What the framework tells of the service. -/
  | schema (document : Json)
  | index
  | health (groups : Nat)
  | host (publicKey : Text) (providers : List Text)
  | certificate (certificate : SignedCertificate)
  /-- An error of the service, in words for the caller. -/
  | error (status : Nat) (message : Text)
  /-- An error of the protocol. -/
  | protocolError (status : Nat) (message : Text)
  /-- The path leads somewhere, but by other methods. -/
  | wrongMethod (allowed : List Text)
  | redirect (location : Text)

namespace Response

/-- The status. -/
def status : Response → Nat
  | .schema _ | .index | .health _ | .host _ _ => 200
  | .certificate _ => 201
  | .error status _ => status
  | .protocolError status _ => status
  | .wrongMethod _ => 405
  | .redirect _ => 307

/-- An object of texts. -/
def texts (entries : List (Text × Text)) : Json :=
  .object (entries.map fun (name, value) => (name, .text value))

/-- The version of the service. -/
def version : Text := "0.1.0"

/-- The body, a JSON value; a redirection has none. -/
def body : Response → Option Json
  | .schema document => some document
  | .index => some (texts [("version", version)])
  | .health groups => some (.object [
      ("status", .text (if groups = 0 then "degraded" else "healthy")),
      ("service", .text "oinit-ca"), ("host_groups", .int groups)])
  | .host publicKey providers => some (.object [
      ("publickey", .text publicKey), ("providers", .array (providers.map .text))])
  | .certificate c => some (texts [("certificate", c.text)])
  | .error _ message => some (texts [("error", message)])
  | .protocolError _ message => some (texts [("detail", message)])
  | .wrongMethod _ => some (texts [("detail", "Method Not Allowed")])
  | .redirect _ => none

/-- The headers beside those of every response. -/
def headers : Response → Table Text
  | .wrongMethod allowed =>
    [("content-type", "application/json"), ("allow", Text.join ", " allowed)]
  | .redirect location => [("location", location)]
  | _ => [("content-type", "application/json")]

/-! ### Errors -/

/-- The answer to a body that is no request. -/
def malformed : Response := .error 400 "Request body is malformed."

/-- The answer to a body that cannot be decoded. -/
def undecodable : Response := .protocolError 400 "There was an error parsing the body"

/-- The answer to what the service did not expect. -/
def internalError : Response := .error 500 "Internal server error."

/-- The answer to a client that asks too often. -/
def rateLimited : Response := .error 429 "Rate limit exceeded."

/-- The answer where nothing is. -/
def notFound : Response := .protocolError 404 "Not Found"

end Response

/-- The answer to a failure, and the word for its class in the log; a defect is of no
class. -/
def Failure.answer? : Failure → Option (Response × Text)
  | .malformedRequest => some (.malformed, "malformed_request")
  | .unknownHost _ => some (.error 400 "Unknown host.", "unknown_host")
  | .unauthorized _ => some (.error 401 "User is not authorized or suspended.", "unauthorized")
  | .unreachable _ => some (.error 502 "motley_cue is not reachable.", "upstream_unreachable")
  | .signing _ => some (.internalError, "signing_failed")
  | .validation _ => some (.internalError, "validation_failed")
  | .config _ | .keyFile _ => some (.internalError, "internal")
  | .defect _ => none

end SshAuthority
