/-
SshAuthority/Service/Handler.lean

How requests are answered.

A request is answered from one configuration, read when its handling begins. A
query for a host asks the host's authorization service for its providers. A
request for a certificate is first read and counted; then its key is read, the
host resolved and the authorization service asked, in this order, and only a user
who is allowed gets a certificate. The circumstances of signing (time, serial
number, nonce) come in after the reply.
-/
import SshAuthority.Service.CertificateRequest
import SshAuthority.Service.Platform
import SshAuthority.Service.Response
import SshAuthority.Settings

namespace SshAuthority.Handler

/-! ### Records -/

/-- The logger of this module. -/
def logger : Text := "oinit_ca.main"

/-- The record of a user who is turned away. -/
def deniedRecord (info : HostInfo) (host : Text) : Log.Record where
  level := Log.Level.info
  logger
  message := Text.ofString "Issuance denied by " ++ info.endpoint ++
    Text.ofString " for host " ++ host
  extras := { host := some (.text host), reason := some (.text "denied") }

/-- The record of a certificate that is handed out. -/
def issuedRecord (info : HostInfo) (host : Text) (c : IssuedCertificate) : Log.Record where
  level := Log.Level.info
  logger
  message := Text.ofString "Certificate issued: host=" ++ host ++ Text.ofString " group=" ++
    info.group ++ Text.ofString " serial=" ++ Decimal.ofInt c.serial ++
    Text.ofString " validity=" ++ Decimal.ofInt c.validSeconds ++ [0x73]
  extras := {
    host := some (.text host), group := some (.text info.group), serial := some (.int c.serial) }

/-- Method and path as records show them. -/
def subject (r : Request) : Text := r.method ++ [0x20] ++ r.shownPath

/-- The record of a rejection. -/
def rejectionRecord (r : Request) (status : Nat) (reason message : Text) : Log.Record where
  level := if 500 ≤ status then Log.Level.error else Log.Level.info
  logger
  message := Text.ofString "Request rejected: " ++ subject r ++ Text.ofString ": " ++ reason ++
    Text.ofString ": " ++ message
  extras := { reason := some (.text reason) }

/-- The record of a defect. -/
def defectRecord (r : Request) : Log.Record where
  level := Log.Level.error
  logger
  message := Text.ofString "Unhandled error on " ++ subject r

/-! ### Outcomes -/

/-- A response, and the records written on the way to it. -/
structure Outcome where
  response : Response
  records : List Log.Record

/-- The outcome of a failure. -/
def reject (r : Request) (f : Failure) : Outcome :=
  match f.answer? with
  | some (response, reason) =>
    ⟨response, [rejectionRecord r response.status reason (f.message?.getD [])]⟩
  | none => ⟨.internalError, [defectRecord r]⟩

/-- The outcome of a result. -/
def conclude {α : Type} (r : Request) (respond : α → Response) (a : Logged α) : Outcome :=
  match a.result with
  | .ok value => ⟨respond value, a.records⟩
  | .error f => ⟨(reject r f).response, a.records ++ (reject r f).records⟩

/-! ### Queries for hosts -/

/-- Whether all texts can be written in UTF-8. -/
def writable (ts : List Text) : Bool := ts.all fun t => !t.any CodePoint.isSurrogate

/-- The host key of a host, to be shown with the providers. -/
def hostAnswer (info : HostInfo) (providers : List Text) : Logged (Text × List Text) :=
  match info.hostKeys.publicText with
  | .error d => .fail (.defect d)
  | .ok publicKey =>
    if writable providers then .pure (publicKey, providers) else .fail (.defect .unencodable)

/-- The public key and the providers of a host. -/
def hostQuery (client : HttpClient) (config : Config) (timeout : Real64) (host : Text) :
    Inquiry (Logged (Text × List Text)) :=
  match config.resolve host with
  | .error f => .done (.fail f)
  | .ok info => (Endpoint.ofUrl client info.endpoint timeout).info.map (·.andThen (hostAnswer info))

/-! ### Certificates -/

/-- Issues a certificate for a key, if the decision allows it. -/
def issue (decoder : Token.Decoder) (info : HostInfo) (host : Text) (key : PublicKey)
    (token command : Text) (circumstances : Issue.Circumstances) :
    Decision → Logged IssuedCertificate
  | .deny => ⟨.error (.unauthorized .denied), [deniedRecord info host]⟩
  | .allow =>
    match Issue.issue decoder info key token command circumstances with
    | .error f => .fail f
    | .ok c => ⟨.ok c, [Issue.record info c, issuedRecord info host c]⟩

/-- The key in a request. -/
def requestKey (q : CertificateRequest) : Except Failure PublicKey :=
  (PublicKey.ofText q.publicKey.trim).mapError fun
    | .invalid => .malformedRequest
    | fault => .defect (KeyFile.defect fault)

/-- The key in a request and what is known of the host. -/
def prepare (config : Config) (host : Text) (q : CertificateRequest) :
    Except Failure (PublicKey × HostInfo) := do
  let key ← requestKey q
  return (key, ← config.resolve host)

/-- The certificate that a request is for. -/
def certificateQuery (platform : Platform) (config : Config) (settings : Settings) (host : Text)
    (q : CertificateRequest) : Inquiry (Issue.Circumstances → Logged IssuedCertificate) :=
  match prepare config host q with
  | .error f => .done fun _ => .fail f
  | .ok (key, info) =>
    ((Endpoint.ofUrl platform.client info.endpoint settings.timeout).authorize q.token).map
      fun answer circumstances =>
        answer.andThen (issue platform.decoder info host key q.token settings.forceCommand
          circumstances)

end SshAuthority.Handler
