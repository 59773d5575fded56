/-
SshAuthority/Service/Basic.lean

The service: starting it, reloading its configuration, answering requests.

The state is the settings, the configuration in force and the calls counted for
the rate limit; what the service stands on does not change. A reload either puts a
whole new configuration in force or leaves the old one. What is asked of the outside
in the course of a request is part of the answer (`Inquiry`), so requests that wait
for a reply hold no state.
-/
import SshAuthority.Config.Load
import SshAuthority.Log.Line
import SshAuthority.Service.Handler
import SshAuthority.Settings

namespace SshAuthority

/-- The state of the service. -/
structure Service where
  platform : Platform
  settings : Settings
  log : Log.Setting
  config : Config
  windows : RateWindows

namespace Service

/-- The records that the log keeps. -/
def keep (log : Log.Setting) (records : List Log.Record) : List Log.Record :=
  records.filter fun r => log.keeps r.level

/-- A record of the service itself. -/
def record (level : Log.Level) (message : Text) : Log.Record :=
  { level, logger := Handler.logger, message }

/-! ### Start and end -/

/-- The settings of an environment, checked, and what the log is set to. -/
def configure (env : Environment) : Except Failure (Settings × Log.Setting) := do
  let settings ← (Settings.ofEnvironment env).mapError .config
  settings.check.mapError .config
  let log ← (Log.Setting.ofTexts settings.logLevel settings.logFormat).mapError .defect
  return (settings, log)

/-- The record of a start. -/
def startRecord (settings : Settings) (config : Config) : Log.Record :=
  record Log.Level.info
    (Text.ofString "oinit-ca started on " ++ settings.host ++ [0x3A] ++
      Decimal.ofInt settings.port ++ Text.ofString " with " ++
      Decimal.ofNat config.groups.length ++ Text.ofString " host group(s)")

/-- Starts the service. -/
def start (platform : Platform) (env : Environment) (files : FileTree) :
    Except Failure (Service × List Log.Record) := do
  let (settings, log) ← configure env
  let (loaded, loading) := (Config.load files settings.configPath).run.run {}
  let config ← loaded
  return (⟨platform, settings, log, config, []⟩,
    keep log (loading.records ++ [startRecord settings config]))

/-- The records of the end. -/
def stop (s : Service) : List Log.Record :=
  keep s.log [record Log.Level.info "oinit-ca shut down"]

/-! ### Reloading -/

/-- Puts the configuration that the files now hold in force, if it can be loaded. The
result is whether it was; a defect comes out as one. -/
def reload (s : Service) (files : FileTree) :
    Service × Except Defect Bool × List Log.Record :=
  let (loaded, loading) := (Config.load files s.settings.configPath).run.run {}
  match loaded with
  | .ok config =>
    let message := Text.ofString "Configuration reloaded: " ++
      Decimal.ofNat config.groups.length ++ Text.ofString " host group(s)"
    ({ s with config }, .ok true,
      keep s.log (loading.records ++ [record Log.Level.info message]))
  | .error (.defect d) => (s, .error d, keep s.log loading.records)
  | .error f =>
    let message := Text.ofString "Configuration reload failed, keeping previous: " ++
      f.message?.getD []
    (s, .ok false, keep s.log (loading.records ++ [record Log.Level.error message]))

/-! ### Requests -/

/-- What is safe in the location of a redirection. -/
def isLocationSafe (c : CodePoint) : Bool :=
  Percent.isUnreserved c || (Text.ofString ":/%#?=@[]!$&()*+,;" ++ [0x27]).contains c

/-- The path without the slashes at its end or, if it has none, with one. -/
def otherPath (path : Text) : Text :=
  if path.getLast? = some 0x2F then Text.dropRight (· = 0x2F) path else path ++ [0x2F]

/-- The answer to a path that leads nowhere: a redirection, if it leads somewhere with
its end changed. -/
def strayResponse (r : Request) : Response :=
  let other := otherPath r.path
  if (Route.ofPath? other).isSome then
    let query : Text := match r.query? with
      | some q => 0x3F :: q
      | none => []
    .redirect ((Percent.encode? isLocationSafe (r.origin ++ other ++ query)).getD [])
  else .notFound

/-- The client that a call counts for. -/
def rateKey (r : Request) : RateKey :=
  ⟨if r.client.isEmpty then "127.0.0.1" else r.client, r.path⟩

/-- What follows on a request: the outcome, once a question has been answered and the
circumstances are known. -/
abbrev Pending := Inquiry (Issue.Circumstances → Handler.Outcome)

/-- An outcome that waits for nothing. -/
def settled (response : Response) : Pending := .done fun _ => ⟨response, []⟩

/-- Takes in a request for a certificate. Only bodies that are requests count for the
rate limit. -/
def receiveCertificate (s : Service) (r : Request) (now : Rat) (host : Text) : Service × Pending :=
  match CertificateRequest.ofBody r.contentType r.body with
  | .error .malformed => (s, settled .malformed)
  | .error .undecodable => (s, settled .undecodable)
  | .ok q =>
    let counted := { s with windows := s.windows.hit now (rateKey r) s.platform.quota }
    if s.windows.admits now (rateKey r) s.platform.quota then
      (counted, (Handler.certificateQuery s.platform s.config s.settings host q).map
        fun next circumstances =>
          Handler.conclude r (fun c => .certificate c.certificate) (next circumstances))
    else (counted, settled .rateLimited)

/-- What follows on a request that reads only. -/
def query (s : Service) (r : Request) : Route → Pending
  | .schema => settled (.schema s.platform.schema)
  | .index => settled .index
  | .health => settled (.health s.config.groups.length)
  | .host name =>
    (Handler.hostQuery s.platform.client s.config s.settings.timeout name).map fun answer _ =>
      Handler.conclude r (fun (publicKey, providers) => .host publicKey providers) answer
  | .certificate _ => settled .notFound

/-- What follows on a request, with the records that the log keeps. -/
def Pending.logged (log : Log.Setting) (p : Pending) : Pending :=
  p.map fun next circumstances =>
    let outcome := next circumstances
    { outcome with records := keep log outcome.records }

/-- Takes in a request at a point of time. -/
def receive (s : Service) (r : Request) (now : Rat) : Service × Pending :=
  match Route.ofPath? r.path with
  | none => (s, settled (strayResponse r))
  | some route =>
    if r.method ∉ route.methods then (s, settled (.wrongMethod route.methods))
    else match route with
      | .certificate host =>
        let (next, pending) := s.receiveCertificate r now host
        (next, pending.logged s.log)
      | other => (s, (s.query r other).logged s.log)

end Service

end SshAuthority
