/-
SshAuthority/Config/Load.lean

Configurations from texts and files.

Each section but `DEFAULT` is a host group. Five of its options are settings, and
a setting that it does not have at all is taken from `DEFAULT`; one that is there
and empty is missing. All other options are patterns with their endpoints. Groups
are built in order and the first fault ends it, so there is no partial result.
-/
import SshAuthority.Config.Duration
import SshAuthority.Config.HostGroup
import SshAuthority.Config.Ini

namespace SshAuthority.Config

/-! ### Settings of a group -/

/-- The names of the settings. -/
def settingNames : List Text :=
  ["host-ca-privkey", "host-ca-pubkey", "user-ca-privkey", "user-ca-pubkey", "cert-validity"]

/-- The settings of a group. -/
structure GroupSettings where
  hostPrivate : Text
  hostPublic : Text
  userPrivate : Text
  userPublic : Text
  validity : Text
  deriving DecidableEq

/-- The settings that a look-up gives. -/
def GroupSettings.ofLookup (value : Text → Text) : GroupSettings where
  hostPrivate := value "host-ca-privkey"
  hostPublic := value "host-ca-pubkey"
  userPrivate := value "user-ca-privkey"
  userPublic := value "user-ca-pubkey"
  validity := value "cert-validity"

/-- A section's value of a setting: its own, else a shared one, else the default. -/
def setting (d : Ini.Document) (name key : Text) : Text :=
  let fallback := (Table.get? key (d.options Ini.initialName)).getD []
  ((Table.get? key (d.options name)).getD fallback.trim).trim

/-- The settings without a value. -/
def missing (d : Ini.Document) (name : Text) : List Text :=
  settingNames.filter fun key => (setting d name key).isEmpty

/-- The validity of certificates that is bound to the access token. -/
def tokenValidity : Text := "token"

/-- The seconds that a validity stands for; zero if it is bound to the token. -/
def seconds (group validity : Text) : Except ConfigFault Int :=
  if validity = tokenValidity then .ok 0
  else match Duration.read validity with
    | .error _ => .error (.badValidity group validity)
    | .ok n => if n ≤ 0 then .error (.shortValidity group) else .ok n

/-! ### Endpoints -/

/-- The endpoint that a value names. -/
def endpoint? (value : Text) : Option Text :=
  let url := value.trim
  if Text.startsWith "http://" url || Text.startsWith "https://" url then
    some (Text.dropRight (· = 0x2F) url)
  else none

/-- The endpoints of the patterns among a section's options. -/
def endpoints (group : Text) : Table Text → Except ConfigFault (Table Text)
  | [] => .ok []
  | (pattern, value) :: rest =>
    if settingNames.contains pattern then endpoints group rest
    else match endpoint? value with
      | none => .error (.badEndpoint group pattern)
      | some url => (endpoints group rest).map ((pattern, url) :: ·)

/-! ### Groups -/

/-- The logger of this module. -/
def logger : Text := "oinit_ca.hostgroups"

/-- The validity as records show it. -/
def validityText (duration : Int) : Except Defect Text :=
  if duration = 0 then .ok tokenValidity
  else match Decimal.text? duration with
    | .ok t => .ok (t ++ [0x73])
    | .error _ => .error .badValue

/-- The record of a group that is built. -/
def groupMessage (g : HostGroup) (validity : Text) : Text :=
  Text.ofString "Host group " ++ g.name ++ Text.ofString ": " ++ Decimal.ofNat g.hosts.length ++
    Text.ofString " host pattern(s), validity " ++ validity ++ Text.ofString ", user CA " ++
    g.userKeys.algorithm.text

/-- What a section says before any key is loaded. -/
def outline (d : Ini.Document) (name : Text) :
    Except ConfigFault (GroupSettings × Int × Table Text) := do
  let missing := missing d name
  if !missing.isEmpty then throw (.missingOptions name missing)
  let settings := GroupSettings.ofLookup (setting d name)
  let duration ← seconds name settings.validity
  return (settings, duration, ← endpoints name (d.options name))

/-- The group of a section. -/
def group (files : FileTree) (d : Ini.Document) (name : Text) : Load HostGroup := do
  let (settings, duration, hosts) ←
    ((outline d name).mapError .config : Except Failure (GroupSettings × Int × Table Text))
  let hostKeys ← Load.pair files settings.hostPrivate settings.hostPublic
  let userKeys ← Load.pair files settings.userPrivate settings.userPublic
  let g : HostGroup := { name, hostKeys, userKeys, validity := settings.validity, duration, hosts }
  let validity ← ((validityText duration).mapError .defect : Except Failure Text)
  Load.record Log.Level.debug logger (groupMessage g validity)
  return g

/-- The configuration of a text. -/
def parse (files : FileTree) (text : Text) : Load Config := do
  match Ini.read text with
  | .error lines => throw (.config (.unparsable lines))
  | .ok d =>
    let names := d.names.filter (· ≠ Ini.initialName)
    return ⟨← names.mapM (group files d)⟩

/-! ### Files -/

/-- The text with every line end a line feed. -/
def unixLines : Text → Text
  | [] => []
  | c :: rest =>
    if c = 0x0D then
      match rest with
      | [] => [0x0A]
      | next :: more => if next = 0x0A then 0x0A :: unixLines more else 0x0A :: unixLines (next :: more)
    else c :: unixLines rest

/-- The text of a configuration file. -/
def fileText (files : FileTree) (path : Text) : Except Failure Text :=
  match files.read (Path.ofText path) with
  | .error (.refused fault opened) => .error (.config (.unreadable path fault opened))
  | .error (.unusable d) => .error (.defect d)
  | .ok octets =>
    match Utf8.decode? octets with
    | none => .error (.defect .undecodable)
    | some text => .ok (unixLines text)

/-- The configuration of a file. -/
def load (files : FileTree) (path : Text) : Load Config := do
  let text ← (fileText files path : Except Failure Text)
  let config ← parse files text
  Load.record Log.Level.info logger
    (Text.ofString "Loaded " ++ Decimal.ofNat config.groups.length ++
      Text.ofString " host group(s) from " ++ path)
  return config

end SshAuthority.Config
