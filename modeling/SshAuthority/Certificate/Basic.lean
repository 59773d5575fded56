/-
SshAuthority/Certificate/Basic.lean

Certificates, read from text and checked.

Of a packet with the fields of a certificate only this is one: its key is sound,
its texts are texts, its kind is known, every critical option is known, and the
signature is one of the signing key over all before it, with nothing after. A
user certificate may carry two critical options. Of its extensions the known ones
are kept; an unknown one counts for nothing.

`check` asks what the service has to know of a certificate before it leaves: whose
signature it has, for which key, with which command, and that it is valid now.
-/
import SshAuthority.Certificate.Fields
import SshAuthority.Encoding.Armor
import SshAuthority.Failure
import SshAuthority.Network.Address

namespace SshAuthority

/-- Whom a certificate is for. -/
inductive CertificateKind where
  | user
  | host
  deriving DecidableEq

/-- A critical option. -/
inductive CriticalOption where
  /-- The one command that may be run. -/
  | forceCommand (command : Text)
  /-- The networks that logins may come from. -/
  | sourceAddress (networks : List Text)
  deriving DecidableEq

/-- A certificate. -/
structure Certificate where
  kind : CertificateKind
  subject : PublicKey
  keyId : Text
  principals : List Text
  validAfter : Nat
  validBefore : Nat
  options : List CriticalOption
  extensions : List Bytes
  signer : PublicKey
  deriving DecidableEq

namespace Certificate

/-! ### Parts -/

/-- The kind of a number. -/
def kind? (n : Nat) : Option CertificateKind :=
  if n = CertificateFields.userKind then some .user
  else if n = CertificateFields.hostKind then some .host
  else none

/-- The name of the option with a command. -/
def forceCommandName : Bytes := "force-command"

/-- The name of the option with networks. -/
def sourceAddressName : Bytes := "source-address"

/-- The networks in a list of names with commas between them. -/
def networks? (names : Bytes) : Option (List Text) := do
  let t ← Bytes.toAscii? names
  let list := if t.isEmpty then [] else Text.splitOn 0x2C t
  if list.all Address.isNetwork then some list else none

/-- The critical option of a name and its data, each one string. -/
def criticalOption? (name data : Bytes) : Option CriticalOption := do
  let value ← Wire.whole? Wire.string data
  if name = forceCommandName then .forceCommand <$> Utf8.decode? value
  else if name = sourceAddressName then .sourceAddress <$> networks? value
  else none

/-- The critical options that fill the octets, with fuel for as many as may fit. -/
def criticalOptionsWithin? : (fuel : Nat) → Bytes → Option (List CriticalOption)
  | _, [] => some []
  | 0, _ => none
  | fuel + 1, b => do
    let ((name, data), rest) ← (do return (← Wire.string, ← Wire.string) : Wire.Reader _) b
    return (← criticalOption? name data) :: (← criticalOptionsWithin? fuel rest)

/-- The critical options of a certificate; only those for users have any. -/
def criticalOptions? (kind : CertificateKind) (b : Bytes) : Option (List CriticalOption) :=
  match kind with
  | .user => criticalOptionsWithin? b.length b
  | .host => if b.isEmpty then some [] else none

/-- The extensions that are known. -/
def knownExtensions : List Bytes :=
  ["permit-X11-forwarding", "permit-agent-forwarding", "permit-port-forwarding", "permit-pty",
    "permit-user-rc", "no-touch-required"].map Bytes.ofString

/-- The known ones among the extensions that fill the octets, with fuel for as many
as may fit. The data of an unknown one is not told from a name. -/
def extensionsWithin? (known : List Bytes) : (fuel : Nat) → Bytes → Option (List Bytes)
  | _, [] => some []
  | 0, _ => none
  | fuel + 1, b => do
    let (name, rest) ← Wire.string b
    if known.contains name then
      let (data, rest) ← Wire.string rest
      if data.isEmpty then (name :: ·) <$> extensionsWithin? known fuel rest else none
    else if (Bytes.toAscii? name).isSome then extensionsWithin? known fuel rest
    else none

/-- The extensions of a certificate; only those for users have known ones. -/
def extensions? (kind : CertificateKind) (b : Bytes) : Option (List Bytes) :=
  match kind with
  | .user => extensionsWithin? knownExtensions b.length b
  | .host => extensionsWithin? [] b.length b

/-! ### Reading -/

/-- The certificate of fields that are in order. -/
def ofFields? (f : CertificateFields KeyFields) : Option Certificate := do
  let kind ← kind? f.kind
  let material ← f.subject.material?.toOption
  return {
    kind
    subject := .ofMaterial material
    keyId := ← Utf8.decode? f.keyId
    principals := ← (← Wire.strings? f.principals).mapM Utf8.decode?
    validAfter := f.validAfter
    validBefore := f.validBefore
    options := ← criticalOptions? kind f.critical
    extensions := ← extensions? kind f.extensions
    signer := ← (PublicKey.ofBlob f.signer).toOption }

/-- The certificate in a packet: the fields, and a signature over them that holds. -/
def ofBlob? (b : Bytes) : Option Certificate := do
  let (fields, rest) ← CertificateFields.read b
  let c ← ofFields? fields
  let signature ← Wire.whole? Wire.string rest
  if c.signer.material.verify (b.take (b.length - rest.length)) signature then some c else none

/-- The certificate in a text: a line or an RFC 4716 block. -/
def ofText? (t : Text) : Option Certificate := do
  match Armor.find? "CERTIFICATE" (some KeyAlgorithm.lineNames) (← Bytes.ofAscii? t) with
  | some (.line _ body _) | some (.block body _) => ofBlob? body
  | _ => none

/-! ### Checking -/

/-- The command that the options force; the last one counts. -/
def forceCommand? (c : Certificate) : Option Text :=
  (c.options.filterMap fun
    | .forceCommand command => some command
    | .sourceAddress _ => none).getLast?

/-- Whether the options restrict where logins may come from. -/
def hasSourceAddress (c : Certificate) : Bool :=
  c.options.any fun
    | .sourceAddress _ => true
    | .forceCommand _ => false

/-- Refuses certificates that users cannot log in with at the given time. -/
def checkValidity (c : Certificate) (time : Rat) : Except ValidityFault Unit :=
  if c.kind ≠ .user then .error .wrongKind
  else if time < (c.validAfter : Rat) then .error .notYet
  else if (c.validBefore : Rat) ≤ time then .error .expired
  else .ok ()

/-- Refuses certificates that are not for the subject, signed by the authority, bound
to the command alone and valid at the given time. The key in a certificate goes by the
name that its fields make. -/
def check (c : Certificate) (subject authority : PublicKey) (command : Text) (time : Rat) :
    Except ValidationFault Unit :=
  if c.signer.blob ≠ authority.blob then .error .wrongSigner
  else if c.subject.material.blob ≠ subject.blob then .error .wrongSubject
  else if command.isEmpty || c.forceCommand? ≠ some command then .error .wrongCommand
  else if c.hasSourceAddress then .error .sourceAddress
  else (c.checkValidity time).mapError .notValid

/-- Refuses texts that are not such certificates. -/
def checkText (t : Text) (subject authority : PublicKey) (command : Text) (time : Rat) :
    Except ValidationFault Unit :=
  match ofText? t with
  | none => .error .malformed
  | some c => c.check subject authority command time

end Certificate

end SshAuthority
