/-
SshAuthority/Failure.lean

The errors of the service: what went wrong, and how it is worded.

An error is a cause with what the message needs to name it; `Failure.message?`
is the only place where causes become words. Every cause belongs to one of eight
classes. The first two end the start of the service, the others are answered to
a request, with a class of answer each. A defect is none of them and has no
message of its own.
-/
import SshAuthority.File.Tree
import SshAuthority.Key.Algorithm
import SshAuthority.Json.Value

namespace SshAuthority

/-- Why there is no configuration or no settings. -/
inductive ConfigFault where
  /-- The file cannot be opened. -/
  | unreadable (path : Text) (fault : SystemFault) (opened : Path)
  /-- The lines with these numbers are neither headers nor options. -/
  | unparsable (lines : List (Nat × Text))
  | missingOptions (group : Text) (options : List Text)
  | badValidity (group validity : Text)
  /-- The validity is zero or negative. -/
  | shortValidity (group : Text)
  | badEndpoint (group pattern : Text)
  | badPort (fault : Decimal.Fault)
  | badTimeout (text : Text)
  | blankCommand
  /-- The timeout is zero or negative. -/
  | shortTimeout
  deriving DecidableEq

/-- The two halves of a key pair. -/
inductive KeyHalf where
  | privateHalf
  | publicHalf
  deriving DecidableEq

/-- Why a key file of the configuration is of no use. -/
inductive KeyFileFault where
  | unreadable (half : KeyHalf) (path : Text) (fault : SystemFault) (opened : Path)
  | malformed (half : KeyHalf) (path : Text)
  /-- Keys of the algorithm do not sign unattended. -/
  | unsupported (algorithm : KeyAlgorithm) (path : Text)
  | mismatched (privatePath publicPath : Text)
  deriving DecidableEq

/-- Why a user gets no certificate. -/
inductive AuthorizationFault where
  /-- The user's status cannot be had. -/
  | noStatus
  /-- The status is not of the form of one. -/
  | badStatus
  /-- The status forbids it. -/
  | denied
  deriving DecidableEq

/-- Why an endpoint gives no information about itself. -/
inductive EndpointFault where
  | unreachable (endpoint : Text)
  | malformed (endpoint : Text)
  deriving DecidableEq

/-- Why there is no certificate. -/
inductive SigningFault where
  | emptyCommand
  /-- The token names no time of expiry. -/
  | noExpiry
  | expiryOutOfRange (expiry : Json)
  /-- The certificate cannot be put together or signed. -/
  | construction (cause : Defect)

/-- Where a point of time lies when a certificate does not cover it. -/
inductive ValidityFault where
  /-- The certificate is not for users. -/
  | wrongKind
  | notYet
  | expired
  deriving DecidableEq

/-- What is wrong with a finished certificate. -/
inductive ValidationFault where
  | emptyWindow (after before : Int)
  | malformed
  | wrongSigner
  | wrongSubject
  | wrongCommand
  | sourceAddress
  | notValid (fault : ValidityFault)
  deriving DecidableEq

/-- What goes wrong in the service. -/
inductive Failure where
  | config (fault : ConfigFault)
  | keyFile (fault : KeyFileFault)
  | unknownHost (host : Text)
  | unauthorized (fault : AuthorizationFault)
  | unreachable (fault : EndpointFault)
  | signing (fault : SigningFault)
  | validation (fault : ValidationFault)
  /-- The public key of a request does not parse. -/
  | malformedRequest
  /-- A fault that the service does not expect. -/
  | defect (defect : Defect)

/-! ### Wording -/

/-- A line of a configuration as messages show it, with its number. -/
def badLineText (number : Nat) (line : Text) : Text :=
  let digits := Decimal.ofNat number
  [0x0A, 0x09] ++ Text.ofString "[line " ++ List.replicate (2 - digits.length) 0x20 ++ digits ++
    Text.ofString "]: " ++ line.quoted

/-- The message of a fault. -/
def ConfigFault.message : ConfigFault → Text
  | .unreadable path fault opened =>
    "could not read configuration " ++ path ++ Text.ofString ": " ++ fault.message opened
  | .unparsable lines =>
    "could not parse configuration: Source contains parsing errors: '<string>'" ++
      lines.flatMap fun (number, line) => badLineText number line
  | .missingOptions group options =>
    "missing option in hostgroup " ++ group ++ Text.ofString ": " ++ Text.join ", " options
  | .badValidity group validity =>
    "could not parse cert-validity " ++ validity.quoted ++ Text.ofString " in hostgroup " ++ group
  | .shortValidity group => "cert-validity must be at least one second in hostgroup " ++ group
  | .badEndpoint group pattern =>
    "invalid endpoint URL for " ++ pattern ++ Text.ofString " in hostgroup " ++ group
  | .badPort fault => "invalid numeric setting: " ++ fault.message
  | .badTimeout text =>
    "invalid numeric setting: could not convert string to float: " ++ text.quoted
  | .blankCommand => "OINIT_CA_FORCE_COMMAND must not be empty"
  | .shortTimeout => "OINIT_CA_UPSTREAM_TIMEOUT must be positive"

/-- The half in words. -/
def KeyHalf.text : KeyHalf → Text
  | .privateHalf => "private"
  | .publicHalf => "public"

/-- The start of the message about a key file that does not load. -/
def KeyHalf.notLoaded (half : KeyHalf) (path : Text) : Text :=
  "Could not load " ++ half.text ++ Text.ofString " key " ++ path

/-- The message of a fault. -/
def KeyFileFault.message : KeyFileFault → Text
  | .unreadable half path fault opened =>
    half.notLoaded path ++ Text.ofString ": " ++ fault.message opened
  | .malformed half path => half.notLoaded path
  | .unsupported algorithm path =>
    "Unsupported key algorithm " ++ algorithm.text ++ Text.ofString " in " ++ path
  | .mismatched privatePath publicPath =>
    "Public key " ++ publicPath ++ Text.ofString " does not match private key " ++ privatePath

/-- The message of a fault. -/
def AuthorizationFault.message : AuthorizationFault → Text
  | .noStatus => "user status could not be obtained"
  | .badStatus => "user status response malformed"
  | .denied => "user is suspended or in an unknown state"

/-- The message of a fault. -/
def EndpointFault.message : EndpointFault → Text
  | .unreachable endpoint => endpoint ++ Text.ofString " is not reachable"
  | .malformed endpoint => endpoint ++ Text.ofString " returned malformed info"

/-- The message of a fault. -/
def SigningFault.message : SigningFault → Text
  | .emptyCommand => "force command must not be empty"
  | .noExpiry => "access token carries no usable expiry"
  | .expiryOutOfRange expiry => "access token expiry out of range: " ++ expiry.display
  | .construction _ => "certificate signing failed"

/-- The fault in words. -/
def ValidityFault.text : ValidityFault → Text
  | .wrongKind => "Invalid certificate type"
  | .notYet => "Certificate not yet valid"
  | .expired => "Certificate expired"

/-- The message of a fault. -/
def ValidationFault.message : ValidationFault → Text
  | .emptyWindow after before =>
    Text.ofString "empty validity window [" ++ Decimal.ofInt after ++ Text.ofString ", " ++
      Decimal.ofInt before ++ [0x29]
  | .malformed => "certificate does not parse"
  | .wrongSigner => "certificate not signed by the user CA"
  | .wrongSubject => "certificate bound to the wrong public key"
  | .wrongCommand => "force-command option missing or altered"
  | .sourceAddress => "unexpected critical option source-address"
  | .notValid fault => "certificate not currently valid: " ++ fault.text

/-- The message of a failure; a defect has none. -/
def Failure.message? : Failure → Option Text
  | .config fault => some fault.message
  | .keyFile fault => some fault.message
  | .unknownHost host => some (Text.ofString "host not found in config: " ++ host)
  | .unauthorized fault => some fault.message
  | .unreachable fault => some fault.message
  | .signing fault => some fault.message
  | .validation fault => some fault.message
  | .malformedRequest => some "public key does not parse"
  | .defect _ => none

/-- The fault that a failure came from, where its message leaves that out. -/
def Failure.cause? : Failure → Option Defect
  | .keyFile (.malformed _ _) => some .badKey
  | .signing (.construction cause) => some cause
  | .validation .malformed => some .badKey
  | .malformedRequest => some .badKey
  | _ => none

end SshAuthority
