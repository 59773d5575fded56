/-
SshAuthority/Service/Platform.lean

What the service stands on.

The limiter, the HTTP client, the decoder of tokens and the framework that answers the
requests are not part of the service. What it depends on in them is fixed before it is
started and stays as it is: nothing that follows rests on one particular platform.
-/
import SshAuthority.Authorization.Client
import SshAuthority.Service.RateLimit
import SshAuthority.Token.Claims

namespace SshAuthority

/-- What is fixed before the service is started. -/
structure Platform where
  /-- How often a client may ask, as the limiter has read it when the program was loaded. -/
  quota : Quota
  client : HttpClient
  decoder : Token.Decoder
  /-- What the framework tells of the routes of the service. -/
  schema : Json

end SshAuthority
