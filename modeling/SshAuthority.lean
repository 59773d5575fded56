import SshAuthority.Authorization.Client
import SshAuthority.Authorization.Decision
import SshAuthority.Authorization.Inquiry
import SshAuthority.Certificate.Basic
import SshAuthority.Certificate.Fields
import SshAuthority.Certificate.Issue
import SshAuthority.Config.Duration
import SshAuthority.Config.HostGroup
import SshAuthority.Config.Ini
import SshAuthority.Config.KeyCache
import SshAuthority.Config.Load
import SshAuthority.Config.Pattern
import SshAuthority.Crypto.Curve
import SshAuthority.Crypto.Dsa
import SshAuthority.Crypto.Ecdsa
import SshAuthority.Crypto.Edwards
import SshAuthority.Crypto.Hash
import SshAuthority.Crypto.Modular
import SshAuthority.Crypto.Rsa
import SshAuthority.Crypto.Sha1
import SshAuthority.Crypto.Sha2
import SshAuthority.Crypto.Shake
import SshAuthority.Defect
import SshAuthority.Encoding.Armor
import SshAuthority.Encoding.Base64
import SshAuthority.Encoding.Bytes
import SshAuthority.Encoding.Der
import SshAuthority.Encoding.Hex
import SshAuthority.Encoding.Wire
import SshAuthority.Failure
import SshAuthority.File.Path
import SshAuthority.File.Tree
import SshAuthority.Json.Reader
import SshAuthority.Json.Value
import SshAuthority.Json.Writer
import SshAuthority.Key.Algorithm
import SshAuthority.Key.Import
import SshAuthority.Key.OpenSsh
import SshAuthority.Key.Pkcs
import SshAuthority.Key.Private
import SshAuthority.Key.Public
import SshAuthority.Log.Line
import SshAuthority.Log.Place
import SshAuthority.Log.Record
import SshAuthority.Log.Template
import SshAuthority.Network.Address
import SshAuthority.Number.Decimal
import SshAuthority.Number.Places
import SshAuthority.Number.Real64
import SshAuthority.Number.RealText
import SshAuthority.Number.Shortest
import SshAuthority.Outcome
import SshAuthority.Service.Basic
import SshAuthority.Service.CertificateRequest
import SshAuthority.Service.Handler
import SshAuthority.Service.RateLimit
import SshAuthority.Service.Platform
import SshAuthority.Service.Request
import SshAuthority.Service.Response
import SshAuthority.Settings
import SshAuthority.Table
import SshAuthority.Text.Blank
import SshAuthority.Text.Capital
import SshAuthority.Text.CodePoint
import SshAuthority.Text.Digit
import SshAuthority.Text.Percent
import SshAuthority.Text.Printable
import SshAuthority.Text.Quoted
import SshAuthority.Text.Utf16
import SshAuthority.Text.Utf8
import SshAuthority.Token.Claims
import SshAuthority.Url.Basic
import SshAuthority.Url.Host
import SshAuthority.Proofs.Encoding.Bytes
import SshAuthority.Proofs.Encoding.Wire
import SshAuthority.Proofs.Encoding.Base64
import SshAuthority.Proofs.Key.Fields
import SshAuthority.Proofs.Text.Utf8
import SshAuthority.Proofs.Certificate.Fields
import SshAuthority.Proofs.Certificate.Options
import SshAuthority.Proofs.Certificate.Layout
import SshAuthority.Proofs.Authorization.Client
import SshAuthority.Proofs.Config.Load
import SshAuthority.Proofs.Service.Issuance
import SshAuthority.Proofs.Service.Handling
import SshAuthority.Proofs.Service.Isolation
import SshAuthority.Proofs.Table
import SshAuthority.Proofs.Json.Members
import SshAuthority.Proofs.Authorization.Gate
import SshAuthority.Proofs.Service.Malformed
import SshAuthority.Proofs.Text.Blank
import SshAuthority.Proofs.Config.Source
import SshAuthority.Proofs.Config.Reading
import SshAuthority.Proofs.Config.Plan
import SshAuthority.Proofs.Config.Group
import SshAuthority.Proofs.Config.Fault
import SshAuthority.Proofs.Config.Duration
import SshAuthority.Proofs.Config.Meaning
import SshAuthority.Proofs.Config.Regular
import SshAuthority.Proofs.Service.Reload
import SshAuthority.Proofs.Service.Secrecy
import SshAuthority.Proofs.Authorization.Fault
import SshAuthority.Proofs.Service.Unusable
import SshAuthority.Proofs.Service.Rate
import SshAuthority.Proofs.Config.KeyCache
import SshAuthority.Proofs.Config.Pattern
import SshAuthority.Proofs.Key.Import
import SshAuthority.Proofs.Service.Rejection
import SshAuthority.Proofs.Certificate.Acceptance
import SshAuthority.Proofs.Text.Append
import SshAuthority.Proofs.Number.Truncation
import SshAuthority.Proofs.Certificate.Window
import SshAuthority.Proofs.Config.Grammar
import SshAuthority.Proofs.Url.Below
import SshAuthority.Proofs.Config.Endpoint
import SshAuthority.Proofs.Config.Extension
import SshAuthority.Proofs.Config.Sharing
import SshAuthority.Proofs.Service.Quota
import SshAuthority.Proofs.Service.Records
import SshAuthority.Proofs.Key.Publication
import SshAuthority.Proofs.Service.Publication
import SshAuthority.Proofs.Number.Sign
import SshAuthority.Proofs.Settings
import SshAuthority.Proofs.Service.HostQuery
import SshAuthority.Proofs.Text.Surrogates
import SshAuthority.Proofs.Json.Escape
import SshAuthority.Proofs.Number.Numeral
import SshAuthority.Proofs.Json.Writing
import SshAuthority.Proofs.Log.Line
