/-
SshAuthority/Key/Import.lean

Keys read from the octets of a file or of a request, in any known form.

A private key stands in a PEM block or is DER by itself. A public key may also be
a line, an RFC 4716 block, or the public part of a private key. The name on a
line must be the name inside; a line with a certificate holds no key.
-/
import SshAuthority.Key.Pkcs
import SshAuthority.Key.OpenSsh
import SshAuthority.Encoding.Armor

namespace SshAuthority

/-- Whether the headers of a PEM block say that it is encrypted. -/
def Armor.Pem.isEncrypted (block : Armor.Pem) : Bool :=
  block.label = Bytes.ofString "ENCRYPTED" ||
  block.headers.any fun (name, value) =>
    Bytes.trim name = Bytes.ofString "Proc-Type" && value = Bytes.ofString "4,ENCRYPTED"

namespace PrivateKey

/-- The private key in a PEM block. -/
def ofPem (block : Armor.Pem) : Except KeyFault PrivateKey :=
  if block.label = Bytes.ofString "OPENSSH" then OpenSsh.privateKey block.body
  else if block.isEncrypted then .error .invalid
  else match Der.read? block.body with
    | none => .error .invalid
    | some d => Pkcs.labelledPrivateKey block.label d

/-- Reads a private key. -/
def ofBytes (b : Bytes) : Except KeyFault PrivateKey :=
  match Armor.find? "PRIVATE KEY" none b with
  | some (.der d) => Pkcs.anyPrivateKey d
  | some (.pem block) => ofPem block
  | _ => .error .invalid

end PrivateKey

namespace PublicKey

/-- The public part of a private key file. -/
def ofPrivateBytes (b : Bytes) : Except KeyFault PublicKey :=
  match Armor.find? "PRIVATE KEY" none b with
  | some (.pem block) =>
    if block.label = Bytes.ofString "OPENSSH" then OpenSsh.publicKey block.body
    else (PrivateKey.ofPem block).map (·.publicPart)
  | some (.der d) => (Pkcs.anyPrivateKey d).map (·.publicPart)
  | _ => .error .invalid

/-- Reads a public key. -/
def ofBytes (b : Bytes) : Except KeyFault PublicKey :=
  match Armor.find? "PUBLIC KEY" (some KeyAlgorithm.lineNames) b with
  | none => .error .invalid
  | some (.der d) => Pkcs.anyPublicKey d
  | some (.pem block) =>
    match Der.read? block.body with
    | none => .error .invalid
    | some d => Pkcs.labelledPublicKey block.label d
  | some (.block body comment) => return { ← ofBlob body with comment }
  | some (.line name body comment) => do
    let key ← ofBlob body
    if key.algorithm.name = name then .ok { key with comment } else .error .invalid
  | some .nothing => ofPrivateBytes b

/-- Reads a public key from a text, which has to be ASCII. -/
def ofText (t : Text) : Except KeyFault PublicKey :=
  match Bytes.ofAscii? t with
  | some b => ofBytes b
  | none => .error .invalid

/-- The line of a key: its name, its wire encoding in base64, and its comment. -/
def line (k : PublicKey) : Bytes :=
  k.algorithm.name ++ [0x20] ++ Base64.encode k.blob ++
    match k.comment with
    | some (c :: rest) => 0x20 :: c :: rest
    | _ => []

end PublicKey

end SshAuthority
