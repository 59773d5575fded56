/-
SshAuthority/Key/Pkcs.lean

Keys as DER structures: PKCS #1, PKCS #8 and SEC 1.

A PKCS #8 structure names its algorithm by an object identifier. The older
structures do not; they are told apart by the label of the PEM block they stand
in or, without one, by their shape.
-/
import SshAuthority.Key.Private
import SshAuthority.Encoding.Der

namespace SshAuthority.Pkcs

/-- The families of algorithms that have a DER form. -/
inductive Family where
  | rsa
  | dsa
  | ec
  | ed25519
  | ed448
  deriving DecidableEq

/-- The families by the object identifiers of PKCS #8. -/
def Family.ofIdentifier? (id : Bytes) : Option Family :=
  if id = [0x2A, 0x86, 0x48, 0x86, 0xF7, 0x0D, 0x01, 0x01, 0x01] then some .rsa
  else if id = [0x2A, 0x86, 0x48, 0xCE, 0x38, 0x04, 0x01] then some .dsa
  else if id = [0x2A, 0x86, 0x48, 0xCE, 0x3D, 0x02, 0x01] then some .ec
  else if id = [0x2B, 0x65, 0x70] then some .ed25519
  else if id = [0x2B, 0x65, 0x71] then some .ed448
  else none

/-- The families by the labels of PEM blocks. -/
def Family.ofLabel? (label : Bytes) : Option Family :=
  if label = Bytes.ofString "RSA" then some .rsa
  else if label = Bytes.ofString "DSA" then some .dsa
  else if label = Bytes.ofString "EC" then some .ec
  else none

/-- The families with a structure of their own, outside PKCS #8. -/
def labelled : List Family := [.rsa, .dsa, .ec]

/-! ### Curves -/

/-- The curve of an object identifier. -/
def curveOfIdentifier? (id : Bytes) : Option Curve :=
  if id = [0x2A, 0x86, 0x48, 0xCE, 0x3D, 0x03, 0x01, 0x07] then some .nistp256
  else if id = [0x2B, 0x81, 0x04, 0x00, 0x22] then some .nistp384
  else if id = [0x2B, 0x81, 0x04, 0x00, 0x23] then some .nistp521
  else if id = [0x2B, 0x81, 0x04, 0x00, 0x0A] then some .secp256k1
  else none

/-- The identifier of prime fields. -/
def primeField : Bytes := [0x2A, 0x86, 0x48, 0xCE, 0x3D, 0x01, 0x01]

/-- The curve of its numbers and encoded generator. -/
def curveOfNumbers? (p a b : Nat) (point : Bytes) (n : Int) : Option Curve :=
  Curve.all.find? fun c =>
    let d := c.domain
    p = d.p && a % p = d.a && b % p = d.b && point = c.encodePoint d.gx d.gy && n = (d.n : Int)

/-- The curve of parameters: named, or spelled out. -/
def curve? : Der → Option Curve
  | .identifier id => curveOfIdentifier? id
  | .sequence (version :: .sequence [.identifier field, prime] ::
      .sequence (.octetString a :: .octetString b :: _) :: .octetString point :: order :: _) =>
    match version.int?, prime.int?, order.int? with
    | some 1, some p, some n =>
      if field = primeField && 0 < p then
        curveOfNumbers? p.toNat (Bytes.toNat a) (Bytes.toNat b) point n
      else none
    | _, _, _ => none
  | _ => none

/-! ### Structures of one family -/

/-- The RSA private key of a list of numbers: a version, the eight numbers, and more. -/
def rsaPrivate? : Der → Option (Except KeyFault PrivateKey) := fun d =>
  match d.ints? with
  | some (_ :: n :: e :: secret :: p :: q :: dp :: dq :: qInverse :: _) =>
    some (PrivateKey.ofRsa n e secret p q (some (dp, dq)) qInverse)
  | _ => none

/-- The RSA public key of two numbers. -/
def rsaPublic? (d : Der) : Option KeyFields :=
  match d.ints? with
  | some [n, e] => some (.rsa e n)
  | _ => none

/-- The public point among the optional parts of an EC private key. -/
def publicPoint? : List Der → Option Bytes
  | .tagged _ 1 (.bitString 0 point) :: _ => some point
  | _ => none

/-- The EC private key of SEC 1, which names its curve. -/
def ecPrivate? : Der → Option (Except KeyFault PrivateKey)
  | .sequence (version :: .octetString secret :: .tagged _ 0 parameters :: rest) =>
    if version.int? = some 1 then
      some (match curve? parameters with
        | some c => PrivateKey.ofCurve c (Bytes.toNat secret) (publicPoint? rest)
        | none => .error .invalid)
    else none
  | _ => none

/-- The private key of a structure of the family. -/
def ofPrivate? : Family → Der → Option (Except KeyFault PrivateKey)
  | .rsa, d => rsaPrivate? d
  | .dsa, d =>
    match d.ints? with
    | some [_, p, q, g, y, x] => some (PrivateKey.ofDsa p q g y x)
    | _ => none
  | .ec, d => ecPrivate? d
  | _, _ => none

/-- The public key of a structure of the family. -/
def ofPublic? : Family → Der → Option KeyFields
  | .rsa, d => rsaPublic? d
  | .dsa, d =>
    match d.ints? with
    | some [y, p, q, g] => some (.dsa p q g y)
    | _ => none
  | _, _ => none

/-! ### PKCS #8 -/

/-- The family and the parameters of an algorithm. -/
def algorithm? : Der → Option (Family × Option Der)
  | .sequence [.identifier id] => (Family.ofIdentifier? id).map (·, none)
  | .sequence [.identifier id, parameters] => (Family.ofIdentifier? id).map (·, some parameters)
  | _ => none

/-- Whether RSA parameters say nothing. -/
def isVoid : Option Der → Bool
  | none => true
  | some .null => true
  | _ => false

/-- The three numbers of DSA parameters. -/
def dsaParameters? (parameters : Option Der) : Option (Int × Int × Int) :=
  match parameters.bind Der.ints? with
  | some [p, q, g] => some (p, q, g)
  | _ => none

/-- The private key of an algorithm and the octets of a key. -/
def privateOf? (family : Family) (parameters : Option Der) (octets : Bytes) :
    Option (Except KeyFault PrivateKey) :=
  match family with
  | .rsa => if isVoid parameters then (Der.read? octets).bind rsaPrivate? else none
  | .dsa =>
    match dsaParameters? parameters, (Der.read? octets).bind Der.int? with
    | some (p, q, g), some x =>
      some (if p ≤ 0 then .error .badNumbers
        else PrivateKey.ofDsa p q g (Modular.pow p.toNat (g % p).toNat x.toNat) x)
    | _, _ => none
  | .ec =>
    match Der.read? octets with
    | some (.sequence (version :: .octetString secret :: rest)) =>
      if version.int? = some 1 then
        some (match parameters.bind curve? with
          | some c => PrivateKey.ofCurve c (Bytes.toNat secret) (publicPoint? rest)
          | none => .error .invalid)
      else none
    | _ => none
  | .ed25519 =>
    match Der.read? octets with
    | some (.octetString seed) => some (PrivateKey.ofSeed25519 seed)
    | _ => none
  | .ed448 =>
    match Der.read? octets with
    | some (.octetString seed) => some (PrivateKey.ofSeed448 seed)
    | _ => none

/-- The fields of an algorithm and the octets of a public key. -/
def publicOf? (family : Family) (parameters : Option Der) (octets : Bytes) : Option KeyFields :=
  match family with
  | .rsa => if isVoid parameters then (Der.read? octets).bind rsaPublic? else none
  | .dsa =>
    match dsaParameters? parameters, (Der.read? octets).bind Der.int? with
    | some (p, q, g), some y => some (.dsa p q g y)
    | _, _ => none
  | .ec => (parameters.bind curve?).map fun c => .ecdsa c.name octets
  | .ed25519 => some (.ed25519 octets)
  | .ed448 => some (.ed448 octets)

/-- The private key of a PKCS #8 structure. -/
def privateKey : Der → Except KeyFault PrivateKey
  | .sequence (version :: algorithm :: .octetString octets :: _) =>
    if version.int? = some 0 || version.int? = some 1 then
      match algorithm? algorithm with
      | some (family, parameters) => (privateOf? family parameters octets).getD (.error .invalid)
      | none => .error .invalid
    else .error .invalid
  | _ => .error .invalid

/-- The public key of its fields. -/
def ofFields (fields : Option KeyFields) : Except KeyFault PublicKey :=
  match fields with
  | some f => return .ofMaterial (← f.material?)
  | none => .error .invalid

/-- The public key of a PKCS #8 structure. -/
def publicKey : Der → Except KeyFault PublicKey
  | .sequence [algorithm, .bitString 0 octets] =>
    match algorithm? algorithm with
    | some (family, parameters) => ofFields (publicOf? family parameters octets)
    | none => .error .invalid
  | _ => .error .invalid

/-! ### Structures without a label -/

/-- The first outcome that is not the fault `invalid`. -/
def firstValid {α : Type} : List (Except KeyFault α) → Except KeyFault α
  | [] => .error .invalid
  | .error .invalid :: rest => firstValid rest
  | outcome :: _ => outcome

/-- The private key of a structure of any form. -/
def anyPrivateKey (d : Der) : Except KeyFault PrivateKey :=
  firstValid (privateKey d :: labelled.map fun f => (ofPrivate? f d).getD (.error .invalid))

/-- The public key of a structure of any form. -/
def anyPublicKey (d : Der) : Except KeyFault PublicKey :=
  firstValid (publicKey d :: labelled.map fun f => ofFields (ofPublic? f d))

/-- The outcome for the family of a label; a label that is no text is a fault of its
own. -/
def underLabel {α : Type} (label : Bytes) (read : Family → Except KeyFault α) : Except KeyFault α :=
  match Family.ofLabel? label with
  | some family => read family
  | none => .error (if label.all (· < 0x80) then .invalid else .badName)

/-- The private key of a structure in a PEM block. -/
def labelledPrivateKey (label : Bytes) (d : Der) : Except KeyFault PrivateKey :=
  if label.isEmpty then privateKey d
  else underLabel label fun f => (ofPrivate? f d).getD (.error .invalid)

/-- The public key of a structure in a PEM block. -/
def labelledPublicKey (label : Bytes) (d : Der) : Except KeyFault PublicKey :=
  if label.isEmpty then publicKey d
  else underLabel label fun f => ofFields (ofPublic? f d)

end SshAuthority.Pkcs
