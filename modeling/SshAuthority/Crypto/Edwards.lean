/-
SshAuthority/Crypto/Edwards.lean

Signatures on twisted Edwards curves: Ed25519 and Ed448.

Both schemes are one scheme with different numbers and hash functions, so they
are two values of `Edwards.Scheme`. A point is encoded by its second coordinate,
least significant octet first, with the lowest bit of the first coordinate in the
topmost bit. A secret key is a seed, from which the secret number and a prefix
for one-time numbers are hashed; signing is therefore a function.
-/
import SshAuthority.Crypto.Modular
import SshAuthority.Crypto.Shake

namespace SshAuthority.Edwards

/-- The numbers and functions of a signature scheme on `a·x² + y² = 1 + d·x²·y²`. -/
structure Scheme where
  /-- The field prime. -/
  p : Nat
  a : Nat
  d : Nat
  /-- The generator. -/
  gx : Nat
  gy : Nat
  /-- The order of the generator. -/
  order : Nat
  /-- Octets of a seed, of a point and of half a hash. -/
  size : Nat
  /-- The hash function for seeds. -/
  seedHash : Bytes → Bytes
  /-- The hash function for messages. -/
  hash : Bytes → Bytes
  /-- The secret number in the first half of a hashed seed. -/
  clamp : Nat → Nat
  /-- A first coordinate with `x² = num / den`, if there is one. -/
  root? : (num den : Nat) → Option Nat

/-- A point in projective coordinates. -/
structure Point where
  x : Nat
  y : Nat
  z : Nat

/-- The neutral element. -/
def Point.zero : Point := ⟨0, 1, 1⟩

/-- The sum of two points; the formula needs no cases. -/
def add (c : Scheme) (q r : Point) : Point :=
  let p := c.p
  let zz := q.z * r.z % p
  let b := zz * zz % p
  let xx := q.x * r.x % p
  let yy := q.y * r.y % p
  let e := c.d * (xx * yy % p) % p
  let f := Modular.sub p b e
  let g := (b + e) % p
  let cross := Modular.sub p ((q.x + q.y) * (r.x + r.y)) (xx + yy)
  ⟨zz * f % p * cross % p, zz * g % p * Modular.sub p yy (c.a * xx) % p, f * g % p⟩

/-- The multiple of a point by a number. -/
def multiple (c : Scheme) (k : Nat) (q : Point) : Point :=
  if k = 0 then .zero
  else
    let half := multiple c (k / 2) q
    let whole := add c half half
    if k % 2 = 1 then add c whole q else whole
termination_by k
decreasing_by omega

/-- The generator. -/
def generator (c : Scheme) : Point := ⟨c.gx, c.gy, 1⟩

/-- The encoding of a point. -/
def encode (c : Scheme) (q : Point) : Bytes :=
  let i := Modular.inverse c.p q.z
  let x := q.x * i % c.p
  let y := q.y * i % c.p
  Bytes.ofNatLE c.size (y + (x % 2) * 2 ^ (8 * c.size - 1))

/-- The point an octet string encodes, if there is one. -/
def decode? (c : Scheme) (b : Bytes) : Option Point :=
  let n := Bytes.toNatLE b
  let top := 2 ^ (8 * c.size - 1)
  let y := n % top % c.p
  let yy := y * y % c.p
  (c.root? (Modular.sub c.p yy 1) (Modular.sub c.p (c.d * yy) c.a)).map fun x =>
    ⟨if x % 2 = n / top % 2 then x else (c.p - x) % c.p, y, 1⟩

/-- The secret number and the prefix of a seed. -/
def expandSeed (c : Scheme) (seed : Bytes) : Nat × Bytes :=
  let h := c.seedHash seed
  (c.clamp (Bytes.toNatLE (h.take c.size)), h.drop c.size)

/-- The public key of a seed. -/
def publicKey (c : Scheme) (seed : Bytes) : Bytes :=
  encode c (multiple c (expandSeed c seed).1 (generator c))

/-- The signature of a message. -/
def sign (c : Scheme) (seed message : Bytes) : Bytes :=
  let (secret, lead) := expandSeed c seed
  let own := encode c (multiple c secret (generator c))
  let r := Bytes.toNatLE (c.hash (lead ++ message)) % c.order
  let point := encode c (multiple c r (generator c))
  let k := Bytes.toNatLE (c.hash (point ++ own ++ message)) % c.order
  point ++ Bytes.ofNatLE c.size ((r + k * secret) % c.order)

/-- Whether a signature signs a message under a public key. -/
def verify (c : Scheme) (key message signature : Bytes) : Bool :=
  if signature.length ≠ 2 * c.size then false
  else
    let point := signature.take c.size
    let s := Bytes.toNatLE (signature.drop c.size)
    if c.order ≤ s then false
    else match decode? c key with
      | none => false
      | some a =>
        let k := Bytes.toNatLE (c.hash (point ++ key ++ message)) % c.order
        let minus : Point := ⟨(c.p - a.x) % c.p, a.y, a.z⟩
        encode c (add c (multiple c s (generator c)) (multiple c k minus)) = point

/-! ### The two schemes -/

/-- The field prime of Ed25519. -/
def prime25519 : Nat := 2 ^ 255 - 19

/-- A square root of `num / den` modulo the prime of Ed25519. -/
def root25519? (num den : Nat) : Option Nat :=
  let p := prime25519
  let x := num * Modular.inverse p den % p
  let r := Modular.pow p x ((p + 3) / 8)
  let turned := r * Modular.pow p 2 ((p - 1) / 4) % p
  if r * r % p = x then some r
  else if turned * turned % p = x then some turned
  else none

/-- Ed25519. -/
def ed25519 : Scheme where
  p := prime25519
  a := prime25519 - 1
  d := 0x52036cee2b6ffe738cc740797779e89800700a4d4141d8ab75eb4dca135978a3
  gx := 0x216936d3cd6e53fec0a4e231fdd6dc5c692cc7609525a7b2c9562d608f25d51a
  gy := 0x6666666666666666666666666666666666666666666666666666666666666658
  order := 2 ^ 252 + 27742317777372353535851937790883648493
  size := 32
  seedHash := Sha2.sha512
  hash := Sha2.sha512
  clamp := fun n => n % 2 ^ 254 / 8 * 8 + 2 ^ 254
  root? := root25519?

/-- The field prime of Ed448. -/
def prime448 : Nat := 2 ^ 448 - 2 ^ 224 - 1

/-- What Ed448 hashes before everything else of a message. -/
def domain448 : Bytes := Bytes.ofString "SigEd448" ++ [0, 0]

/-- Ed448. -/
def ed448 : Scheme where
  p := prime448
  a := 1
  d := prime448 - 39081
  gx := 0x4f1970c66bed0ded221d15a622bf36da9e146570470f1767ea6de324a3d3a46412ae1af72ab66511433b80e18b00938e2626a82bc70cc05e
  gy := 0x693f46716eb6bc248876203756c9c7624bea73736ca3984087789c1e05a0c2d73ad3ff1ce67c39c4fdbd132c4ed7c8ad9808795bf230fa14
  order := 2 ^ 446 - 13818066809895115352007386748515426880336692474882178609894547503885
  size := 57
  seedHash := Shake.shake256 114
  hash := fun message => Shake.shake256 114 (domain448 ++ message)
  clamp := fun n => n % 2 ^ 447 / 4 * 4 + 2 ^ 447
  root? := fun num den => Modular.sqrt? prime448 (num * Modular.inverse prime448 den % prime448)

end SshAuthority.Edwards
