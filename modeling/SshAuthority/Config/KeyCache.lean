/-
SshAuthority/Config/KeyCache.lean

Keys loaded from files, each path once.

A key that was loaded is held by a handle, and every further mention of its path
gets the same handle, whatever the file has become. Two handles with one number
are one. Loading can fail at any point; what was loaded until then stays loaded,
and so do the records of it.
-/
import SshAuthority.Failure
import SshAuthority.Key.Import
import SshAuthority.Log.Record
import SshAuthority.Table

namespace SshAuthority

/-- A value with the number by which it is told from others. -/
structure Handle (α : Type) where
  id : Nat
  value : α
  deriving DecidableEq

/-- The keys that are loaded, by path. -/
structure KeyCache where
  publicKeys : Table (Handle PublicKey) := []
  privateKeys : Table (Handle PrivateKey) := []

/-- What loading has done: the keys loaded, the number of the next handle, and the
records written. -/
structure Loading where
  cache : KeyCache := {}
  nextId : Nat := 0
  records : List Log.Record := []

/-- A step of loading. -/
abbrev Load := ExceptT Failure (StateM Loading)

/-! ### Key files -/

namespace KeyFile

/-- The defect that a fault is where it is no error of the service. -/
def defect : KeyFault → Defect
  | .invalid => .badKey
  | .badNumbers => .badValue
  | .badName => .undecodable

/-- The octets of a key file. A leading `~` or `~user` is a home directory. -/
def octets (files : FileTree) (half : KeyHalf) (path : Text) : Except Failure Bytes := do
  let opened ← ((Path.ofText path).expandHome files.homes).mapError .defect
  (files.read opened).mapError fun
    | .refused fault opened => .keyFile (.unreadable half path fault opened)
    | .unusable d => .defect d

/-- The failure that a fault in a key file is. -/
def failure (half : KeyHalf) (path : Text) : KeyFault → Failure
  | .invalid => .keyFile (.malformed half path)
  | fault => .defect (defect fault)

/-- Refuses keys of algorithms that do not sign unattended. -/
def supported (algorithm : KeyAlgorithm) (path : Text) : Except Failure Unit :=
  if algorithm.canSign then .ok () else .error (.keyFile (.unsupported algorithm path))

/-- The public key in a file. -/
def publicKey (files : FileTree) (path : Text) : Except Failure PublicKey := do
  let key ← (PublicKey.ofBytes (← octets files .publicHalf path)).mapError
    (failure .publicHalf path)
  supported key.algorithm path
  return key

/-- The private key in a file. -/
def privateKey (files : FileTree) (path : Text) : Except Failure PrivateKey := do
  let key ← (PrivateKey.ofBytes (← octets files .privateHalf path)).mapError
    (failure .privateHalf path)
  supported key.algorithm path
  return key

end KeyFile

/-! ### Loading -/

namespace Load

/-- Writes a record. -/
def record (level : Log.Level) (logger message : Text) : Load Unit :=
  modify fun s => { s with records := s.records ++ [{ level, logger, message }] }

/-- A new handle on a value. -/
def handle {α : Type} (value : α) : Load (Handle α) := do
  let id := (← get).nextId
  modify fun s => { s with nextId := s.nextId + 1 }
  return ⟨id, value⟩

/-- The logger of this module. -/
def keyLogger : Text := "oinit_ca.keys"

/-- Loads a public key, whether or not it is loaded. -/
def freshPublicKey (files : FileTree) (path : Text) : Load (Handle PublicKey) := do
  handle (← (KeyFile.publicKey files path : Except Failure PublicKey))

/-- Loads a private key, whether or not it is loaded. -/
def freshPrivateKey (files : FileTree) (path : Text) : Load (Handle PrivateKey) := do
  handle (← (KeyFile.privateKey files path : Except Failure PrivateKey))

/-- The public key of a path. -/
def publicKey (files : FileTree) (path : Text) : Load (Handle PublicKey) := do
  match Table.get? path (← get).cache.publicKeys with
  | some key => return key
  | none =>
    let key ← freshPublicKey files path
    modify fun s =>
      { s with cache := { s.cache with publicKeys := s.cache.publicKeys.put path key } }
    record Log.Level.debug keyLogger ("Loaded public key " ++ path)
    return key

/-- The private key of a path. -/
def privateKey (files : FileTree) (path : Text) : Load (Handle PrivateKey) := do
  match Table.get? path (← get).cache.privateKeys with
  | some key => return key
  | none =>
    let key ← freshPrivateKey files path
    modify fun s =>
      { s with cache := { s.cache with privateKeys := s.cache.privateKeys.put path key } }
    record Log.Level.debug keyLogger ("Loaded private key " ++ path)
    return key

end Load

/-! ### Pairs -/

/-- The two halves of a key. -/
structure KeyPair where
  privateKey : Handle PrivateKey
  publicKey : Handle PublicKey
  deriving DecidableEq

namespace KeyPair

/-- The algorithm of the pair. -/
def algorithm (p : KeyPair) : KeyAlgorithm := p.publicKey.value.algorithm

/-- The line of the public half; its comment has to be ASCII. -/
def publicText (p : KeyPair) : Except Defect Text :=
  match Bytes.toAscii? p.publicKey.value.line with
  | some t => .ok t.trim
  | none => .error .undecodable

end KeyPair

/-- The pair of two paths, whose keys have to belong together. -/
def Load.pair (files : FileTree) (privatePath publicPath : Text) : Load KeyPair := do
  let privateKey ← Load.privateKey files privatePath
  let publicKey ← Load.publicKey files publicPath
  if privateKey.value.blob = publicKey.value.blob then return { privateKey, publicKey }
  else throw (.keyFile (.mismatched privatePath publicPath))

end SshAuthority
