/-
SshAuthority/Proofs/Config/Plan.lean

Loading without a cache.

A key that is held was read from the same files, so what loading comes to is what it
would come to if it read every key anew: the cache decides on the handles, not on the
keys. A step of loading follows a computation without a state (`Load.Follows`) if from
every state whose keys are those in the files it comes to the same outcome, the numbers
of handles left out, and to such a state again. The steps of a whole follow those of the
other one by one.

Main results: `outcome_of_parse` and `outcome_of_load`.
-/
import SshAuthority.Proofs.Config.Load
import SshAuthority.Proofs.Table

namespace SshAuthority

/-! ### Computations without a cache -/

/-- The pair without the numbers of its handles. -/
def KeyPair.plain (p : KeyPair) : KeyPair := ⟨⟨0, p.privateKey.value⟩, ⟨0, p.publicKey.value⟩⟩

/-- The group without the numbers of its handles. -/
def HostGroup.plain (g : HostGroup) : HostGroup :=
  { g with hostKeys := g.hostKeys.plain, userKeys := g.userKeys.plain }

/-- The configuration without the numbers of its handles. -/
def Config.plain (c : Config) : Config := ⟨c.groups.map HostGroup.plain⟩

/-- The pair of two files, whose keys have to belong together. -/
def KeyFile.pair (files : FileTree) (privatePath publicPath : Text) : Except Failure KeyPair := do
  let privateKey ← KeyFile.privateKey files privatePath
  let publicKey ← KeyFile.publicKey files publicPath
  if privateKey.blob = publicKey.blob then return ⟨⟨0, privateKey⟩, ⟨0, publicKey⟩⟩
  else throw (.keyFile (.mismatched privatePath publicPath))

namespace Config

/-- The group of a section. -/
def planGroup (files : FileTree) (d : Ini.Document) (name : Text) : Except Failure HostGroup := do
  let (settings, duration, hosts) ← (outline d name).mapError .config
  let hostKeys ← KeyFile.pair files settings.hostPrivate settings.hostPublic
  let userKeys ← KeyFile.pair files settings.userPrivate settings.userPublic
  let _ ← (validityText duration).mapError .defect
  return { name, hostKeys, userKeys, validity := settings.validity, duration, hosts }

/-- The configuration of a text. -/
def plan (files : FileTree) (text : Text) : Except Failure Config :=
  match Ini.read text with
  | .error lines => .error (.config (.unparsable lines))
  | .ok d => do return ⟨← (d.names.filter (· ≠ Ini.initialName)).mapM (planGroup files d)⟩

/-- The configuration of a file. -/
def planFile (files : FileTree) (path : Text) : Except Failure Config := do
  plan files (← fileText files path)

end Config

/-! ### Steps that follow them -/

/-- The keys that are held are those in the files. -/
structure Loading.Agrees (files : FileTree) (s : Loading) : Prop where
  publicKeys : ∀ path key, Table.get? path s.cache.publicKeys = some key →
    KeyFile.publicKey files path = .ok key.value
  privateKeys : ∀ path key, Table.get? path s.cache.privateKeys = some key →
    KeyFile.privateKey files path = .ok key.value

theorem Loading.agrees_start (files : FileTree) : Loading.Agrees files {} where
  publicKeys _ _ h := by cases h
  privateKeys _ _ h := by cases h

namespace Load

variable {α β γ δ : Type} {files : FileTree}

/-- Where the keys held are those in the files, the step comes to what the computation does, seen
through `view`, and leaves them so. -/
def Follows (files : FileTree) (m : Load α) (view : α → β) (x : Except Failure β) : Prop :=
  ∀ s, Loading.Agrees files s →
    Loading.Agrees files (m.run.run s).2 ∧ (m.run.run s).1.map view = x

namespace Follows

theorem pure (a : α) (view : α → β) : Follows files (pure a) view (.ok (view a)) :=
  fun _ hs => ⟨hs, rfl⟩

theorem throw (f : Failure) (view : α → β) : Follows files (throw f) view (.error f) :=
  fun _ hs => ⟨hs, rfl⟩

theorem lift (x : Except Failure α) : Follows files (liftM x) id x := by
  intro s hs
  refine ⟨hs, ?_⟩
  rcases x with f | a <;> rfl

/-- A record makes no difference to what comes after it. -/
theorem record (level : Log.Level) (logger message : Text) {next : Load α} {view : α → β}
    {x : Except Failure β} (h : Follows files next view x) :
    Follows files (Load.record level logger message >>= fun _ => next) view x := by
  intro s hs
  rw [run_bind]
  exact h _ ⟨hs.publicKeys, hs.privateKeys⟩

theorem bind {m : Load α} {view : α → β} {x : Except Failure β} {next : α → Load γ}
    {view' : γ → δ} {y : β → Except Failure δ} (hm : Follows files m view x)
    (hnext : ∀ a, Follows files (next a) view' (y (view a))) :
    Follows files (m >>= next) view' (x >>= y) := by
  intro s hs
  obtain ⟨hs', hx⟩ := hm s hs
  rw [run_bind]
  rcases hrun : m.run.run s with ⟨f | a, s'⟩ <;> rw [hrun] at hs' hx <;> subst hx
  · exact ⟨hs', rfl⟩
  · exact hnext a s' hs'

theorem mapM {next : α → Load β} {view : β → γ} {y : α → Except Failure γ}
    (h : ∀ a, Follows files (next a) view (y a)) (l : List α) :
    Follows files (l.mapM next) (List.map view) (l.mapM y) := by
  induction l with
  | nil => exact .pure [] _
  | cons a l ih =>
    rw [List.mapM_cons, List.mapM_cons]
    exact (h a).bind fun b => ih.bind fun bs => .pure (b :: bs) _

end Follows

/-! ### Keys -/

/-- What loading a public key does: it takes the one that is held, or else reads it and holds it
under a new number. -/
theorem run_publicKey (files : FileTree) (path : Text) (s : Loading) :
    (publicKey files path).run.run s =
      match Table.get? path s.cache.publicKeys with
      | some key => (.ok key, s)
      | none =>
        match KeyFile.publicKey files path with
        | .error f => (.error f, s)
        | .ok key =>
          (.ok ⟨s.nextId, key⟩,
            { cache := { s.cache with
                publicKeys := s.cache.publicKeys.put path ⟨s.nextId, key⟩ }
              nextId := s.nextId + 1
              records := s.records ++ [{
                level := Log.Level.debug
                logger := keyLogger
                message := "Loaded public key " ++ path }] }) := by
  unfold publicKey
  rw [run_bind]
  show (match Table.get? path s.cache.publicKeys with
    | some key => pure key
    | none => _ : Load (Handle PublicKey)).run.run s = _
  rcases Table.get? path s.cache.publicKeys with - | key
  · dsimp only
    rw [run_bind]
    unfold freshPublicKey
    rw [run_bind]
    rcases KeyFile.publicKey files path with f | key <;> rfl
  · rfl

/-- What loading a private key does. -/
theorem run_privateKey (files : FileTree) (path : Text) (s : Loading) :
    (privateKey files path).run.run s =
      match Table.get? path s.cache.privateKeys with
      | some key => (.ok key, s)
      | none =>
        match KeyFile.privateKey files path with
        | .error f => (.error f, s)
        | .ok key =>
          (.ok ⟨s.nextId, key⟩,
            { cache := { s.cache with
                privateKeys := s.cache.privateKeys.put path ⟨s.nextId, key⟩ }
              nextId := s.nextId + 1
              records := s.records ++ [{
                level := Log.Level.debug
                logger := keyLogger
                message := "Loaded private key " ++ path }] }) := by
  unfold privateKey
  rw [run_bind]
  show (match Table.get? path s.cache.privateKeys with
    | some key => pure key
    | none => _ : Load (Handle PrivateKey)).run.run s = _
  rcases Table.get? path s.cache.privateKeys with - | key
  · dsimp only
    rw [run_bind]
    unfold freshPrivateKey
    rw [run_bind]
    rcases KeyFile.privateKey files path with f | key <;> rfl
  · rfl

theorem follows_publicKey (files : FileTree) (path : Text) :
    Follows files (publicKey files path) (·.value) (KeyFile.publicKey files path) := by
  intro s hs
  rw [run_publicKey]
  rcases hheld : Table.get? path s.cache.publicKeys with - | key
  · rcases hread : KeyFile.publicKey files path with f | key
    · exact ⟨hs, rfl⟩
    · refine ⟨⟨fun other held h => ?_, hs.privateKeys⟩, rfl⟩
      obtain ⟨rfl, rfl⟩ | h := Table.of_get?_put h
      · exact hread
      · exact hs.publicKeys other held h
  · exact ⟨hs, (hs.publicKeys path key hheld).symm⟩

theorem follows_privateKey (files : FileTree) (path : Text) :
    Follows files (privateKey files path) (·.value) (KeyFile.privateKey files path) := by
  intro s hs
  rw [run_privateKey]
  rcases hheld : Table.get? path s.cache.privateKeys with - | key
  · rcases hread : KeyFile.privateKey files path with f | key
    · exact ⟨hs, rfl⟩
    · refine ⟨⟨hs.publicKeys, fun other held h => ?_⟩, rfl⟩
      obtain ⟨rfl, rfl⟩ | h := Table.of_get?_put h
      · exact hread
      · exact hs.privateKeys other held h
  · exact ⟨hs, (hs.privateKeys path key hheld).symm⟩

theorem follows_pair (files : FileTree) (privatePath publicPath : Text) :
    Follows files (pair files privatePath publicPath) KeyPair.plain
      (KeyFile.pair files privatePath publicPath) := by
  refine (follows_privateKey files privatePath).bind fun privateKey =>
    (follows_publicKey files publicPath).bind fun publicKey => ?_
  split
  · exact .pure (KeyPair.mk privateKey publicKey) _
  · exact .throw _ _

end Load

/-! ### Configurations -/

namespace Config

theorem follows_group (files : FileTree) (d : Ini.Document) (name : Text) :
    Load.Follows files (group files d name) HostGroup.plain (planGroup files d name) := by
  refine (Load.Follows.lift _).bind fun (settings, duration, hosts) => ?_
  refine (Load.follows_pair _ _ _).bind fun hostKeys => ?_
  refine (Load.follows_pair _ _ _).bind fun userKeys => ?_
  refine (Load.Follows.lift _).bind fun validity => ?_
  exact .record _ _ _ (.pure _ _)

/-- Building a configuration comes to the same without a cache. -/
theorem follows_parse (files : FileTree) (text : Text) :
    Load.Follows files (parse files text) plain (plan files text) := by
  unfold parse plan
  rcases Ini.read text with lines | d
  · exact .throw _ _
  · exact (Load.Follows.mapM (follows_group files d) _).bind fun groups => .pure _ _

/-- What comes of a text, the numbers of handles left out, is what comes of it without a cache. -/
theorem outcome_of_parse (files : FileTree) (text : Text) :
    ((parse files text).run.run {}).1.map plain = plan files text :=
  (follows_parse files text {} (Loading.agrees_start files)).2

/-- What comes of a file, the numbers of handles left out, is what comes of it without a cache. -/
theorem outcome_of_load (files : FileTree) (path : Text) :
    ((load files path).run.run {}).1.map plain = planFile files path := by
  have hfollows : Load.Follows files (load files path) plain (planFile files path) := by
    refine (Load.Follows.lift _).bind fun text => ?_
    have hreturn : plan files text = plan files text >>= .ok := by
      rcases plan files text with f | c <;> rfl
    rw [id, hreturn]
    exact (follows_parse files text).bind fun config => .record _ _ _ (.pure _ _)
  exact (hfollows {} (Loading.agrees_start files)).2

end Config

end SshAuthority
