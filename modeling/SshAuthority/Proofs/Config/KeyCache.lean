/-
SshAuthority/Proofs/Config/KeyCache.lean

Keys held over many calls, while the files change.

A call asks for the key of a path in one of two roles, or for a pair; between calls the
files may become anything. The two tables of the cache are read as one, with a place for
each role and path. A call for one key does nothing where the place is taken, and where it
is not it reads the file as it then is and holds what it read, if that is a key, under a
number that no handle has had; a pair is two such calls, of which the second is made if the
first comes to a key.

What carries the proof is what a call leaves alone and what it may add (`Loading.Grows`),
and that the numbers of the handles tell the places apart (`Loading.Regular`).

Main results: `grows_of_pair`, `regular_of_calls` and, from these, `handles_of_calls`.
-/
import SshAuthority.Proofs.Config.Regular

namespace SshAuthority

/-! ### Roles -/

/-- The keys of a role. -/
abbrev KeyHalf.Key : KeyHalf → Type
  | .privateHalf => PrivateKey
  | .publicHalf => PublicKey

/-- The algorithm of a key, whatever its role. -/
def KeyHalf.algorithm : (half : KeyHalf) → half.Key → KeyAlgorithm
  | .privateHalf => PrivateKey.algorithm
  | .publicHalf => PublicKey.algorithm

/-- The key of a role in a file. -/
def KeyFile.key : (half : KeyHalf) → FileTree → Text → Except Failure half.Key
  | .privateHalf => KeyFile.privateKey
  | .publicHalf => KeyFile.publicKey

/-- Loads the key of a role. -/
def Load.key : (half : KeyHalf) → FileTree → Text → Load (Handle half.Key)
  | .privateHalf => Load.privateKey
  | .publicHalf => Load.publicKey

/-- A key that a file has is of an algorithm that signs unattended. -/
theorem KeyFile.canSign_of_key {half : KeyHalf} {files : FileTree} {path : Text} {key : half.Key}
    (h : KeyFile.key half files path = .ok key) : (half.algorithm key).canSign = true := by
  rcases half
  · exact KeyAlgorithm.canSign_iff.mpr (of_keyOf .privateHalf h).2
  · exact KeyAlgorithm.canSign_iff.mpr (of_keyOf .publicHalf h).2

namespace Loading

/-! ### Places -/

/-- The handle that is held for a role and a path. -/
def held (s : Loading) : (half : KeyHalf) → Text → Option (Handle half.Key)
  | .privateHalf, path => Table.get? path s.cache.privateKeys
  | .publicHalf, path => Table.get? path s.cache.publicKeys

/-- The state after a key was read and put in its place. -/
def hold (s : Loading) : (half : KeyHalf) → Text → half.Key → Loading
  | .privateHalf, path, key =>
    { cache := { s.cache with privateKeys := s.cache.privateKeys.put path ⟨s.nextId, key⟩ }
      nextId := s.nextId + 1
      records := s.records ++ [{
        level := Log.Level.debug
        logger := Load.keyLogger
        message := "Loaded private key " ++ path }] }
  | .publicHalf, path, key =>
    { cache := { s.cache with publicKeys := s.cache.publicKeys.put path ⟨s.nextId, key⟩ }
      nextId := s.nextId + 1
      records := s.records ++ [{
        level := Log.Level.debug
        logger := Load.keyLogger
        message := "Loaded public key " ++ path }] }

variable {s s' s'' : Loading} {half half' : KeyHalf} {path path' : Text} {files : FileTree}

@[simp]
theorem nextId_hold (s : Loading) (half : KeyHalf) (path : Text) (key : half.Key) :
    (s.hold half path key).nextId = s.nextId + 1 := by
  rcases half <;> rfl

@[simp]
theorem held_hold_self (s : Loading) (half : KeyHalf) (path : Text) (key : half.Key) :
    (s.hold half path key).held half path = some ⟨s.nextId, key⟩ := by
  rcases half <;> exact Table.get?_put_self ..

/-- What is put in one place leaves the others alone. -/
theorem held_hold_of_ne (h : (half, path) ≠ (half', path')) (key : half.Key) :
    (s.hold half path key).held half' path' = s.held half' path' := by
  rcases half <;> rcases half'
  · exact Table.get?_put_of_ne (fun heq => h (by rw [heq])) ..
  · rfl
  · rfl
  · exact Table.get?_put_of_ne (fun heq => h (by rw [heq])) ..

end Loading

/-! ### Calls for one key -/

namespace Load

open Loading

variable {s : Loading} {half : KeyHalf} {files : FileTree} {path : Text}

/-- What a call for a key does: it takes the handle that is held, or else reads the file. -/
theorem run_key (half : KeyHalf) (files : FileTree) (path : Text) (s : Loading) :
    (key half files path).run.run s =
      match s.held half path with
      | some key => (.ok key, s)
      | none =>
        match KeyFile.key half files path with
        | .error f => (.error f, s)
        | .ok key => (.ok ⟨s.nextId, key⟩, s.hold half path key) := by
  rcases half
  · show (privateKey files path).run.run s = _
    rw [run_privateKey]
    unfold held KeyFile.key hold
    dsimp only
    rcases Table.get? path s.cache.privateKeys with - | key
    · rcases KeyFile.privateKey files path with f | key <;> rfl
    · rfl
  · show (publicKey files path).run.run s = _
    rw [run_publicKey]
    unfold held KeyFile.key hold
    dsimp only
    rcases Table.get? path s.cache.publicKeys with - | key
    · rcases KeyFile.publicKey files path with f | key <;> rfl
    · rfl

/-- Where a handle is held the call gives it, whatever the files are, and does nothing. -/
theorem run_key_of_held {key : Handle half.Key} (h : s.held half path = some key)
    (files : FileTree) : (Load.key half files path).run.run s = (.ok key, s) := by
  rw [run_key, h]

/-- Where none is held the call gives what the file has. -/
theorem map_run_key (h : s.held half path = none) (files : FileTree) :
    ((key half files path).run.run s).1.map (·.value) = KeyFile.key half files path := by
  rw [run_key, h]
  rcases KeyFile.key half files path with f | key <;> rfl

/-- A call for a key gives the handle that was held, or reads the file and holds what it read, or
finds no key there and does nothing. -/
theorem key_cases (half : KeyHalf) (files : FileTree) (path : Text) (s : Loading) :
    (∃ key, s.held half path = some key ∧ (Load.key half files path).run.run s = (.ok key, s)) ∨
    (∃ key, s.held half path = none ∧ KeyFile.key half files path = .ok key ∧
      (Load.key half files path).run.run s = (.ok ⟨s.nextId, key⟩, s.hold half path key)) ∨
    (∃ f, s.held half path = none ∧ KeyFile.key half files path = .error f ∧
      (Load.key half files path).run.run s = (.error f, s)) := by
  rw [run_key]
  rcases hheld : s.held half path with - | key
  · rcases hread : KeyFile.key half files path with f | key
    · exact .inr (.inr ⟨f, rfl, rfl, rfl⟩)
    · exact .inr (.inl ⟨key, rfl, rfl, rfl⟩)
  · exact .inl ⟨key, rfl, rfl⟩

end Load

/-! ### What calls add -/

namespace Loading

/-- What was held is held, and what is held besides is in the places named and was read from the
files. -/
structure Grows (files : FileTree) (places : List (KeyHalf × Text)) (s s' : Loading) : Prop where
  kept : ∀ half path key, s.held half path = some key → s'.held half path = some key
  added : ∀ half path key, s'.held half path = some key → s.held half path = some key ∨
    (half, path) ∈ places ∧ KeyFile.key half files path = .ok key.value

/-- The numbers of handles tell their places apart, the next number is that of none, and the keys
sign unattended. -/
structure Regular (s : Loading) : Prop where
  fresh : ∀ half path key, s.held half path = some key → key.id < s.nextId
  distinct : ∀ half path key half' path' key', s.held half path = some key →
    s.held half' path' = some key' → key.id = key'.id → half = half' ∧ path = path'
  supported : ∀ half path key, s.held half path = some key →
    (half.algorithm key.value).canSign = true

variable {s s' s'' : Loading} {half : KeyHalf} {path : Text} {files : FileTree}
  {places more : List (KeyHalf × Text)}

namespace Grows

theorem refl (files : FileTree) (places : List (KeyHalf × Text)) (s : Loading) :
    Grows files places s s where
  kept _ _ _ h := h
  added _ _ _ h := .inl h

theorem trans (h : Grows files places s s') (h' : Grows files more s' s'') :
    Grows files (places ++ more) s s'' where
  kept half path key hheld := h'.kept _ _ _ (h.kept _ _ _ hheld)
  added half path key hheld := by
    rcases h'.added _ _ _ hheld with hheld | ⟨hmem, hread⟩
    · exact (h.added _ _ _ hheld).imp_right fun ⟨hmem, hread⟩ =>
        ⟨List.mem_append_left more hmem, hread⟩
    · exact .inr ⟨List.mem_append_right places hmem, hread⟩

end Grows

theorem grows_hold {key : half.Key} (hheld : s.held half path = none)
    (hread : KeyFile.key half files path = .ok key) :
    Grows files [(half, path)] s (s.hold half path key) where
  kept half' path' key' h := by
    by_cases hplace : (half, path) = (half', path')
    · cases hplace
      rw [hheld] at h
      cases h
    · rw [held_hold_of_ne hplace]
      exact h
  added half' path' key' h := by
    by_cases hplace : (half, path) = (half', path')
    · cases hplace
      rw [held_hold_self] at h
      cases h
      exact .inr ⟨List.mem_singleton_self _, hread⟩
    · rw [held_hold_of_ne hplace] at h
      exact .inl h

/-- Before the first call. -/
theorem regular_start : Regular {} where
  fresh half _ _ h := by rcases half <;> cases h
  distinct half _ _ _ _ _ h := by rcases half <;> cases h
  supported half _ _ h := by rcases half <;> cases h

theorem Regular.hold {key : half.Key} (hs : s.Regular) (hsign : (half.algorithm key).canSign = true) :
    (s.hold half path key).Regular := by
  -- a handle is the new one in its place or was held
  have hcases {half' : KeyHalf} {path' : Text} {key' : Handle half'.Key}
      (h : (s.hold half path key).held half' path' = some key') :
      ((half, path) = (half', path') ∧ key'.id = s.nextId ∧
        (half'.algorithm key'.value).canSign = true) ∨ s.held half' path' = some key' := by
    by_cases hplace : (half, path) = (half', path')
    · cases hplace
      rw [held_hold_self] at h
      cases h
      exact .inl ⟨rfl, rfl, hsign⟩
    · rw [held_hold_of_ne hplace] at h
      exact .inr h
  constructor
  · intro half' path' key' h
    rw [nextId_hold]
    rcases hcases h with ⟨-, hid, -⟩ | h
    · exact hid ▸ Nat.lt_succ_self _
    · exact Nat.lt_succ_of_lt (hs.fresh _ _ _ h)
  · intro half₁ path₁ key₁ half₂ path₂ key₂ h₁ h₂ hid
    rcases hcases h₁ with ⟨hplace₁, hid₁, -⟩ | h₁ <;> rcases hcases h₂ with ⟨hplace₂, hid₂, -⟩ | h₂
    · exact Prod.mk.inj (hplace₁.symm.trans hplace₂)
    · exact absurd (hid.symm.trans hid₁) (Nat.ne_of_lt (hs.fresh _ _ _ h₂))
    · exact absurd (hid.trans hid₂) (Nat.ne_of_lt (hs.fresh _ _ _ h₁))
    · exact hs.distinct _ _ _ _ _ _ h₁ h₂ hid
  · intro half' path' key' h
    rcases hcases h with ⟨-, -, hsign⟩ | h
    · exact hsign
    · exact hs.supported _ _ _ h

end Loading

/-! ### Pairs -/

namespace Load

open Loading

variable {s : Loading} {half : KeyHalf} {files : FileTree} {path privatePath publicPath : Text}

theorem grows_of_key (half : KeyHalf) (files : FileTree) (path : Text) (s : Loading) :
    Grows files [(half, path)] s ((key half files path).run.run s).2 := by
  obtain ⟨key, -, hrun⟩ | ⟨key, hheld, hread, hrun⟩ | ⟨f, -, -, hrun⟩ := key_cases half files path s
  · rw [hrun]
    exact .refl ..
  · rw [hrun]
    exact grows_hold hheld hread
  · rw [hrun]
    exact .refl ..

theorem regular_of_key (hs : s.Regular) (half : KeyHalf) (files : FileTree) (path : Text) :
    ((key half files path).run.run s).2.Regular := by
  obtain ⟨key, -, hrun⟩ | ⟨key, -, hread, hrun⟩ | ⟨f, -, -, hrun⟩ := key_cases half files path s
  · rw [hrun]
    exact hs
  · rw [hrun]
    exact hs.hold (KeyFile.canSign_of_key hread)
  · rw [hrun]
    exact hs

/-- The handle that a call gives is held after it. -/
theorem held_of_key {key : Handle half.Key} {s' : Loading}
    (h : (Load.key half files path).run.run s = (.ok key, s')) : s'.held half path = some key := by
  obtain ⟨key', hheld, hrun⟩ | ⟨key', -, -, hrun⟩ | ⟨f, -, -, hrun⟩ := key_cases half files path s
  · cases hrun.symm.trans h
    exact hheld
  · cases hrun.symm.trans h
    exact held_hold_self ..
  · cases hrun.symm.trans h

/-- A call that fails leaves everything as it was, and has found no key in the file. -/
theorem of_key_error {f : Failure} (h : ((Load.key half files path).run.run s).1 = .error f) :
    (Load.key half files path).run.run s = (.error f, s) ∧ s.held half path = none ∧
      KeyFile.key half files path = .error f := by
  obtain ⟨key, -, hrun⟩ | ⟨key, -, -, hrun⟩ | ⟨f', hheld, hread, hrun⟩ :=
    key_cases half files path s
  · rw [hrun] at h
    cases h
  · rw [hrun] at h
    cases h
  · rw [hrun] at h
    cases h
    exact ⟨hrun, hheld, hread⟩

/-- What a call for a pair does: it calls for the private half and, if there is one, for the public
half, and gives them if they belong together. -/
theorem pair_cases (files : FileTree) (privatePath publicPath : Text) (s : Loading) :
    (∃ f, (key .privateHalf files privatePath).run.run s = (.error f, s) ∧
      (pair files privatePath publicPath).run.run s = (.error f, s)) ∨
    (∃ a s' f, (key .privateHalf files privatePath).run.run s = (.ok a, s') ∧
      (key .publicHalf files publicPath).run.run s' = (.error f, s') ∧
      (pair files privatePath publicPath).run.run s = (.error f, s')) ∨
    (∃ a s' b s'', (key .privateHalf files privatePath).run.run s = (.ok a, s') ∧
      (key .publicHalf files publicPath).run.run s' = (.ok b, s'') ∧
      (pair files privatePath publicPath).run.run s =
        (if a.value.blob = b.value.blob then .ok ⟨a, b⟩
          else .error (.keyFile (.mismatched privatePath publicPath)), s'')) := by
  unfold pair
  rw [run_bind]
  rcases hprivate : (privateKey files privatePath).run.run s with ⟨f | a, s'⟩
  · have hrun : (key .privateHalf files privatePath).run.run s = (.error f, s') := hprivate
    cases hrun.symm.trans (of_key_error (congrArg Prod.fst hrun)).1
    exact .inl ⟨f, hrun, rfl⟩
  · dsimp only
    rw [run_bind]
    rcases hpublic : (publicKey files publicPath).run.run s' with ⟨f | b, s''⟩
    · have hrun : (key .publicHalf files publicPath).run.run s' = (.error f, s'') := hpublic
      cases hrun.symm.trans (of_key_error (congrArg Prod.fst hrun)).1
      exact .inr (.inl ⟨a, s', f, hprivate, hrun, rfl⟩)
    · refine .inr (.inr ⟨a, s', b, s'', hprivate, hpublic, ?_⟩)
      dsimp only
      split <;> rfl

/-- A call for a pair adds at most its two halves, each as the files have it. -/
theorem grows_of_pair (files : FileTree) (privatePath publicPath : Text) (s : Loading) :
    Grows files [(.privateHalf, privatePath), (.publicHalf, publicPath)] s
      ((pair files privatePath publicPath).run.run s).2 := by
  have hprivate := grows_of_key .privateHalf files privatePath s
  obtain ⟨f, -, hrun⟩ | ⟨a, s', f, ha, -, hrun⟩ | ⟨a, s', b, s'', ha, hb, hrun⟩ :=
    pair_cases files privatePath publicPath s
  · rw [hrun]
    exact .refl ..
  · rw [hrun]
    rw [ha] at hprivate
    exact hprivate.trans (.refl files [(.publicHalf, publicPath)] s')
  · rw [hrun]
    rw [ha] at hprivate
    have hpublic := grows_of_key .publicHalf files publicPath s'
    rw [hb] at hpublic
    exact hprivate.trans hpublic

theorem regular_of_pair (hs : s.Regular) (files : FileTree) (privatePath publicPath : Text) :
    ((pair files privatePath publicPath).run.run s).2.Regular := by
  have hprivate := regular_of_key hs .privateHalf files privatePath
  obtain ⟨f, -, hrun⟩ | ⟨a, s', f, ha, -, hrun⟩ | ⟨a, s', b, s'', ha, hb, hrun⟩ :=
    pair_cases files privatePath publicPath s
  · rw [hrun]
    exact hs
  · rw [hrun]
    rw [ha] at hprivate
    exact hprivate
  · rw [hrun]
    rw [ha] at hprivate
    have hpublic := regular_of_key hprivate .publicHalf files publicPath
    rw [hb] at hpublic
    exact hpublic

/-- The halves of a pair are the handles held for the two paths, and belong together. -/
theorem held_of_pair {p : KeyPair} {s' : Loading}
    (h : (pair files privatePath publicPath).run.run s = (.ok p, s')) :
    s'.held .privateHalf privatePath = some p.privateKey ∧
      s'.held .publicHalf publicPath = some p.publicKey ∧
      p.privateKey.value.blob = p.publicKey.value.blob := by
  obtain ⟨f, -, hrun⟩ | ⟨a, s₁, f, -, -, hrun⟩ | ⟨a, s₁, b, s₂, ha, hb, hrun⟩ :=
    pair_cases files privatePath publicPath s
  · cases hrun.symm.trans h
  · cases hrun.symm.trans h
  · rw [hrun] at h
    obtain ⟨h, rfl⟩ := Prod.mk.inj h
    split at h
    · next hblob =>
      cases h
      have hkept := grows_of_key .publicHalf files publicPath s₁
      rw [hb] at hkept
      exact ⟨hkept.kept _ _ _ (held_of_key ha), held_of_key hb, hblob⟩
    · cases h

end Load

/-! ### Runs -/

/-- A call on the cache. -/
inductive KeyCall where
  | key (half : KeyHalf) (path : Text)
  | pair (privatePath publicPath : Text)

/-- The places that a call names. -/
def KeyCall.places : KeyCall → List (KeyHalf × Text)
  | .key half path => [(half, path)]
  | .pair privatePath publicPath => [(.privateHalf, privatePath), (.publicHalf, publicPath)]

namespace Loading

variable {s s' : Loading}

/-- The state after a call, with the files as they are then. -/
def after (s : Loading) : FileTree × KeyCall → Loading
  | (files, .key half path) => ((Load.key half files path).run.run s).2
  | (files, .pair privatePath publicPath) =>
    ((Load.pair files privatePath publicPath).run.run s).2

/-- The state after calls, each with files of its own. -/
def afterAll (s : Loading) (calls : List (FileTree × KeyCall)) : Loading := calls.foldl after s

theorem grows_of_call (s : Loading) (files : FileTree) (call : KeyCall) :
    Grows files call.places s (s.after (files, call)) := by
  rcases call with ⟨half, path⟩ | ⟨privatePath, publicPath⟩
  · exact Load.grows_of_key half files path s
  · exact Load.grows_of_pair files privatePath publicPath s

theorem regular_of_call (hs : s.Regular) (call : FileTree × KeyCall) : (s.after call).Regular := by
  obtain ⟨files, ⟨half, path⟩ | ⟨privatePath, publicPath⟩⟩ := call
  · exact Load.regular_of_key hs half files path
  · exact Load.regular_of_pair hs files privatePath publicPath

/-- What is held stays so, whatever is called for and whatever the files become. -/
theorem kept_of_calls {half : KeyHalf} {path : Text} {key : Handle half.Key}
    (h : s.held half path = some key) (calls : List (FileTree × KeyCall)) :
    (s.afterAll calls).held half path = some key := by
  induction calls generalizing s with
  | nil => exact h
  | cons call calls ih => exact ih ((grows_of_call s call.1 call.2).kept _ _ _ h)

theorem regular_of_calls (hs : s.Regular) (calls : List (FileTree × KeyCall)) :
    (s.afterAll calls).Regular := by
  induction calls generalizing s with
  | nil => exact hs
  | cons call calls ih => exact ih (regular_of_call hs call)

/-- Handles over any calls on a cache that was empty, with the files changing at will. A handle that
is held is given to every later call for its path in its role. No two paths and no two roles of a
path have one handle in common, and all keys are of supported algorithms. A call for a key gives the
handle that it then holds, or fails, and has then found none held and left everything as it was; and
as long as none is held, it reads the file as it is. A call for a pair leaves what is held and adds
at most those of its halves that the files have, and what it gives are the handles held for its two
paths, with equal encodings. -/
theorem handles_of_calls (calls : List (FileTree × KeyCall)) (s : Loading)
    (hs : s = afterAll {} calls) :
    (∀ half path key, s.held half path = some key → ∀ later files,
      (Load.key half files path).run.run (s.afterAll later) = (.ok key, s.afterAll later)) ∧
    (∀ half path key half' path' key', s.held half path = some key →
      s.held half' path' = some key' → (half, path) ≠ (half', path') → key.id ≠ key'.id) ∧
    (∀ half path key, s.held half path = some key →
      (half.algorithm key.value).canSign = true) ∧
    (∀ half files path key s', (Load.key half files path).run.run s = (.ok key, s') →
      s'.held half path = some key) ∧
    (∀ half files path f s', (Load.key half files path).run.run s = (.error f, s') →
      s.held half path = none ∧ s' = s) ∧
    (∀ half path, s.held half path = none → ∀ files,
      ((Load.key half files path).run.run s).1.map (·.value) = KeyFile.key half files path) ∧
    (∀ files privatePath publicPath,
      Grows files [(.privateHalf, privatePath), (.publicHalf, publicPath)] s
        ((Load.pair files privatePath publicPath).run.run s).2) ∧
    ∀ files privatePath publicPath p s',
      (Load.pair files privatePath publicPath).run.run s = (.ok p, s') →
        s'.held .privateHalf privatePath = some p.privateKey ∧
          s'.held .publicHalf publicPath = some p.publicKey ∧
          p.privateKey.value.blob = p.publicKey.value.blob := by
  -- the invariant of every cache that calls have made
  have hregular : s.Regular := hs ▸ regular_of_calls regular_start calls
  refine ⟨fun half path key hheld later files => ?_,
    fun half path key half' path' key' hheld hheld' hne hid => ?_,
    hregular.supported, fun half files path key s' => Load.held_of_key,
    fun half files path f s' hrun => ?_, fun half path hheld files => Load.map_run_key hheld files,
    fun files privatePath publicPath => Load.grows_of_pair files privatePath publicPath s,
    fun files privatePath publicPath p s' => Load.held_of_pair⟩
  · exact Load.run_key_of_held (kept_of_calls hheld later) files
  · exact hne (Prod.ext_iff.mpr (hregular.distinct _ _ _ _ _ _ hheld hheld' hid))
  · obtain ⟨hstate, hheld, -⟩ := Load.of_key_error (congrArg Prod.fst hrun)
    exact ⟨hheld, congrArg Prod.snd (hrun.symm.trans hstate)⟩

/-- After a call for a pair its two halves have handles of their own, and when the files are gone the
public one is still given. -/
theorem handles_sample :
    ∃ a b, (afterAll {} [(Service.Sample.files, .pair "ca" "ca.pub")]).held .privateHalf "ca" =
        some a ∧
      (afterAll {} [(Service.Sample.files, .pair "ca" "ca.pub")]).held .publicHalf "ca.pub" =
        some b ∧
      a.id ≠ b.id ∧
      ((Load.key .publicHalf ⟨[], ⟨"/root", []⟩, []⟩ "ca.pub").run.run
        (afterAll {} [(Service.Sample.files, .pair "ca" "ca.pub")])).1 = .ok b := by
  obtain ⟨a, ha⟩ : ∃ a, (afterAll {} [(Service.Sample.files, .pair "ca" "ca.pub")]).held
      .privateHalf "ca" = some a :=
    Option.isSome_iff_exists.mp (by decide +kernel)
  obtain ⟨b, hb⟩ : ∃ b, (afterAll {} [(Service.Sample.files, .pair "ca" "ca.pub")]).held
      .publicHalf "ca.pub" = some b :=
    Option.isSome_iff_exists.mp (by decide +kernel)
  generalize hs : afterAll {} [(Service.Sample.files, .pair "ca" "ca.pub")] = s at ha hb ⊢
  obtain ⟨hkept, hdistinct, -⟩ := handles_of_calls _ s hs.symm
  exact ⟨a, b, ha, hb, hdistinct _ _ _ _ _ _ ha hb (by simp),
    congrArg Prod.fst (hkept _ _ _ hb [] _)⟩

end Loading

end SshAuthority
