/-
SshAuthority/Proofs/Config/Fault.lean

How loading fails.

Most of what can be wrong with a configuration or a key file has an error of its own. The
rest passes through as a defect: a path that cannot be handed to the system, octets that
are no text, a key with numbers that no key has, seconds that are too many to be written.
Where that is, and which defect it is, is said part by part (`Breaks`), in the order in
which the parts are loaded; a section counts only if all sections before it are groups.

Main results: `load_eq_defect_iff`, and `ofLoading_of_load`, that there is nothing but the
errors of the configuration, those of key files, and defects.
-/
import SshAuthority.Proofs.Config.Group

namespace SshAuthority

/-! ### Where defects come from -/

namespace KeyFile

variable {α : Type}

/-- The key in a file, of either half. -/
def keyOf (files : FileTree) (half : KeyHalf) (parse : Bytes → Except KeyFault α)
    (algorithm : α → KeyAlgorithm) (path : Text) : Except Failure α := do
  let key ← (parse (← octets files half path)).mapError (failure half path)
  supported (algorithm key) path
  return key

/-- A key file that ends in a defect. -/
inductive Breaks (files : FileTree) (parse : Bytes → Except KeyFault α) (path : Text) :
    Defect → Prop where
  /-- The home directory at the start of the path cannot be had. -/
  | home {d : Defect} (h : (Path.ofText path).expandHome files.homes = .error d) :
    Breaks files parse path d
  /-- The path cannot be handed to the system. -/
  | path {opened : Path} {d : Defect} (h : (Path.ofText path).expandHome files.homes = .ok opened)
    (hread : files.read opened = .error (.unusable d)) : Breaks files parse path d
  /-- What is in the file is refused as a key, but is of the form of one. -/
  | key {opened : Path} {octets : Bytes} {fault : KeyFault}
    (h : (Path.ofText path).expandHome files.homes = .ok opened)
    (hread : files.read opened = .ok octets) (hparse : parse octets = .error fault)
    (hform : fault ≠ .invalid) : Breaks files parse path (defect fault)

/-- A pair that ends in a defect: the private key is loaded first. -/
inductive PairBreaks (files : FileTree) (privatePath publicPath : Text) : Defect → Prop where
  | privateKey {d : Defect} (h : Breaks files PrivateKey.ofBytes privatePath d) :
    PairBreaks files privatePath publicPath d
  | publicKey {key : PrivateKey} {d : Defect} (h : KeyFile.privateKey files privatePath = .ok key)
    (hpublic : Breaks files PublicKey.ofBytes publicPath d) :
    PairBreaks files privatePath publicPath d

end KeyFile

namespace Config

/-- A section that ends in a defect, whatever it says before any key is loaded. -/
inductive SectionBreaks (files : FileTree) (settings : GroupSettings) (duration : Int) :
    Defect → Prop where
  | hostKeys {d : Defect} (h : KeyFile.PairBreaks files settings.hostPrivate settings.hostPublic d) :
    SectionBreaks files settings duration d
  | userKeys {p : KeyPair} {d : Defect}
    (hhost : KeyFile.pair files settings.hostPrivate settings.hostPublic = .ok p)
    (h : KeyFile.PairBreaks files settings.userPrivate settings.userPublic d) :
    SectionBreaks files settings duration d
  /-- The seconds are too many to be written. -/
  | digits {p q : KeyPair}
    (hhost : KeyFile.pair files settings.hostPrivate settings.hostPublic = .ok p)
    (huser : KeyFile.pair files settings.userPrivate settings.userPublic = .ok q)
    (h : 10 ^ Decimal.maxDigits ≤ duration) : SectionBreaks files settings duration .badValue

/-- A text that ends in a defect: that of a section, all before which are groups. -/
inductive TextBreaks (files : FileTree) (text : Text) : Defect → Prop where
  | group {doc : Ini.Document} {front back : List Text} {name : Text} {settings : GroupSettings}
    {duration : Int} {hosts : Table Text} {d : Defect} (hdoc : Ini.read text = .ok doc)
    (hnames : doc.names.filter (· ≠ Ini.initialName) = front ++ name :: back)
    (hfront : ∀ other ∈ front, ∃ g, planGroup files doc other = .ok g)
    (houtline : outline doc name = .ok (settings, duration, hosts))
    (h : SectionBreaks files settings duration d) : TextBreaks files text d

/-- A configuration file that ends in a defect. -/
inductive Breaks (files : FileTree) (path : Text) : Defect → Prop where
  /-- The path cannot be handed to the system. -/
  | path {d : Defect} (h : files.read (Path.ofText path) = .error (.unusable d)) :
    Breaks files path d
  /-- The octets are no text. -/
  | octets {octets : Bytes} (hread : files.read (Path.ofText path) = .ok octets)
    (h : Utf8.decode? octets = none) : Breaks files path .undecodable
  | text {text : Text} {d : Defect} (htext : fileText files path = .ok text)
    (h : TextBreaks files text d) : Breaks files path d

end Config

/-! ### Key files -/

namespace KeyFile

variable {α : Type} {files : FileTree} {path : Text} {d : Defect}

theorem octets_eq_defect_iff {half : KeyHalf} :
    octets files half path = .error (.defect d) ↔
      (Path.ofText path).expandHome files.homes = .error d ∨
        ∃ opened, (Path.ofText path).expandHome files.homes = .ok opened ∧
          files.read opened = .error (.unusable d) := by
  unfold octets
  rw [Except.bind_eq_error_iff, Except.mapError_eq_error_iff]
  refine or_congr ?_ (exists_congr fun opened => and_congr Except.mapError_eq_ok_iff ?_)
  · simp
  · rw [Except.mapError_eq_error_iff]
    constructor
    · rintro ⟨fault | d', h, heq⟩
      · cases heq
      · cases heq
        exact h
    · exact fun h => ⟨_, h, rfl⟩

theorem octets_eq_ok_iff {half : KeyHalf} {octets : Bytes} :
    KeyFile.octets files half path = .ok octets ↔
      ∃ opened, (Path.ofText path).expandHome files.homes = .ok opened ∧
        files.read opened = .ok octets := by
  unfold KeyFile.octets
  rw [Except.bind_eq_ok_iff]
  exact exists_congr fun opened =>
    and_congr Except.mapError_eq_ok_iff Except.mapError_eq_ok_iff

/-- A refused key is a defect if it is of the form of one. -/
theorem failure_eq_defect_iff {half : KeyHalf} {fault : KeyFault} :
    failure half path fault = .defect d ↔ fault ≠ .invalid ∧ defect fault = d := by
  cases fault <;> simp [failure]

theorem keyOf_eq_defect_iff {half : KeyHalf} {parse : Bytes → Except KeyFault α}
    {algorithm : α → KeyAlgorithm} :
    keyOf files half parse algorithm path = .error (.defect d) ↔ Breaks files parse path d := by
  have hsupported : ∀ key, (supported (algorithm key) path >>= fun _ => pure key) ≠
      .error (.defect d) := by
    intro key
    unfold supported
    split
    · exact fun h => by cases h
    · exact fun h => by cases h
  unfold keyOf
  rw [Except.bind_eq_error_iff, octets_eq_defect_iff]
  constructor
  · rintro ((h | ⟨opened, hopened, hread⟩) | ⟨octets, hoctets, h⟩)
    · exact .home h
    · exact .path hopened hread
    · obtain ⟨opened, hopened, hread⟩ := octets_eq_ok_iff.mp hoctets
      rcases Except.bind_eq_error_iff.mp h with h | ⟨key, -, h⟩
      · obtain ⟨fault, hparse, hfault⟩ := Except.mapError_eq_error_iff.mp h
        obtain ⟨hform, rfl⟩ := failure_eq_defect_iff.mp hfault
        exact .key hopened hread hparse hform
      · exact absurd h (hsupported key)
  · rintro (h | ⟨hopened, hread⟩ | ⟨hopened, hread, hparse, hform⟩)
    · exact .inl (.inl h)
    · exact .inl (.inr ⟨_, hopened, hread⟩)
    · refine .inr ⟨_, octets_eq_ok_iff.mpr ⟨_, hopened, hread⟩, Except.bind_eq_error_iff.mpr ?_⟩
      exact .inl (Except.mapError_eq_error_iff.mpr
        ⟨_, hparse, failure_eq_defect_iff.mpr ⟨hform, rfl⟩⟩)

theorem privateKey_eq_defect_iff :
    privateKey files path = .error (.defect d) ↔ Breaks files PrivateKey.ofBytes path d := by
  show keyOf files .privateHalf PrivateKey.ofBytes PrivateKey.algorithm path = _ ↔ _
  exact keyOf_eq_defect_iff

theorem publicKey_eq_defect_iff :
    publicKey files path = .error (.defect d) ↔ Breaks files PublicKey.ofBytes path d := by
  show keyOf files .publicHalf PublicKey.ofBytes PublicKey.algorithm path = _ ↔ _
  exact keyOf_eq_defect_iff

theorem pair_eq_defect_iff {privatePath publicPath : Text} :
    pair files privatePath publicPath = .error (.defect d) ↔
      PairBreaks files privatePath publicPath d := by
  unfold pair
  rw [Except.bind_eq_error_iff, privateKey_eq_defect_iff]
  constructor
  · rintro (h | ⟨key, hkey, h⟩)
    · exact .privateKey h
    · rcases Except.bind_eq_error_iff.mp h with h | ⟨publicKey, -, h⟩
      · exact .publicKey hkey (publicKey_eq_defect_iff.mp h)
      · -- that the halves do not belong together is no defect
        split at h <;> cases h
  · rintro (h | ⟨hkey, h⟩)
    · exact .inl h
    · exact .inr ⟨_, hkey, Except.bind_eq_error_iff.mpr (.inl (publicKey_eq_defect_iff.mpr h))⟩

end KeyFile

/-! ### Configurations -/

namespace Config

variable {files : FileTree} {doc : Ini.Document} {name path : Text} {d : Defect}

/-- Seconds that are not written are too many. -/
theorem validityText_eq_error_iff {n : Int} {d : Defect} (h : 0 ≤ n) :
    validityText n = .error d ↔ d = .badValue ∧ 10 ^ Decimal.maxDigits ≤ n := by
  have hfault : ∀ d', validityText n = .error d' → d' = .badValue := by
    intro d' herror
    unfold validityText at herror
    split at herror
    · cases herror
    · split at herror
      · cases herror
      · exact (Except.error.inj herror).symm
  have hwritten := exists_validityText_iff h
  rcases htext : validityText n with d' | t
  · obtain rfl := hfault d' htext
    have hmany : 10 ^ Decimal.maxDigits ≤ n := Int.not_lt.mp fun hless => by
      obtain ⟨t, ht⟩ := hwritten.mpr hless
      rw [htext] at ht
      cases ht
    exact ⟨fun heq => ⟨(Except.error.inj heq).symm, hmany⟩, fun heq => by rw [heq.1]⟩
  · have hless := hwritten.mp ⟨t, htext⟩
    constructor
    · intro heq
      cases heq
    · rintro ⟨-, hmany⟩
      exact absurd hless (Int.not_lt.mpr hmany)

theorem planGroup_eq_defect_iff :
    planGroup files doc name = .error (.defect d) ↔
      ∃ settings duration hosts, outline doc name = .ok (settings, duration, hosts) ∧
        SectionBreaks files settings duration d := by
  unfold planGroup
  rw [Except.bind_eq_error_iff]
  constructor
  · rintro (h | ⟨⟨settings, duration, hosts⟩, houtline, h⟩)
    · obtain ⟨fault, -, h⟩ := Except.mapError_eq_error_iff.mp h
      cases h
    · have houtline := Except.mapError_eq_ok_iff.mp houtline
      refine ⟨settings, duration, hosts, houtline, ?_⟩
      rcases Except.bind_eq_error_iff.mp h with h | ⟨p, hhost, h⟩
      · exact .hostKeys (KeyFile.pair_eq_defect_iff.mp h)
      rcases Except.bind_eq_error_iff.mp h with h | ⟨q, huser, h⟩
      · exact .userKeys hhost (KeyFile.pair_eq_defect_iff.mp h)
      rcases Except.bind_eq_error_iff.mp h with h | ⟨t, -, h⟩
      · obtain ⟨d', h, heq⟩ := Except.mapError_eq_error_iff.mp h
        cases heq
        obtain ⟨-, -, hlasts, -⟩ := outline_eq_ok_iff.mp houtline
        obtain ⟨rfl, hmany⟩ := (validityText_eq_error_iff hlasts.nonneg).mp h
        exact .digits hhost huser hmany
      · cases h
  · rintro ⟨settings, duration, hosts, houtline, h⟩
    refine .inr ⟨_, Except.mapError_eq_ok_iff.mpr houtline, Except.bind_eq_error_iff.mpr ?_⟩
    rcases h with h | ⟨hhost, h⟩ | ⟨hhost, huser, hmany⟩
    · exact .inl (KeyFile.pair_eq_defect_iff.mpr h)
    · exact .inr ⟨_, hhost, Except.bind_eq_error_iff.mpr (.inl (KeyFile.pair_eq_defect_iff.mpr h))⟩
    · obtain ⟨-, -, hlasts, -⟩ := outline_eq_ok_iff.mp houtline
      have htext := (validityText_eq_error_iff hlasts.nonneg).mpr ⟨rfl, hmany⟩
      refine .inr ⟨_, hhost, Except.bind_eq_error_iff.mpr (.inr ⟨_, huser, ?_⟩)⟩
      exact Except.bind_eq_error_iff.mpr (.inl (Except.mapError_eq_error_iff.mpr ⟨_, htext, rfl⟩))

theorem fileText_eq_defect_iff :
    fileText files path = .error (.defect d) ↔
      files.read (Path.ofText path) = .error (.unusable d) ∨
        ∃ octets, files.read (Path.ofText path) = .ok octets ∧ Utf8.decode? octets = none ∧
          d = .undecodable := by
  unfold fileText
  rcases files.read (Path.ofText path) with (fault | d') | octets
  · simp
  · simp
  · rcases hdecode : Utf8.decode? octets with - | text <;> simp [hdecode, eq_comm]

theorem plan_eq_defect_iff {text : Text} :
    plan files text = .error (.defect d) ↔ TextBreaks files text d := by
  unfold plan
  constructor
  · intro h
    rcases hdoc : Ini.read text with lines | doc <;> rw [hdoc] at h
    · cases h
    · rcases Except.bind_eq_error_iff.mp h with h | ⟨groups, -, h⟩
      · obtain ⟨front, name, back, hnames, hfront, h⟩ := Except.mapM_eq_error_iff.mp h
        obtain ⟨settings, duration, hosts, houtline, h⟩ := planGroup_eq_defect_iff.mp h
        exact .group hdoc hnames hfront houtline h
      · cases h
  · rintro ⟨hdoc, hnames, hfront, houtline, h⟩
    rw [hdoc]
    exact Except.bind_eq_error_iff.mpr (.inl (Except.mapM_eq_error_iff.mpr
      ⟨_, _, _, hnames, hfront, planGroup_eq_defect_iff.mpr ⟨_, _, _, houtline, h⟩⟩))

/-- Building a configuration ends in a defect exactly where the text breaks. -/
theorem parse_eq_defect_iff {text : Text} :
    ((parse files text).run.run {}).1 = .error (.defect d) ↔ TextBreaks files text d := by
  rw [← plan_eq_defect_iff, ← outcome_of_parse, Except.map_eq_error_iff]

/-- Loading ends in a defect exactly where the file breaks. -/
theorem load_eq_defect_iff :
    ((load files path).run.run {}).1 = .error (.defect d) ↔ Breaks files path d := by
  rw [← Except.map_eq_error_iff (f := plain), outcome_of_load]
  unfold planFile
  rw [Except.bind_eq_error_iff, fileText_eq_defect_iff]
  constructor
  · rintro ((h | ⟨octets, hread, h, rfl⟩) | ⟨text, htext, h⟩)
    · exact .path h
    · exact .octets hread h
    · exact .text htext (plan_eq_defect_iff.mp h)
  · rintro (h | ⟨hread, h⟩ | ⟨htext, h⟩)
    · exact .inl (.inl h)
    · exact .inl (.inr ⟨_, hread, h, rfl⟩)
    · exact .inr ⟨_, htext, plan_eq_defect_iff.mpr h⟩

end Config

/-! ### All other failures -/

/-- An error of the service for configurations or key files. -/
def Failure.IsOwn (f : Failure) : Prop := (∃ fault, f = .config fault) ∨ ∃ fault, f = .keyFile fault

/-- A failure of loading: an error of its own, or a defect. -/
def Failure.OfLoading (f : Failure) : Prop := f.IsOwn ∨ ∃ d, f = .defect d

namespace KeyFile

variable {α : Type} {files : FileTree} {f : Failure}

theorem ofLoading_of_keyOf {half : KeyHalf} {parse : Bytes → Except KeyFault α}
    {algorithm : α → KeyAlgorithm} {path : Text}
    (h : keyOf files half parse algorithm path = .error f) : f.OfLoading := by
  rcases Except.bind_eq_error_iff.mp h with h | ⟨octets, -, h⟩
  · rcases Except.bind_eq_error_iff.mp h with h | ⟨opened, -, h⟩
    · obtain ⟨d, -, rfl⟩ := Except.mapError_eq_error_iff.mp h
      exact .inr ⟨d, rfl⟩
    · obtain ⟨⟨fault, opened⟩ | d, -, rfl⟩ := Except.mapError_eq_error_iff.mp h
      · exact .inl (.inr ⟨_, rfl⟩)
      · exact .inr ⟨d, rfl⟩
  · rcases Except.bind_eq_error_iff.mp h with h | ⟨key, -, h⟩
    · obtain ⟨fault, -, rfl⟩ := Except.mapError_eq_error_iff.mp h
      cases fault
      · exact .inl (.inr ⟨_, rfl⟩)
      · exact .inr ⟨_, rfl⟩
      · exact .inr ⟨_, rfl⟩
    · unfold supported at h
      split at h
      · cases h
      · cases h
        exact .inl (.inr ⟨_, rfl⟩)

theorem ofLoading_of_pair {privatePath publicPath : Text}
    (h : pair files privatePath publicPath = .error f) : f.OfLoading := by
  rcases Except.bind_eq_error_iff.mp h with h | ⟨key, -, h⟩
  · exact ofLoading_of_keyOf h
  · rcases Except.bind_eq_error_iff.mp h with h | ⟨publicKey, -, h⟩
    · exact ofLoading_of_keyOf h
    · split at h
      · cases h
      · cases h
        exact .inl (.inr ⟨_, rfl⟩)

end KeyFile

namespace Config

variable {files : FileTree} {f : Failure}

theorem ofLoading_of_planGroup {doc : Ini.Document} {name : Text}
    (h : planGroup files doc name = .error f) : f.OfLoading := by
  rcases Except.bind_eq_error_iff.mp h with h | ⟨⟨settings, duration, hosts⟩, -, h⟩
  · obtain ⟨fault, -, rfl⟩ := Except.mapError_eq_error_iff.mp h
    exact .inl (.inl ⟨fault, rfl⟩)
  rcases Except.bind_eq_error_iff.mp h with h | ⟨hostKeys, -, h⟩
  · exact KeyFile.ofLoading_of_pair h
  rcases Except.bind_eq_error_iff.mp h with h | ⟨userKeys, -, h⟩
  · exact KeyFile.ofLoading_of_pair h
  rcases Except.bind_eq_error_iff.mp h with h | ⟨text, -, h⟩
  · obtain ⟨d, -, rfl⟩ := Except.mapError_eq_error_iff.mp h
    exact .inr ⟨d, rfl⟩
  · cases h

/-- Loading fails with its own errors and with defects only. -/
theorem ofLoading_of_load {path : Text} (h : ((load files path).run.run {}).1 = .error f) :
    f.OfLoading := by
  rw [← Except.map_eq_error_iff (f := plain), outcome_of_load] at h
  rcases Except.bind_eq_error_iff.mp h with h | ⟨text, -, h⟩
  · unfold fileText at h
    split at h
    · cases h
      exact .inl (.inl ⟨_, rfl⟩)
    · cases h
      exact .inr ⟨_, rfl⟩
    · split at h
      · cases h
        exact .inr ⟨_, rfl⟩
      · cases h
  · unfold plan at h
    split at h
    · cases h
      exact .inl (.inl ⟨_, rfl⟩)
    · rcases Except.bind_eq_error_iff.mp h with h | ⟨groups, -, h⟩
      · obtain ⟨-, name, -, -, -, h⟩ := Except.mapM_eq_error_iff.mp h
        exact ofLoading_of_planGroup h
      · cases h

end Config

end SshAuthority
