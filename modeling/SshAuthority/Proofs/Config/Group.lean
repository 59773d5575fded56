/-
SshAuthority/Proofs/Config/Group.lean

What makes a group.

A section is a group if its settings are there, its validity lasts, its patterns have
addresses of the web, and its settings name keys that belong together; which group it is
follows from the same parts (`Builds`). The seconds of a validity are written into the
record of the group, so they must not have more digits than are written.

Main result: `planGroup_eq_ok_iff`.
-/
import SshAuthority.Proofs.Config.Plan

namespace SshAuthority.Config

/-! ### The parts -/

/-- The seconds for which a validity lasts: none of its own if it is bound to the token, and those
of a duration of at least one second. -/
def Lasts (validity : Text) (n : Int) : Prop :=
  (validity = tokenValidity ∧ n = 0) ∨ (Duration.read validity = .ok n ∧ 1 ≤ n)

/-- An address of the web. -/
def IsWeb (address : Text) : Prop :=
  Text.startsWith "http://" address = true ∨ Text.startsWith "https://" address = true

/-- The pair is that in the files, and its halves belong together. -/
structure InFiles (files : FileTree) (privatePath publicPath : Text) (p : KeyPair) : Prop where
  privateKey : KeyFile.privateKey files privatePath = .ok p.privateKey.value
  publicKey : KeyFile.publicKey files publicPath = .ok p.publicKey.value
  blob : p.privateKey.value.blob = p.publicKey.value.blob

/-- The group is that of the section of its name. -/
structure Builds (files : FileTree) (d : Ini.Document) (g : HostGroup) : Prop where
  settings : ∀ key ∈ settingNames, setting d g.name key ≠ []
  validity : g.validity = setting d g.name "cert-validity"
  duration : Lasts g.validity g.duration
  digits : g.duration < 10 ^ Decimal.maxDigits
  hosts : endpoints g.name (d.options g.name) = .ok g.hosts
  hostKeys :
    InFiles files (setting d g.name "host-ca-privkey") (setting d g.name "host-ca-pubkey") g.hostKeys
  userKeys :
    InFiles files (setting d g.name "user-ca-privkey") (setting d g.name "user-ca-pubkey") g.userKeys

/-! ### Validities -/

theorem seconds_eq_ok_iff {group validity : Text} {n : Int} :
    seconds group validity = .ok n ↔ Lasts validity n := by
  unfold seconds Lasts
  by_cases htoken : validity = tokenValidity
  · have hread : ∀ m, Duration.read tokenValidity ≠ .ok m := fun m h => by cases h
    subst htoken
    rw [if_pos rfl]
    constructor
    · intro h
      cases h
      exact .inl ⟨rfl, rfl⟩
    · rintro (⟨-, rfl⟩ | ⟨h, -⟩)
      · rfl
      · exact absurd h (hread n)
  · rw [if_neg htoken]
    rcases Duration.read validity with fault | m
    · simp [htoken]
    · by_cases hm : m ≤ 0
      · simp [htoken, hm]; omega
      · simp [htoken, hm]; omega

theorem Lasts.nonneg {validity : Text} {n : Int} (h : Lasts validity n) : 0 ≤ n := by
  rcases h with ⟨-, rfl⟩ | ⟨-, h⟩ <;> omega

/-- A validity lasts for one number of seconds only. -/
theorem Lasts.unique {validity : Text} {n m : Int} (hn : Lasts validity n)
    (hm : Lasts validity m) : n = m := by
  have h : seconds [] validity = .ok n := seconds_eq_ok_iff.mpr hn
  rw [seconds_eq_ok_iff.mpr hm] at h
  exact (Except.ok.inj h).symm

/-- The seconds are written into the record if they have no more digits than are written. -/
theorem exists_validityText_iff {n : Int} (h : 0 ≤ n) :
    (∃ t, validityText n = .ok t) ↔ n < 10 ^ Decimal.maxDigits := by
  obtain ⟨n, rfl⟩ := Int.eq_ofNat_of_zero_le h
  have hdigits : (Decimal.ofNat n).length ≤ Decimal.maxDigits ↔
      (n : Int) < 10 ^ Decimal.maxDigits := by
    unfold Decimal.ofNat
    rw [List.length_map, Nat.length_toDigits_le_iff (by decide) (by decide)]
    exact (Int.ofNat_lt.symm.trans (by rw [Int.natCast_pow]; rfl))
  rw [← hdigits]
  unfold validityText Decimal.text?
  by_cases hzero : (n : Int) = 0
  · obtain rfl : n = 0 := by omega
    exact ⟨fun _ => by decide, fun _ => ⟨tokenValidity, rfl⟩⟩
  · rw [if_neg hzero]
    by_cases hlength : (Decimal.ofNat n).length ≤ Decimal.maxDigits
    · simp [hlength]
    · simp [hlength]

/-! ### Endpoints -/

/-- What a value without blanks around it says as an endpoint. -/
theorem endpoint?_eq_some_iff {value url : Text} (htrim : value.trim = value) :
    endpoint? value = some url ↔ IsWeb value ∧ url = Text.dropRight (· = 0x2F) value := by
  unfold endpoint? IsWeb
  rw [htrim, ← Bool.or_eq_true]
  dsimp only
  split
  · next h => simp [h, eq_comm]
  · next h => simp [h]

/-- The endpoint of an option that is a pattern. -/
def endpointOf (group : Text) (option : Text × Text) : Except ConfigFault (Text × Text) :=
  match endpoint? option.2 with
  | none => .error (.badEndpoint group option.1)
  | some url => .ok (option.1, url)

/-- The endpoints of a section's options are those of its patterns, one after the other. -/
theorem endpoints_eq_mapM (group : Text) (options : Table Text) :
    endpoints group options =
      (options.filter fun option => !settingNames.contains option.1).mapM (endpointOf group) := by
  induction options with
  | nil => rfl
  | cons option rest ih =>
    obtain ⟨pattern, value⟩ := option
    rw [endpoints]
    rcases h : settingNames.contains pattern with - | -
    · rw [List.filter_cons_of_pos (by simpa using h), List.mapM_cons, if_neg (by decide), ih]
      unfold endpointOf
      dsimp only
      rcases endpoint? value with - | url
      · rfl
      · rcases List.mapM _ _ with fault | hosts <;> rfl
    · rw [List.filter_cons_of_neg (by simpa using h), if_pos rfl, ih]

/-! ### Pairs -/

theorem InFiles.plain {files : FileTree} {privatePath publicPath : Text} {p : KeyPair}
    (h : InFiles files privatePath publicPath p) : InFiles files privatePath publicPath p.plain :=
  ⟨h.privateKey, h.publicKey, h.blob⟩

/-- The pair of two files. -/
theorem pair_eq_ok_iff {files : FileTree} {privatePath publicPath : Text} {p : KeyPair} :
    KeyFile.pair files privatePath publicPath = .ok p ↔
      InFiles files privatePath publicPath p ∧ p.plain = p := by
  unfold KeyFile.pair
  rw [Except.bind_eq_ok_iff]
  constructor
  · rintro ⟨privateKey, hprivate, h⟩
    obtain ⟨publicKey, hpublic, h⟩ := Except.bind_eq_ok_iff.mp h
    split at h
    · next hblob =>
      obtain rfl := Except.pure_eq_ok_iff.mp h
      exact ⟨⟨hprivate, hpublic, hblob⟩, rfl⟩
    · cases h
  · rintro ⟨⟨hprivate, hpublic, hblob⟩, hplain⟩
    refine ⟨_, hprivate, Except.bind_eq_ok_iff.mpr ⟨_, hpublic, ?_⟩⟩
    rw [if_pos hblob]
    exact congrArg Except.ok hplain

/-! ### Groups -/

variable {files : FileTree} {d : Ini.Document} {name : Text}

/-- What a section says before any key is loaded. -/
theorem outline_eq_ok_iff {settings : GroupSettings} {duration : Int} {hosts : Table Text} :
    outline d name = .ok (settings, duration, hosts) ↔
      (∀ key ∈ settingNames, setting d name key ≠ []) ∧
        settings = GroupSettings.ofLookup (setting d name) ∧
        Lasts settings.validity duration ∧ endpoints name (d.options name) = .ok hosts := by
  have hmissing : (missing d name).isEmpty = true ↔
      ∀ key ∈ settingNames, setting d name key ≠ [] := by
    unfold missing
    rw [List.isEmpty_iff, List.filter_eq_nil_iff]
    simp only [List.isEmpty_iff, ne_eq]
  rw [← hmissing]
  unfold outline
  dsimp only
  by_cases h : (missing d name).isEmpty = true
  · rw [h, if_neg (by decide)]
    constructor
    · intro hok
      obtain ⟨n, hn, hok⟩ := Except.bind_eq_ok_iff.mp hok
      obtain ⟨hosts', hhosts, hok⟩ := Except.bind_eq_ok_iff.mp hok
      cases hok
      exact ⟨rfl, rfl, seconds_eq_ok_iff.mp hn, hhosts⟩
    · rintro ⟨-, rfl, hlasts, hhosts⟩
      refine Except.bind_eq_ok_iff.mpr ⟨duration, seconds_eq_ok_iff.mpr hlasts, ?_⟩
      exact Except.bind_eq_ok_iff.mpr ⟨hosts, hhosts, rfl⟩
  · rw [if_pos (by simpa using h)]
    constructor
    · intro hok
      cases hok
    · exact fun hok => absurd hok.1 h

/-- What comes of a section is its group. -/
theorem planGroup_eq_ok_iff {g : HostGroup} :
    planGroup files d name = .ok g ↔ g.name = name ∧ Builds files d g ∧ g.plain = g := by
  unfold planGroup
  rw [Except.bind_eq_ok_iff]
  constructor
  · rintro ⟨⟨settings, duration, hosts⟩, houtline, h⟩
    obtain ⟨hsettings, rfl, hlasts, hhosts⟩ :=
      outline_eq_ok_iff.mp (Except.mapError_eq_ok_iff.mp houtline)
    obtain ⟨hostKeys, hhost, h⟩ := Except.bind_eq_ok_iff.mp h
    obtain ⟨hhost, hhostPlain⟩ := pair_eq_ok_iff.mp hhost
    obtain ⟨userKeys, huser, h⟩ := Except.bind_eq_ok_iff.mp h
    obtain ⟨huser, huserPlain⟩ := pair_eq_ok_iff.mp huser
    obtain ⟨text, htext, h⟩ := Except.bind_eq_ok_iff.mp h
    obtain rfl := Except.pure_eq_ok_iff.mp h
    have hdigits := (exists_validityText_iff hlasts.nonneg).mp
      ⟨text, Except.mapError_eq_ok_iff.mp htext⟩
    refine ⟨rfl, ⟨hsettings, rfl, hlasts, hdigits, hhosts, hhost, huser⟩, ?_⟩
    show HostGroup.mk _ hostKeys.plain userKeys.plain _ _ _ = _
    rw [hhostPlain, huserPlain]
  · rintro ⟨rfl, h, hplain⟩
    obtain ⟨text, htext⟩ := (exists_validityText_iff h.duration.nonneg).mpr h.digits
    have hlasts := h.duration
    rw [h.validity] at hlasts
    refine ⟨(_, _, _), Except.mapError_eq_ok_iff.mpr (outline_eq_ok_iff.mpr
      ⟨h.settings, rfl, hlasts, h.hosts⟩), ?_⟩
    refine Except.bind_eq_ok_iff.mpr ⟨g.hostKeys, pair_eq_ok_iff.mpr
      ⟨h.hostKeys, congrArg HostGroup.hostKeys hplain⟩, ?_⟩
    refine Except.bind_eq_ok_iff.mpr ⟨g.userKeys, pair_eq_ok_iff.mpr
      ⟨h.userKeys, congrArg HostGroup.userKeys hplain⟩, ?_⟩
    refine Except.bind_eq_ok_iff.mpr ⟨text, Except.mapError_eq_ok_iff.mpr htext, ?_⟩
    refine Except.pure_eq_ok_iff.mpr ?_
    show HostGroup.mk g.name g.hostKeys g.userKeys (setting d g.name "cert-validity") g.duration
      g.hosts = g
    rw [← h.validity]

end SshAuthority.Config
