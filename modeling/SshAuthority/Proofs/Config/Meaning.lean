/-
SshAuthority/Proofs/Config/Meaning.lean

What a configuration that is written means.

What a section says is said of the source (`Usable`, `Means`), without the reader and
without the loader: its settings with those under `DEFAULT` as fallbacks, its patterns
where they came first with the addresses that came last, and the keys in the files that
its settings name. The group of a section is made of the same parts
(`builds_document_iff`), a configuration of its groups, and a host belongs to the first
pattern of the first group that covers it.

Main result: `meaning_of_writes`.
-/
import SshAuthority.Proofs.Config.Duration
import SshAuthority.Proofs.Config.Fault
import SshAuthority.Proofs.Config.Reading
import SshAuthority.Proofs.Service.Issuance

namespace SshAuthority

open Ini (Source)

/-! ### What sources say -/

namespace Ini.Source

variable (s : Source)

/-- The keys under a name that are no settings, in the order in which they came first. -/
def patterns (name : Text) : List Text :=
  (s.keys name).filter fun key => !Config.settingNames.contains key

/-- The address that a pattern is given last. -/
def address (name pattern : Text) : Text := (s.value? name pattern).getD []

/-- The patterns of a group with their endpoints: their addresses without slashes at the end. -/
def hosts (name : Text) : Table Text :=
  (s.patterns name).map fun pattern =>
    (pattern, Text.dropRight (· = 0x2F) (s.address name pattern))

/-- The first group with a pattern that covers the host, and the first such pattern there. -/
def match? (host : Text) : Option (Text × Text) :=
  s.groups.findSome? fun name =>
    ((s.patterns name).find? fun pattern => Pattern.covers pattern host).map (name, ·)

end Ini.Source

namespace Config

/-- What a group needs. -/
structure Usable (s : Source) (files : FileTree) (name : Text) : Prop where
  settings : ∀ key ∈ settingNames, s.setting name key ≠ []
  /-- Seconds with more digits are not written into the record of the group. -/
  validity : ∃ n, Lasts (s.setting name "cert-validity") n ∧ n < 10 ^ Decimal.maxDigits
  addresses : ∀ pattern ∈ s.patterns name, IsWeb (s.address name pattern)
  hostKeys : ∃ p,
    InFiles files (s.setting name "host-ca-privkey") (s.setting name "host-ca-pubkey") p
  userKeys : ∃ p,
    InFiles files (s.setting name "user-ca-privkey") (s.setting name "user-ca-pubkey") p

/-- What the source and the files say of the group of its name. -/
structure Means (s : Source) (files : FileTree) (g : HostGroup) : Prop where
  validity : g.validity = s.setting g.name "cert-validity"
  duration : Lasts g.validity g.duration
  hosts : g.hosts = s.hosts g.name
  hostKeys :
    InFiles files (s.setting g.name "host-ca-privkey") (s.setting g.name "host-ca-pubkey") g.hostKeys
  userKeys :
    InFiles files (s.setting g.name "user-ca-privkey") (s.setting g.name "user-ca-pubkey") g.userKeys

/-! ### Groups -/

variable {s : Source} {files : FileTree} {name : Text}

/-- The options of a section are its keys with the values that came last. -/
theorem options_document_eq_map (s : Source) (name : Text) :
    s.document.options name = (s.keys name).map fun key => (key, s.address name key) := by
  rw [s.options_document, Table.putAll_nil_eq_map _ [], List.map_map]
  rfl

/-- The endpoints of a section are those of the patterns of the source. -/
theorem endpoints_document {hosts : Table Text} :
    endpoints name (s.document.options name) = .ok hosts ↔
      (∀ pattern ∈ s.patterns name, IsWeb (s.address name pattern)) ∧ hosts = s.hosts name := by
  have hfilter : (s.document.options name).filter (fun e => !settingNames.contains e.1) =
      (s.patterns name).map fun key => (key, s.address name key) := by
    rw [options_document_eq_map, List.filter_map]
    rfl
  rw [endpoints_eq_mapM, hfilter, List.mapM_map]
  refine Except.mapM_eq_ok_iff_map fun pattern _ e => ?_
  have hvalue : ∀ url, endpoint? (s.address name pattern) = some url ↔ _ := fun url =>
    endpoint?_eq_some_iff (s.trim_value?_getD name pattern rfl)
  unfold endpointOf
  dsimp only [Function.comp]
  rcases hurl : endpoint? (s.address name pattern) with - | url
  · constructor
    · intro h
      cases h
    · rintro ⟨hweb, -⟩
      rw [(hvalue _).mpr ⟨hweb, rfl⟩] at hurl
      cases hurl
  · obtain ⟨hweb, rfl⟩ := (hvalue url).mp hurl
    exact ⟨fun h => ⟨hweb, (Except.ok.inj h).symm⟩, fun ⟨_, h⟩ => congrArg Except.ok h.symm⟩

/-- The group of a section is what the source and the files say, where they make it usable. -/
theorem builds_document_iff {g : HostGroup} :
    Builds files s.document g ↔ Usable s files g.name ∧ Means s files g := by
  have hlookup : ∀ key, setting s.document g.name key = s.setting g.name key :=
    s.setting_document g.name
  constructor
  · rintro ⟨hsettings, hvalidity, hduration, hdigits, hhosts, hhost, huser⟩
    simp only [hlookup] at hsettings hvalidity hhost huser
    obtain ⟨haddresses, hhosts⟩ := endpoints_document.mp hhosts
    exact ⟨⟨hsettings, ⟨_, hvalidity ▸ hduration, hdigits⟩, haddresses, ⟨_, hhost⟩, ⟨_, huser⟩⟩,
      hvalidity, hduration, hhosts, hhost, huser⟩
  · rintro ⟨husable, hmeans⟩
    obtain ⟨n, hlasts, hdigits⟩ := husable.validity
    have hduration : Lasts (s.setting g.name "cert-validity") g.duration :=
      hmeans.validity ▸ hmeans.duration
    obtain rfl := hlasts.unique hduration
    refine ⟨?_, ?_, hmeans.duration, hdigits,
      endpoints_document.mpr ⟨husable.addresses, hmeans.hosts⟩, ?_, ?_⟩ <;> simp only [hlookup]
    · exact husable.settings
    · exact hmeans.validity
    · exact hmeans.hostKeys
    · exact hmeans.userKeys

/-- A group of the name is there if the source and the files make it usable. -/
theorem exists_planGroup_iff :
    (∃ g, planGroup files s.document name = .ok g) ↔ Usable s files name := by
  constructor
  · rintro ⟨g, h⟩
    obtain ⟨rfl, hbuilds, -⟩ := planGroup_eq_ok_iff.mp h
    exact (builds_document_iff.mp hbuilds).1
  · intro h
    obtain ⟨n, hlasts, -⟩ := h.validity
    obtain ⟨hostKeys, hhost⟩ := h.hostKeys
    obtain ⟨userKeys, huser⟩ := h.userKeys
    let g : HostGroup :=
      { name, hostKeys := hostKeys.plain, userKeys := userKeys.plain
        validity := s.setting name "cert-validity", duration := n, hosts := s.hosts name }
    have hmeans : Means s files g := ⟨rfl, hlasts, rfl, hhost.plain, huser.plain⟩
    exact ⟨g, planGroup_eq_ok_iff.mpr ⟨rfl, builds_document_iff.mpr ⟨h, hmeans⟩, rfl⟩⟩

/-! ### Configurations -/

/-- The configuration of a source is there if the source and the files make each of its groups
usable. -/
theorem exists_plan_of_writes {text : Text} (h : s.Writes text) :
    (∃ c, plan files text = .ok c) ↔ ∀ name ∈ s.groups, Usable s files name := by
  unfold plan
  rw [Ini.read_of_writes h]
  dsimp only
  rw [s.groups_document]
  constructor
  · rintro ⟨c, hc⟩ name hname
    obtain ⟨groups, hgroups, -⟩ := Except.bind_eq_ok_iff.mp hc
    exact exists_planGroup_iff.mp (Except.exists_mapM_eq_ok_iff.mp ⟨groups, hgroups⟩ name hname)
  · intro husable
    obtain ⟨groups, hgroups⟩ := Except.exists_mapM_eq_ok_iff.mpr fun name hname =>
      exists_planGroup_iff.mpr (husable name hname)
    exact ⟨⟨groups⟩, Except.bind_eq_ok_iff.mpr ⟨groups, hgroups, rfl⟩⟩

/-- The groups of the configuration are those of the source, as the source and the files say. -/
theorem means_of_plan {text : Text} (h : s.Writes text) {c : Config} (hc : plan files text = .ok c) :
    c.names = s.groups ∧ ∀ g ∈ c.groups, Means s files g := by
  unfold plan at hc
  rw [Ini.read_of_writes h] at hc
  dsimp only at hc
  rw [s.groups_document] at hc
  obtain ⟨groups, hgroups, hc⟩ := Except.bind_eq_ok_iff.mp hc
  obtain rfl := Except.pure_eq_ok_iff.mp hc
  obtain ⟨hnames, hbuilds⟩ := Except.of_mapM_eq_ok HostGroup.name
    (fun name g hg => (planGroup_eq_ok_iff.mp hg).1) hgroups
  exact ⟨hnames, fun g hg =>
    (builds_document_iff.mp (planGroup_eq_ok_iff.mp (hbuilds g hg)).2.1).2⟩

/-! ### Hosts -/

/-- A group covers a host with the first of its patterns that does. -/
theorem resolve?_of_hosts {g : HostGroup} (h : g.hosts = s.hosts g.name) (host : Text) :
    g.resolve? host =
      ((s.patterns g.name).find? fun pattern => Pattern.covers pattern host).map fun pattern =>
        g.info pattern (Text.dropRight (· = 0x2F) (s.address g.name pattern)) := by
  unfold HostGroup.resolve?
  rw [h]
  unfold Source.hosts
  rw [List.find?_map, Option.map_map]
  rfl

/-- What the configuration says of a host is what the first group of the source says that covers
it, with its first pattern that does. -/
theorem resolve_of_means {c : Config} (hnames : c.names = s.groups)
    (hhosts : ∀ g ∈ c.groups, g.hosts = s.hosts g.name) (host : Text) :
    match s.match? host with
    | none => c.resolve host = .error (.unknownHost host)
    | some (name, pattern) => ∃ g ∈ c.groups, g.name = name ∧ c.resolve host =
        .ok (g.info pattern (Text.dropRight (· = 0x2F) (s.address name pattern))) := by
  -- both searches go over the same names in the same order
  have hmatch : s.match? host = c.groups.findSome? fun g =>
      ((s.patterns g.name).find? fun pattern => Pattern.covers pattern host).map (g.name, ·) := by
    unfold Source.match?
    rw [← hnames, names, List.findSome?_map]
    rfl
  split
  · next hnone =>
    have hresolve : c.resolve? host = none := by
      refine List.findSome?_eq_none_iff.mpr fun g hg => ?_
      have hcovers := List.findSome?_eq_none_iff.mp (hmatch.symm.trans hnone) g hg
      rw [resolve?_of_hosts (hhosts g hg), Option.map_eq_none_iff.mp hcovers]
      rfl
    unfold resolve
    rw [hresolve]
  · next name pattern hsome =>
    obtain ⟨front, g, back, hgroups, hg, hfront⟩ :=
      List.findSome?_eq_some_iff.mp (hmatch.symm.trans hsome)
    obtain ⟨found, hfound, heq⟩ := Option.map_eq_some_iff.mp hg
    obtain ⟨rfl, rfl⟩ := Prod.ext_iff.mp heq
    have hmem : g ∈ c.groups := hgroups ▸ List.mem_append_right front List.mem_cons_self
    have hresolve : c.resolve? host =
        some (g.info found (Text.dropRight (· = 0x2F) (s.address g.name found))) := by
      refine List.findSome?_eq_some_iff.mpr ⟨front, g, back, hgroups, ?_, fun other hother => ?_⟩
      · rw [resolve?_of_hosts (hhosts g hmem), hfound]
        rfl
      · have hin : other ∈ c.groups := hgroups ▸ List.mem_append_left (g :: back) hother
        rw [resolve?_of_hosts (hhosts other hin), Option.map_eq_none_iff.mp (hfront other hother)]
        rfl
    refine ⟨g, hmem, rfl, ?_⟩
    unfold resolve
    rw [hresolve]

/-- What a text means that writes a source: it is a configuration if and only if each group of the
source is usable, the groups are those of the source in their order, with what it says of each,
and a host belongs to the first group and the first pattern there that covers it. -/
theorem meaning_of_writes {text : Text} (h : s.Writes text) (files : FileTree) :
    ((∃ c, ((parse files text).run.run {}).1 = .ok c) ↔ ∀ name ∈ s.groups, Usable s files name) ∧
      ∀ c, ((parse files text).run.run {}).1 = .ok c →
        c.names = s.groups ∧ (∀ g ∈ c.groups, Means s files g) ∧
          ∀ host, match s.match? host with
            | none => c.resolve host = .error (.unknownHost host)
            | some (name, pattern) => ∃ g ∈ c.groups, g.name = name ∧ c.resolve host =
                .ok (g.info pattern (Text.dropRight (· = 0x2F) (s.address name pattern))) := by
  have houtcome := outcome_of_parse files text
  constructor
  · rw [← exists_plan_of_writes h, ← houtcome]
    simp only [Except.map_eq_ok_iff]
    exact ⟨fun ⟨c, hc⟩ => ⟨c.plain, c, hc, rfl⟩, fun ⟨_, c, hc, _⟩ => ⟨c, hc⟩⟩
  · intro c hc
    rw [hc] at houtcome
    -- what is said of groups says nothing of the numbers of handles
    obtain ⟨hnames, hplain⟩ := means_of_plan h houtcome.symm
    have hmeans : ∀ g ∈ c.groups, Means s files g := by
      intro g hg
      have hg := hplain g.plain (List.mem_map_of_mem hg)
      exact ⟨hg.validity, hg.duration, hg.hosts,
        ⟨hg.hostKeys.privateKey, hg.hostKeys.publicKey, hg.hostKeys.blob⟩,
        ⟨hg.userKeys.privateKey, hg.userKeys.publicKey, hg.userKeys.blob⟩⟩
    have hnames : c.names = s.groups := by
      rw [← hnames]
      unfold names plain
      rw [List.map_map]
      rfl
    exact ⟨hnames, hmeans, resolve_of_means hnames fun g hg => (hmeans g hg).hosts⟩

end Config

/-! ### A source in files with keys -/

namespace Config

namespace Sample

open Service.Sample (files)

/-- A pattern and the settings. -/
def keys : List Text := (Text.ofString "login.example.org") :: settingNames

/-- An entry with one of the keys. -/
def entry (key value : Text) (hkey : key ∈ keys) (htrim : value.trim = value)
    (hline : 0x0A ∉ value) : Ini.Entry where
  key := key
  value := value
  key_ne_nil := by
    revert key
    decide
  key_trim := by
    revert key
    decide
  key_no_equals := by
    revert key
    decide
  key_no_lineFeed := by
    revert key
    decide
  key_head c hc := by
    have h : ∀ key ∈ keys, (key.head?.all fun c => c ≠ 0x23 ∧ c ≠ 0x3B ∧ c ≠ 0x5B) = true := by
      decide
    have hkey := h key hkey
    rw [Option.mem_def.mp hc] at hkey
    simpa using hkey
  value_trim := htrim
  value_no_lineFeed := hline

/-- A block with one of two names. -/
def block (name : Text) (hname : name ∈ [Text.ofString "site", Text.ofString "DEFAULT"])
    (entries : List Ini.Entry) : Ini.Block where
  name := name
  entries := entries
  name_ne_nil := by
    revert name
    decide
  name_no_bracket := by
    revert name
    decide
  name_no_lineFeed := by
    revert name
    decide
  name_ne_shared := by
    revert name
    decide

/-- A section that comes twice, around one of fallbacks. The address of its pattern is given
twice. -/
def source (validity : Text) (htrim : validity.trim = validity) (hline : 0x0A ∉ validity) :
    Source where
  opening := [
    entry "host-ca-privkey" "ca" (by decide) (by decide) (by decide),
    entry "user-ca-privkey" "ca" (by decide) (by decide) (by decide)]
  blocks := [
    block "site" (by decide) [
      entry "login.example.org" "old" (by decide) (by decide) (by decide),
      entry "cert-validity" validity (by decide) htrim hline],
    block "DEFAULT" (by decide) [
      entry "host-ca-pubkey" "ca.pub" (by decide) (by decide) (by decide),
      entry "user-ca-pubkey" "ca.pub" (by decide) (by decide) (by decide)],
    block "site" (by decide) [
      entry "login.example.org" "https://mc.example.org/" (by decide) (by decide) (by decide)]]

variable (validity : Text) (htrim : validity.trim = validity) (hline : 0x0A ∉ validity)

theorem groups_source : (source validity htrim hline).groups = [Text.ofString "site"] := rfl

/-- The settings of the section: its own, those before the first header, and those of the later
block. -/
theorem settings_source :
    (source validity htrim hline).setting "site" "host-ca-privkey" = "ca" ∧
      (source validity htrim hline).setting "site" "host-ca-pubkey" = "ca.pub" ∧
      (source validity htrim hline).setting "site" "user-ca-privkey" = "ca" ∧
      (source validity htrim hline).setting "site" "user-ca-pubkey" = "ca.pub" ∧
      (source validity htrim hline).setting "site" "cert-validity" = validity :=
  ⟨rfl, rfl, rfl, rfl, rfl⟩

theorem setting_source_ne_nil (hne : validity ≠ []) :
    ∀ key ∈ settingNames, (source validity htrim hline).setting "site" key ≠ [] := by
  obtain ⟨hhost, hhostPublic, huser, huserPublic, hvalidity⟩ :=
    settings_source validity htrim hline
  intro key hkey
  simp only [settingNames, List.mem_cons, List.not_mem_nil, or_false] at hkey
  rcases hkey with rfl | rfl | rfl | rfl | rfl
  · rw [hhost]
    decide
  · rw [hhostPublic]
    decide
  · rw [huser]
    decide
  · rw [huserPublic]
    decide
  · rw [hvalidity]
    exact hne

theorem isWeb_address_source : ∀ pattern ∈ (source validity htrim hline).patterns "site",
    IsWeb ((source validity htrim hline).address "site" pattern) := by
  have hpatterns : (source validity htrim hline).patterns "site" =
      [Text.ofString "login.example.org"] := rfl
  have haddress : (source validity htrim hline).address "site" "login.example.org" =
      "https://mc.example.org/" := rfl
  rw [hpatterns]
  intro pattern hpattern
  rw [List.mem_singleton.mp hpattern, haddress]
  exact .inr (by decide)

theorem exists_inFiles : ∃ p, InFiles files "ca" "ca.pub" p := by
  have h : (KeyFile.pair files "ca" "ca.pub").toOption.isSome = true := by decide +kernel
  obtain ⟨p, hp⟩ := Option.isSome_iff_exists.mp h
  exact ⟨p, (pair_eq_ok_iff.mp (Except.toOption_eq_some_iff.mp hp)).1⟩

/-- The section is usable if its validity is. -/
theorem usable_source (hne : validity ≠ []) {n : Int} (hlasts : Lasts validity n)
    (hdigits : n < 10 ^ Decimal.maxDigits) :
    ∀ name ∈ (source validity htrim hline).groups,
      Usable (source validity htrim hline) files name := by
  rw [groups_source]
  intro name hname
  rw [List.mem_singleton.mp hname]
  exact
    { settings := setting_source_ne_nil validity htrim hline hne
      validity := ⟨n, hlasts, hdigits⟩
      addresses := isWeb_address_source validity htrim hline
      hostKeys := exists_inFiles
      userKeys := exists_inFiles }

/-- The source with a validity of one hour. -/
def hour : Source := source "1h" (by decide) (by decide)

/-- The source with a validity of as many hours as the most nines that are read say. -/
def nines : Source :=
  source (Duration.nines Decimal.maxDigits) (Duration.trim_nines _) (Duration.not_mem_nines _)

end Sample

/-- The source with a validity of one hour is a configuration, of the one group that it names
twice. -/
theorem meaning_sample :
    Sample.hour.Writes Sample.hour.text ∧
      ∃ c, ((parse Service.Sample.files Sample.hour.text).run.run {}).1 = .ok c ∧
        c.names = [Text.ofString "site"] ∧
        ∀ g ∈ c.groups, Means Sample.hour Service.Sample.files g := by
  have hlasts : Lasts "1h" 3600 :=
    .inr ⟨Except.toOption_eq_some_iff.mp (by decide +kernel), by decide⟩
  have hdigits : (3600 : Int) < 10 ^ Decimal.maxDigits :=
    (exists_validityText_iff (by decide)).mp ⟨_, rfl⟩
  have hwrites := Sample.hour.writes_text
  obtain ⟨hexists, hmeaning⟩ := meaning_of_writes hwrites Service.Sample.files
  obtain ⟨c, hc⟩ := hexists.mpr (Sample.usable_source _ _ _ (by decide) hlasts hdigits)
  obtain ⟨hnames, hmeans, -⟩ := hmeaning c hc
  exact ⟨hwrites, c, hc, hnames, hmeans⟩

/-- The source is the same in all else, and its validity is a duration of more than a second, but
the seconds are not written, so there is no configuration. -/
theorem nines_refused :
    Sample.nines.Writes Sample.nines.text ∧ Sample.nines.groups = [Text.ofString "site"] ∧
      (∀ key ∈ settingNames, Sample.nines.setting "site" key ≠ []) ∧
      (∃ n, Lasts (Sample.nines.setting "site" "cert-validity") n) ∧
      (∀ pattern ∈ Sample.nines.patterns "site", IsWeb (Sample.nines.address "site" pattern)) ∧
      (∃ p, InFiles Service.Sample.files (Sample.nines.setting "site" "host-ca-privkey")
        (Sample.nines.setting "site" "host-ca-pubkey") p) ∧
      (∃ p, InFiles Service.Sample.files (Sample.nines.setting "site" "user-ca-privkey")
        (Sample.nines.setting "site" "user-ca-pubkey") p) ∧
      ((parse Service.Sample.files Sample.nines.text).run.run {}).1 =
        .error (.defect .badValue) := by
  -- the seconds stay as they are written here: nothing is to compute a number of that size
  have hten : 1 < 10 ^ Decimal.maxDigits := Nat.one_lt_pow (by decide) (by decide)
  have hlasts : Lasts (Duration.nines Decimal.maxDigits)
      (3600 * (10 ^ Decimal.maxDigits - 1 : Nat)) := by
    refine .inr ⟨Duration.read_nines (by decide) (Nat.le_refl _), ?_⟩
    generalize 10 ^ Decimal.maxDigits = bound at hten
    omega
  have hmany : (10 : Int) ^ Decimal.maxDigits ≤ 3600 * (10 ^ Decimal.maxDigits - 1 : Nat) := by
    have hcast : (10 : Int) ^ Decimal.maxDigits = (10 ^ Decimal.maxDigits : Nat) :=
      (Int.natCast_pow 10 Decimal.maxDigits).symm
    rw [hcast]
    generalize 10 ^ Decimal.maxDigits = bound at hten
    omega
  have hsettings : ∀ key ∈ settingNames, Sample.nines.setting "site" key ≠ [] :=
    Sample.setting_source_ne_nil _ _ _ (by simp [Duration.nines])
  have hweb : ∀ pattern ∈ Sample.nines.patterns "site",
      IsWeb (Sample.nines.address "site" pattern) :=
    Sample.isWeb_address_source _ _ _
  obtain ⟨p, hp⟩ := Sample.exists_inFiles
  have hwrites := Sample.nines.writes_text
  refine ⟨hwrites, rfl, hsettings, ⟨_, hlasts⟩, hweb, ⟨p, hp⟩, ⟨p, hp⟩, ?_⟩
  have houtline : outline Sample.nines.document "site" =
      .ok (GroupSettings.ofLookup (Sample.nines.setting "site"),
        3600 * (10 ^ Decimal.maxDigits - 1 : Nat), Sample.nines.hosts "site") := by
    have hlookup : setting Sample.nines.document "site" = Sample.nines.setting "site" :=
      funext (Sample.nines.setting_document "site")
    rw [outline_eq_ok_iff, hlookup]
    exact ⟨hsettings, rfl, hlasts, endpoints_document.mpr ⟨hweb, rfl⟩⟩
  have hpair : KeyFile.pair Service.Sample.files "ca" "ca.pub" = .ok p.plain :=
    pair_eq_ok_iff.mpr ⟨hp.plain, rfl⟩
  have hnames : Sample.nines.document.names.filter (· ≠ Ini.initialName) =
      [] ++ Text.ofString "site" :: [] :=
    Sample.nines.groups_document
  exact parse_eq_defect_iff.mpr (.group (Ini.read_of_writes hwrites) hnames
    (fun other hother => absurd hother List.not_mem_nil) houtline (.digits hpair hpair hmany))

end Config

end SshAuthority
