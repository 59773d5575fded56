/-
SshAuthority/Proofs/Config/Regular.lean

What is so of every configuration that was loaded, whatever the text and the files.

The reader opens a section again where its name comes again, so no name stands twice in
what it has read; each step keeps this (`Ini.Reading.nodup_step`), and so does a whole text
(`Ini.nodup_names_of_read`). The groups are made of the sections one by one, and what one
group is like was settled without the cache (`Config.planGroup_eq_ok_iff`), so it is left to
read off the parts: zero seconds stand for the token and for nothing else, both halves of
both pairs sign unattended and belong together, and no pattern is the name of a setting.

Main result: `regular_of_parse`.
-/
import SshAuthority.Proofs.Config.Fault
import SshAuthority.Proofs.Service.Issuance

namespace SshAuthority

/-! ### Sections -/

namespace Ini

namespace Reading

variable {r : Reading} (number : Nat) (line : Text)

/-- An option that is set brings no name in twice. -/
theorem nodup_set (h : (Table.names r.sections).Nodup) (key : Text) (value : List Text) :
    (Table.names (r.set key value).sections).Nodup :=
  Table.nodup_names_put h r.current _

theorem nodup_extend (h : (Table.names r.sections).Nodup) :
    (Table.names (r.extend line).sections).Nodup := by
  unfold extend
  split
  · exact h
  · exact nodup_set h _ _

theorem nodup_begin (h : (Table.names r.sections).Nodup) (body : Text) :
    (Table.names (r.begin number line body).sections).Nodup := by
  unfold begin
  split
  · -- a header opens the section of its name, which may be there
    exact Table.nodup_names_put h _ _
  · split
    · exact h
    · next key value _ =>
      dsimp only
      split <;> exact nodup_set h key [value]

/-- No line brings the name of a section in twice. -/
theorem nodup_step (h : (Table.names r.sections).Nodup) :
    (Table.names (r.step number line).sections).Nodup := by
  unfold step
  split
  · exact h
  · exact nodup_extend [] h
  · next indent body _ =>
    split
    · exact nodup_extend body h
    · exact nodup_begin (r := { r with indent }) number line h body

theorem nodup_steps (lines : List Text) (h : (Table.names r.sections).Nodup) :
    (Table.names (r.steps number lines).sections).Nodup := by
  induction lines generalizing r number with
  | nil => exact h
  | cons line rest ih => exact ih (number + 1) (nodup_step number line h)

end Reading

/-- The sections of a text have different names. -/
theorem nodup_names_of_read {t : Text} {d : Document} (h : read t = .ok d) :
    (Table.names d).Nodup := by
  have hsections : (Table.names (Reading.start.steps 2 (lines t)).sections).Nodup :=
    Reading.nodup_steps 2 (lines t) (List.pairwise_singleton _ _)
  unfold read at h
  dsimp only at h
  split at h
  · cases h
    unfold Table.names at hsections ⊢
    rw [List.map_map]
    exact hsections
  · cases h

end Ini

/-! ### Keys -/

/-- The names of the algorithms that sign unattended. -/
def KeyAlgorithm.signingNames : List Bytes :=
  ["ssh-ed25519", "ecdsa-sha2-nistp256", "ecdsa-sha2-nistp384", "ecdsa-sha2-nistp521", "ssh-rsa"]

theorem KeyAlgorithm.canSign_iff {a : KeyAlgorithm} :
    a.canSign = true ↔ a.name ∈ signingNames := by
  cases a
  case ecdsa curve => cases curve <;> decide
  all_goals decide

/-- A pair that certificates can be signed with and checked against: the halves have one encoding,
and both are of an algorithm that signs unattended. -/
structure KeyPair.Regular (p : KeyPair) : Prop where
  blob : p.privateKey.value.blob = p.publicKey.value.blob
  privateKey : p.privateKey.value.algorithm.name ∈ KeyAlgorithm.signingNames
  publicKey : p.publicKey.value.algorithm.name ∈ KeyAlgorithm.signingNames

/-- The numbers of the handles do not matter. -/
theorem KeyPair.Regular.of_plain {p : KeyPair} (h : p.plain.Regular) : p.Regular :=
  ⟨h.blob, h.privateKey, h.publicKey⟩

namespace KeyFile

variable {files : FileTree} {path : Text}

theorem supported_eq_ok_iff {a : KeyAlgorithm} :
    supported a path = .ok () ↔ a.name ∈ KeyAlgorithm.signingNames := by
  unfold supported
  rw [← KeyAlgorithm.canSign_iff]
  split
  · next h => simp [h]
  · next h => simp [h]

/-- A key that is loaded, whichever half it is, was read from the octets of its file, and is of an
algorithm that signs unattended. -/
theorem of_keyOf {α : Type} (half : KeyHalf) {parse : Bytes → Except KeyFault α}
    {algorithm : α → KeyAlgorithm} {key : α} (h : keyOf files half parse algorithm path = .ok key) :
    (∃ octets, KeyFile.octets files half path = .ok octets ∧ parse octets = .ok key) ∧
      (algorithm key).name ∈ KeyAlgorithm.signingNames := by
  obtain ⟨octets, hoctets, h⟩ := Except.bind_eq_ok_iff.mp h
  obtain ⟨key', hkey, h⟩ := Except.bind_eq_ok_iff.mp h
  obtain ⟨⟨⟩, hsupported, h⟩ := Except.bind_eq_ok_iff.mp h
  obtain rfl := Except.pure_eq_ok_iff.mp h
  exact ⟨⟨octets, hoctets, Except.mapError_eq_ok_iff.mp hkey⟩, supported_eq_ok_iff.mp hsupported⟩

end KeyFile

namespace Config

variable {files : FileTree}

/-- The pair of two files is regular. -/
theorem InFiles.regular {privatePath publicPath : Text} {p : KeyPair}
    (h : InFiles files privatePath publicPath p) : p.Regular where
  blob := h.blob
  privateKey := (KeyFile.of_keyOf .privateHalf h.privateKey).2
  publicKey := (KeyFile.of_keyOf .publicHalf h.publicKey).2

/-! ### Groups -/

/-- No endpoint stands under the name of a setting. -/
theorem not_mem_settingNames_of_endpoints {group : Text} {options hosts : Table Text}
    (h : endpoints group options = .ok hosts) : ∀ e ∈ hosts, e.1 ∉ settingNames :=
  fun e he => (exists_option_of_endpoints h e he).1

/-- The validity `token` is no duration. -/
theorem Lasts.eq_zero_iff {validity : Text} {n : Int} (h : Lasts validity n) :
    n = 0 ↔ validity = tokenValidity := by
  rcases h with ⟨hvalidity, rfl⟩ | ⟨hread, hpos⟩
  · exact ⟨fun _ => hvalidity, fun _ => rfl⟩
  · constructor
    · intro hzero
      omega
    · rintro rfl
      cases hread

end Config

/-- A group as every configuration has it. -/
structure HostGroup.Regular (g : HostGroup) : Prop where
  /-- Zero stands for the lifetime of the token. -/
  tokenBound : g.duration = 0 ↔ g.validity = "token"
  lasting : g.duration ≠ 0 → Duration.read g.validity = .ok g.duration ∧ 1 ≤ g.duration
  hostKeys : g.hostKeys.Regular
  userKeys : g.userKeys.Regular
  patterns : ∀ e ∈ g.hosts, e.1 ∉ Config.settingNames

namespace Config

/-- The group of a section is regular, whatever the numbers of its handles are. -/
theorem Builds.regular {files : FileTree} {d : Ini.Document} {g : HostGroup}
    (h : Builds files d g.plain) : g.Regular where
  tokenBound := h.duration.eq_zero_iff
  lasting hne := h.duration.resolve_left fun htoken => hne htoken.2
  hostKeys := .of_plain h.hostKeys.regular
  userKeys := .of_plain h.userKeys.regular
  patterns := not_mem_settingNames_of_endpoints h.hosts

/-- The groups of a configuration are those of the sections of a document, in order. -/
theorem exists_document_of_parse {files : FileTree} {text : Text} {c : Config}
    (h : ((parse files text).run.run {}).1 = .ok c) :
    ∃ d, Ini.read text = .ok d ∧ c.names = d.names.filter (· ≠ Ini.initialName) ∧
      ∀ g ∈ c.groups, Builds files d g.plain := by
  have hplan : plan files text = .ok c.plain := by
    rw [← outcome_of_parse, h]
    rfl
  unfold plan at hplan
  rcases hread : Ini.read text with lines | d
  · rw [hread] at hplan
    cases hplan
  · rw [hread] at hplan
    obtain ⟨groups, hgroups, heq⟩ := Except.bind_eq_ok_iff.mp hplan
    obtain rfl : groups = c.groups.map HostGroup.plain :=
      congrArg Config.groups (Except.pure_eq_ok_iff.mp heq)
    obtain ⟨hnames, hbuilds⟩ := Except.of_mapM_eq_ok HostGroup.name
      (fun name g hg => (planGroup_eq_ok_iff.mp hg).1) hgroups
    refine ⟨d, rfl, ?_, fun g hg => ?_⟩
    · rw [← hnames, List.map_map]
      rfl
    · exact (planGroup_eq_ok_iff.mp (hbuilds _ (List.mem_map_of_mem hg))).2.1

/-- In every configuration that comes of a text the groups have different names, none of them that
of the defaults, and each group is regular; what is known of a host comes from one group, as it is
there, by a pattern that covers the host. -/
theorem regular_of_parse {files : FileTree} {text : Text} {c : Config}
    (h : ((parse files text).run.run {}).1 = .ok c) :
    c.names.Nodup ∧ ("DEFAULT" : Text) ∉ c.names ∧ (∀ g ∈ c.groups, g.Regular) ∧
      ∀ host info, c.resolve host = .ok info →
        ∃ g ∈ c.groups, ∃ pattern url, (pattern, url) ∈ g.hosts ∧
          Pattern.covers pattern host = true ∧ info = g.info pattern url := by
  obtain ⟨d, hread, hnames, hbuilds⟩ := exists_document_of_parse h
  refine ⟨?_, ?_, fun g hg => (hbuilds g hg).regular, fun host info hinfo => ?_⟩
  · rw [hnames]
    exact ((Ini.nodup_names_of_read hread).filter _).filter _
  · rw [hnames]
    exact fun hmem => of_decide_eq_true (List.mem_filter.mp hmem).2 rfl
  · obtain ⟨g, pattern, heq, hg, pattern', hmem, hcovers, hresolve⟩ := assigns_of_resolve hinfo
    refine ⟨g, hg, pattern', info.endpoint, hmem, hcovers, ?_⟩
    unfold resolve at hinfo
    rw [hresolve] at hinfo
    exact (Except.ok.inj hinfo).symm

/-- Two groups with the keys of the defaults, one for as long as the token, the other for ninety
minutes. -/
def Sample.twoGroups : Text :=
  Text.join [0x0A] ["host-ca-privkey = ca", "host-ca-pubkey = ca.pub", "user-ca-privkey = ca",
    "user-ca-pubkey = ca.pub", "cert-validity = token",
    "[site]", "login.example.org = https://mc.example.org",
    "[campus]", "cert-validity = 90m", "*.example.org = https://mc.example.org/"]

/-- The two groups make a configuration, and it is as every configuration is. -/
theorem regular_sample :
    ∃ c, ((parse Service.Sample.files Sample.twoGroups).run.run {}).1 = .ok c ∧
      c.groups.map (·.duration) = [0, 5400] ∧
      c.names.Nodup ∧ ("DEFAULT" : Text) ∉ c.names ∧ (∀ g ∈ c.groups, g.Regular) ∧
        ∀ host info, c.resolve host = .ok info →
          ∃ g ∈ c.groups, ∃ pattern url, (pattern, url) ∈ g.hosts ∧
            Pattern.covers pattern host = true ∧ info = g.info pattern url := by
  have hdurations : ((parse Service.Sample.files Sample.twoGroups).run.run {}).1.toOption.map
      (fun c => c.groups.map (·.duration)) = some [0, 5400] := by
    decide +kernel
  obtain ⟨c, hc, hdurations⟩ := Option.map_eq_some_iff.mp hdurations
  have hparse := Except.toOption_eq_some_iff.mp hc
  exact ⟨c, hparse, hdurations, regular_of_parse hparse⟩

end Config

end SshAuthority
