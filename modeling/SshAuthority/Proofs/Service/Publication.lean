/-
SshAuthority/Proofs/Service/Publication.lean

The keys of hosts, as the service makes them known.

Every handle that a cache gives for a public half was made of the octets of a file, at this
call or at one before; so was every handle in a configuration. What is known of keys that come
of octets is then known of every pair (`KeyPair.Published`): the text of the key is there if
and only if the comment is in ASCII. The query for a host shows that text, or breaks.

Main result: `published_of_load`; where the query breaks, `accented_broken`.
-/
import SshAuthority.Proofs.Config.Sharing
import SshAuthority.Proofs.Key.Publication
import SshAuthority.Proofs.Service.Unusable

namespace SshAuthority

/-! ### Pairs -/

namespace KeyPair

/-- What becomes of a pair when it is made known, the public half of which was read from these
octets. There is a comment only where a line or an RFC 4716 block was found, and then it is made up of
octets of the file and holds no line feed; so for a file in ASCII there is always a text. -/
structure Published (p : KeyPair) (octets : Bytes) : Prop where
  reads : PublicKey.ofBytes octets = .ok p.publicKey.value
  found : ∃ content, Armor.find? "PUBLIC KEY" (some KeyAlgorithm.lineNames) octets = some content ∧
    p.publicKey.value.comment = content.comment?
  comment : ∀ comment ∈ p.publicKey.value.comment, comment.Sublist (octets.filter (· ≠ 0x0A))
  ascii : (∀ x ∈ octets, x < 0x80) → p.publicKey.value.HasAsciiComment
  shown : p.publicKey.value.HasAsciiComment →
    ∃ t, p.publicText = .ok t ∧ p.publicKey.value.Publishes t
  broken : ¬p.publicKey.value.HasAsciiComment → p.publicText = .error .undecodable

theorem published_of_ofBytes {p : KeyPair} {octets : Bytes}
    (h : PublicKey.ofBytes octets = .ok p.publicKey.value) : p.Published octets := by
  have hcomment := PublicKey.comment_of_ofBytes h
  obtain ⟨htext, hnone⟩ := p.publicKey.value.toAscii?_line
  constructor
  · exact h
  · exact PublicKey.exists_find?_of_ofBytes h
  · exact hcomment
  · exact fun hall comment hmem x hx =>
      hall x (List.mem_filter.mp ((hcomment comment hmem).subset hx)).1
  · intro hascii
    refine ⟨_, ?_, PublicKey.publishes_trim_line (PublicKey.all_ofBytes octets _ h) hascii
      fun comment hmem x hx => ?_⟩
    · unfold publicText
      rw [htext hascii]
    · exact of_decide_eq_true (List.mem_filter.mp ((hcomment comment hmem).subset hx)).2
  · intro hascii
    unfold publicText
    rw [hnone hascii]

end KeyPair

/-- The public half of either pair of a group was read from a file. -/
theorem Config.Builds.exists_published {files : FileTree} {d : Ini.Document} {g : HostGroup}
    (h : Builds files d g.plain) (slot : KeySlot) :
    ∃ octets, KeyFile.octets files .publicHalf (keyPath d g.name slot .publicHalf) = .ok octets ∧
      (g.keys slot).Published octets := by
  obtain ⟨octets, hoctets, hkey⟩ := (KeyFile.of_keyOf .publicHalf (h.key slot .publicHalf)).1
  exact ⟨octets, hoctets, KeyPair.published_of_ofBytes hkey⟩

/-! ### Caches -/

namespace Loading

variable {s : Loading} {half : KeyHalf} {path : Text} {key : Handle half.Key}

/-- What is held after calls was held before, or was read from the files of one of them. -/
theorem exists_files_of_held (calls : List (FileTree × KeyCall))
    (h : (s.afterAll calls).held half path = some key) :
    s.held half path = some key ∨
      ∃ files ∈ calls.map Prod.fst, KeyFile.key half files path = .ok key.value := by
  induction calls generalizing s with
  | nil => exact .inl h
  | cons call calls ih =>
    rcases ih h with h | ⟨files, hmem, hread⟩
    · rcases (grows_of_call s call.1 call.2).added _ _ _ h with h | ⟨-, hread⟩
      · exact .inl h
      · exact .inr ⟨call.1, List.mem_cons_self, hread⟩
    · exact .inr ⟨files, List.mem_cons_of_mem _ hmem, hread⟩

/-- The public half of a pair that a cache gives was read from the files of a call. -/
theorem exists_files_of_pair {calls : List (FileTree × KeyCall)} {files : FileTree}
    {privatePath publicPath : Text} {p : KeyPair} {s' : Loading}
    (h : (Load.pair files privatePath publicPath).run.run (afterAll {} calls) = (.ok p, s')) :
    ∃ files' ∈ calls.map Prod.fst ++ [files],
      KeyFile.publicKey files' publicPath = .ok p.publicKey.value := by
  obtain ⟨-, hheld, -⟩ := Load.held_of_pair h
  -- the call for the pair is the last of the calls
  have hlast : s' = afterAll {} (calls ++ [(files, .pair privatePath publicPath)]) := by
    unfold afterAll at h ⊢
    rw [List.foldl_append]
    exact (congrArg Prod.snd h).symm
  rw [hlast] at hheld
  rcases exists_files_of_held _ hheld with hnone | ⟨files', hmem, hread⟩
  · cases hnone
  · rw [List.map_append] at hmem
    exact ⟨files', hmem, hread⟩

end Loading

/-! ### Queries -/

namespace Service

variable {s : Service} {r : Request} {now : Rat} {answer : Outgoing → Reply}
  {circumstances : Issue.Circumstances} {info : HostInfo} {providers : List Text}

/-- A query for a host of the configuration, whose authorization service names providers that can be
written. -/
structure Shows (s : Service) (r : Request) (answer : Outgoing → Reply) (info : HostInfo)
    (providers : List Text) : Prop where
  resolves : ∃ host, Route.ofPath? r.path = some (.host host) ∧ s.config.resolve host = .ok info
  method : r.method = "GET"
  informed : (((Endpoint.ofUrl s.platform.client info.endpoint s.settings.timeout).info).run
    answer).result = .ok providers
  writable : Handler.writable providers = true

/-- Such a query is answered with the text of the key, or as the defect in its place. -/
theorem response_of_shows (h : s.Shows r answer info providers) :
    (s.outcome r now answer circumstances).response =
      match info.hostKeys.publicText with
      | .ok t => .host t providers
      | .error _ => .internalError := by
  obtain ⟨⟨host, hroute, hresolve⟩, hmethod, hproviders, hwritable⟩ := h
  rw [response_of_host hroute hmethod hresolve]
  unfold Handler.conclude Logged.andThen Handler.hostAnswer
  rw [hproviders]
  dsimp only
  rcases info.hostKeys.publicText with d | t
  · rfl
  · dsimp only
    rw [if_pos hwritable]
    rfl

/-- Whatever a cache was called for before and however the files have changed, the public half of a
pair that it gives was read from a file, and its text is there if and only if the comment is in ASCII:
one line of the key's name, its encoding and the comment, from which the key is imported again. So
it is for all pairs of a configuration that comes of a text. A query for one of its hosts, whose
providers are known, is answered with that text if the comment of the key is in ASCII, and as an
internal error otherwise. -/
theorem published_of_load (files : FileTree) :
    (∀ calls privatePath publicPath p s',
      (Load.pair files privatePath publicPath).run.run (Loading.afterAll {} calls) = (.ok p, s') →
        ∃ files' ∈ calls.map Prod.fst ++ [files], ∃ octets,
          KeyFile.octets files' .publicHalf publicPath = .ok octets ∧ p.Published octets) ∧
    ∀ text c, ((Config.parse files text).run.run {}).1 = .ok c →
      (∃ d, Ini.read text = .ok d ∧ ∀ g ∈ c.groups, ∀ slot, ∃ octets,
        KeyFile.octets files .publicHalf (Config.keyPath d g.name slot .publicHalf) = .ok octets ∧
          (g.keys slot).Published octets) ∧
      ∀ (s : Service) r answer info providers, s.config = c → s.Shows r answer info providers →
        (∃ g ∈ c.groups, info.hostKeys = g.hostKeys) ∧
        ∀ now circumstances,
          (info.hostKeys.publicKey.value.HasAsciiComment → ∃ t,
            info.hostKeys.publicKey.value.Publishes t ∧
              (s.outcome r now answer circumstances).response = .host t providers) ∧
          (¬info.hostKeys.publicKey.value.HasAsciiComment →
            (s.outcome r now answer circumstances).response = .internalError) := by
  constructor
  · intro calls privatePath publicPath p s' h
    obtain ⟨files', hmem, hread⟩ := Loading.exists_files_of_pair h
    obtain ⟨octets, hoctets, hkey⟩ := (KeyFile.of_keyOf .publicHalf hread).1
    exact ⟨files', hmem, octets, hoctets, KeyPair.published_of_ofBytes hkey⟩
  intro text c hparse
  obtain ⟨d, hread, -, hbuilds⟩ := Config.exists_document_of_parse hparse
  have hpublished := fun g hg => (hbuilds g hg).exists_published
  refine ⟨⟨d, hread, hpublished⟩, fun s r answer info providers hconfig hshows => ?_⟩
  -- what is known of the host is known of its group
  obtain ⟨host, -, hresolve⟩ := hshows.resolves
  obtain ⟨g, pattern, heq, hg, -⟩ := Config.assigns_of_resolve hresolve
  rw [hconfig] at hg
  have hkeys : info.hostKeys = g.hostKeys := by rw [heq]; rfl
  obtain ⟨octets, -, hgroup⟩ := hpublished g hg .hosts
  have hhost : info.hostKeys.Published octets := hkeys ▸ hgroup
  refine ⟨⟨g, hg, hkeys⟩, fun now circumstances => ⟨fun hascii => ?_, fun hascii => ?_⟩⟩
  · obtain ⟨t, ht, hpublishes⟩ := hhost.shown hascii
    refine ⟨t, hpublishes, ?_⟩
    rw [response_of_shows hshows, ht]
  · rw [response_of_shows hshows, hhost.broken hascii]

/-! ### A comment that is shown, and one that is not -/

namespace Sample

/-- A reply that names a provider. -/
def providersReply (_ : Outgoing) : Reply :=
  .response 200 (Bytes.ofString "\x7b\"supported_OPs\": [\"https://op.example.org\"]\x7d")

/-- The files with an accented letter after the public key, in UTF-8. -/
def accentedFiles : FileTree :=
  { files with entries := [([Bytes.ofString "ca"], .file keyFile),
      ([Bytes.ofString "ca.pub"],
        .file (Certificate.Sample.authority.line ++ [0x20, 0xC3, 0xA9]))] }

/-- Under a configuration with this endpoint for the host the query has its provider. -/
theorem shows_of_resolve {c : Config} {info : HostInfo} (h : c.resolve "login.example.org" = .ok info)
    (hendpoint : info.endpoint = plain) :
    Shows { service plain with config := c } hostRequest providersReply info
      ["https://op.example.org"] where
  resolves := ⟨"login.example.org", by decide +kernel, h⟩
  method := rfl
  informed := by
    have hproviders : (((Endpoint.ofUrl .sample plain Endpoint.defaultTimeout).info).run
        providersReply).result.toOption = some [Text.ofString "https://op.example.org"] := by
      decide +kernel
    rw [hendpoint]
    exact Except.toOption_eq_some_iff.mp hproviders
  writable := by decide

end Sample

/-- The key of the hosts is shown, with the provider. -/
theorem published_sample :
    ((Config.parse Sample.files (Sample.text Sample.plain)).run.run {}).1 =
        .ok (Sample.service Sample.plain).config ∧
      ∃ t, Certificate.Sample.authority.Publishes t ∧
        ((Sample.service Sample.plain).outcome Sample.hostRequest 0 Sample.providersReply
          Issue.Sample.circumstances).response = .host t ["https://op.example.org"] := by
  have hresolve : (Sample.service Sample.plain).config.resolve "login.example.org" =
      .ok (Issue.Sample.info Sample.plain) := by
    rw [Config.resolve, Sample.resolves_plain]
  obtain ⟨-, hquery⟩ := ((published_of_load Sample.files).2 _ _ Sample.parse_plain).2 _ _ _ _ _ rfl
    (Sample.shows_of_resolve hresolve rfl)
  exact ⟨Sample.parse_plain, (hquery 0 Issue.Sample.circumstances).1 (by decide)⟩

/-- With an accented letter for a comment the configuration is loaded all the same, but the key has no
text, and the query for its host breaks. -/
theorem accented_broken :
    ∃ c, ((Config.parse Sample.accentedFiles (Sample.text Sample.plain)).run.run {}).1 = .ok c ∧
      ∃ info, c.resolve "login.example.org" = .ok info ∧
        info.hostKeys.publicText = .error .undecodable ∧
        (outcome { Sample.service Sample.plain with config := c } Sample.hostRequest 0
          Sample.providersReply Issue.Sample.circumstances).response =
            .error 500 "Internal server error." := by
  have hloaded : ((Config.parse Sample.accentedFiles (Sample.text Sample.plain)).run.run
      {}).1.toOption.map (fun c => (c.resolve "login.example.org").toOption.map fun info =>
        (info.endpoint, info.hostKeys.publicText.error?)) =
      some (some (Sample.plain, some .undecodable)) := by
    decide +kernel
  obtain ⟨c, hc, hresolved⟩ := Option.map_eq_some_iff.mp hloaded
  obtain ⟨info, hinfo, hfacts⟩ := Option.map_eq_some_iff.mp hresolved
  obtain ⟨hendpoint, hdefect⟩ := Prod.mk.inj hfacts
  have hresolve := Except.toOption_eq_some_iff.mp hinfo
  have htext := Except.error?_eq_some_iff.mp hdefect
  refine ⟨c, Except.toOption_eq_some_iff.mp hc, info, hresolve, htext, ?_⟩
  rw [response_of_shows (Sample.shows_of_resolve hresolve hendpoint), htext]
  rfl

end Service

end SshAuthority
