/-
SshAuthority/Proofs/Config/Endpoint.lean

Which endpoints can be asked.

An endpoint is accepted for what its text begins with, and stored without the slashes at its
end; both questions are put after what is stored. Where only slashes come after the colon
there is nothing left but the scheme, and what else stands in the text is not looked at. So
not all that is stored can be asked (`stray_endpoints`). What has to be so besides is known
exactly: the text is a URL with a server, in which there is no blank, no query and no
fragment, and which leaves room for the longer question (`Clean`).

Main result: `usable_iff_of_parse`.
-/
import SshAuthority.Proofs.Config.Regular
import SshAuthority.Proofs.Url.Below

namespace SshAuthority

/-! ### Ends of texts -/

namespace Text

variable {p : CodePoint → Bool}

/-- What is dropped at the end of two texts is dropped from the first one only where nothing is left of
the second. -/
theorem dropRight_append (s t : Text) :
    dropRight p (s ++ t) = if dropRight p t = [] then dropRight p s else s ++ dropRight p t := by
  unfold dropRight
  rw [List.reverse_append, List.dropWhile_append]
  rcases t.reverse.dropWhile p with - | ⟨c, rest⟩ <;> simp

/-- What is left does not end in what is dropped. -/
theorem getLast?_dropRight (t : Text) : ∀ c ∈ (dropRight p t).getLast?, p c = false := by
  intro c hc
  unfold dropRight at hc
  rw [List.getLast?_reverse] at hc
  have h := List.head?_dropWhile_not p t.reverse
  rw [hc] at h
  exact h

theorem dropRight_of_getLast? {t : Text} (h : ∀ c ∈ t.getLast?, p c = false) : dropRight p t = t := by
  rcases List.eq_nil_or_concat t with rfl | ⟨lead, c, rfl⟩
  · rfl
  · rw [List.concat_eq_append] at h ⊢
    exact dropRight_append_of_neg lead [] (h c List.getLast?_concat)

end Text

namespace Endpoint

/-! ### URLs that can be asked -/

/-- The paths that are asked for below a URL. -/
def questions : List Text := ["/info", "/user/status"]

/-- The schemes of the web. -/
def IsWebScheme (scheme : Text) : Prop := scheme = "http" ∨ scheme = "https"

variable {idna : Host.Idna}

/-- A request for a path below the URL goes to the server of the URL, by its scheme, and the path is
put after the path of the URL. -/
structure Asks (idna : Host.Idna) (url path : Text) (base : Url) : Prop where
  read : Url.read idna (url ++ path) = .ok { base with path := base.path ++ path }
  forRequest : Url.forRequest { base with path := base.path ++ path } =
    { base with path := base.path ++ path }

/-- A URL of the web with an authority, in which there is no blank and which ends in no slash, and below
which both questions can be asked. -/
structure Usable (idna : Host.Idna) (url : Text) : Prop where
  web : ∃ scheme authority path : Text, IsWebScheme scheme ∧
    url = scheme ++ Text.ofString "://" ++ (authority ++ path) ∧
    authority ≠ [] ∧ (∀ c ∈ authority, c ≠ 0x2F ∧ c ≠ 0x3F ∧ c ≠ 0x23) ∧ Url.Rooted path
  noBlank : ∀ c ∈ url, c.isBlank = false
  noSlash : url.getLast? ≠ some 0x2F
  asks : ∃ base, Url.read idna url = .ok base ∧ ∀ path ∈ questions, Asks idna url path base

/-- A URL with a server, in which there is no blank, no query and no fragment, and which leaves room for
both questions. -/
structure Clean (idna : Host.Idna) (url : Text) : Prop where
  server : ∃ base, Url.read idna url = .ok base ∧ base.host ≠ []
  noBlank : ∀ c ∈ url, c.isBlank = false
  noFragment : 0x23 ∉ url
  noQuery : 0x3F ∉ url
  room : url.length + 12 ≤ Url.maxLength

/-- A URL as it is stored: a scheme alone, or with something after the two slashes that ends in no
slash. -/
inductive Stored : Text → Prop
  | bare {scheme : Text} (scheme_web : IsWebScheme scheme) : Stored (scheme ++ [0x3A])
  | web {scheme rest : Text} (scheme_web : IsWebScheme scheme) (ne_nil : rest ≠ [])
      (noSlash : rest.getLast? ≠ some 0x2F) : Stored (scheme ++ Text.ofString "://" ++ rest)

namespace IsWebScheme

variable {scheme : Text} (h : IsWebScheme scheme)
include h

theorem isScheme : Url.isScheme scheme = true := by
  rcases h with rfl | rfl <;> decide

theorem not_mem_colon : 0x3A ∉ scheme := by
  rcases h with rfl | rfl <;> decide

theorem dropRight : Text.dropRight (· = 0x2F) (scheme ++ Text.ofString "://") = scheme ++ [0x3A] := by
  rcases h with rfl | rfl <;> decide

theorem lowerAscii_ne_nil : Text.lowerAscii scheme ≠ [] := by
  rcases h with rfl | rfl <;> decide

/-- A scheme alone names no server. -/
theorem host_of_read {base : Url} (hread : Url.read idna (scheme ++ [0x3A]) = .ok base) :
    base.host = [] := by
  have hempty : (Url.splitAuthority (Url.Parts.ofText (scheme ++ [0x3A])).authority).2.1 = [] := by
    rcases h with rfl | rfl <;> decide
  obtain ⟨-, -, hparts⟩ := Url.read_eq_ok_iff.mp hread
  obtain ⟨-, hnormal, -⟩ := Url.ofParts_eq_ok_iff.mp hparts
  rw [hempty] at hnormal
  exact (Except.ok.inj hnormal).symm

end IsWebScheme

/-! ### What is stored -/

/-- Each endpoint is stored as the scheme alone or with something after it. -/
theorem stored_of_endpoint? {value url : Text} (h : Config.endpoint? value = some url) : Stored url := by
  have hdrop {scheme rest : Text} (hscheme : IsWebScheme scheme)
      (hvalue : value.trim = scheme ++ Text.ofString "://" ++ rest) :
      Stored (Text.dropRight (· = 0x2F) value.trim) := by
    rw [hvalue, Text.dropRight_append]
    split
    · rw [hscheme.dropRight]
      exact .bare hscheme
    · next hne =>
      refine .web hscheme hne fun hlast => ?_
      exact absurd (Text.getLast?_dropRight rest 0x2F hlast) (by decide)
  unfold Config.endpoint? at h
  dsimp only at h
  split at h
  · next hstart =>
    obtain rfl := Option.some.inj h
    rcases Bool.or_eq_true_iff.mp hstart with hstart | hstart
    · obtain ⟨rest, hrest⟩ := Text.startsWith_iff.mp hstart
      exact hdrop (.inl rfl) hrest
    · obtain ⟨rest, hrest⟩ := Text.startsWith_iff.mp hstart
      exact hdrop (.inr rfl) hrest
  · cases h

/-! ### What is usable -/

theorem exists_segments : ∀ path ∈ questions, ∃ segments, path = Url.below segments ∧
    ∀ s ∈ segments, Url.Plain s := by
  have hplain (s : Text) (h : s ∈ [Text.ofString "info", Text.ofString "user", Text.ofString "status"]) :
      Url.Plain s := by
    simp only [List.mem_cons, List.not_mem_nil, or_false] at h
    rcases h with rfl | rfl | rfl <;>
      exact ⟨List.all_eq_true.mp (by decide), by decide, by decide, by decide⟩
  intro path hpath
  simp only [questions, List.mem_cons, List.not_mem_nil, or_false] at hpath
  rcases hpath with rfl | rfl
  · exact ⟨["info"], rfl, fun s hs => hplain s (by simp_all)⟩
  · exact ⟨["user", "status"], rfl, fun s hs => hplain s (by simp_all)⟩

theorem length_le_of_mem_questions : ∀ path ∈ questions, path.length ≤ 12 := by decide

/-- The authority of a URL of the web with a server is not empty. -/
theorem authority_ne_nil {scheme rest : Text} {base : Url} (hscheme : IsWebScheme scheme)
    (hfragment : 0x23 ∉ scheme ++ Text.ofString "://" ++ rest)
    (hquery : 0x3F ∉ scheme ++ Text.ofString "://" ++ rest)
    (hread : Url.read idna (scheme ++ Text.ofString "://" ++ rest) = .ok base) (hhost : base.host ≠ []) :
    rest.takeWhile (· ≠ 0x2F) ≠ [] := by
  intro hnil
  obtain ⟨-, -, hparts⟩ := Url.read_eq_ok_iff.mp hread
  rw [Url.Parts.ofText_web hscheme.isScheme hscheme.not_mem_colon hfragment hquery, hnil] at hparts
  obtain ⟨-, hnormal, -⟩ := Url.ofParts_eq_ok_iff.mp hparts
  exact hhost (Except.ok.inj hnormal).symm

/-- The scheme of a URL of the web is there when it is read. -/
theorem scheme_ne_nil {scheme rest : Text} {base : Url} (hscheme : IsWebScheme scheme)
    (hfragment : 0x23 ∉ scheme ++ Text.ofString "://" ++ rest)
    (hquery : 0x3F ∉ scheme ++ Text.ofString "://" ++ rest)
    (hread : Url.read idna (scheme ++ Text.ofString "://" ++ rest) = .ok base) : base.scheme ≠ [] := by
  obtain ⟨-, -, hparts⟩ := Url.read_eq_ok_iff.mp hread
  rw [Url.Parts.ofText_web hscheme.isScheme hscheme.not_mem_colon hfragment hquery] at hparts
  obtain ⟨-, -, -, -, -, -, -, hlower⟩ := Url.ofParts_eq_ok_iff.mp hparts
  rw [hlower]
  exact hscheme.lowerAscii_ne_nil

/-- What follows an authority is a path. -/
theorem rooted_dropWhile (t : Text) : Url.Rooted (t.dropWhile (· ≠ 0x2F)) := by
  have h := List.head?_dropWhile_not (fun c : CodePoint => decide (c ≠ 0x2F)) t
  rcases hdrop : t.dropWhile (· ≠ 0x2F) with - | ⟨c, rest⟩
  · exact .inl hdrop
  · rw [hdrop] at h
    have hslash : c = 0x2F := Decidable.not_not.mp (of_decide_eq_false h)
    exact .inr (by rw [hdrop, hslash]; rfl)

/-- A URL that is clean is usable, if it is stored. -/
theorem Stored.usable {url : Text} (h : Stored url) (hclean : Clean idna url) : Usable idna url := by
  obtain ⟨base, hread, hhost⟩ := hclean.server
  rcases h with ⟨hscheme⟩ | @⟨scheme, rest, hscheme, hne, hlast⟩
  · exact absurd (hscheme.host_of_read hread) hhost
  have hauthority := authority_ne_nil hscheme hclean.noFragment hclean.noQuery hread hhost
  have hschemeBase := scheme_ne_nil hscheme hclean.noFragment hclean.noQuery hread
  refine ⟨⟨scheme, rest.takeWhile (· ≠ 0x2F), rest.dropWhile (· ≠ 0x2F), hscheme, ?_, hauthority,
    fun c hc => ⟨?_, ?_, ?_⟩, ?_⟩, hclean.noBlank, ?_, base, hread, fun path hpath => ⟨?_, ?_⟩⟩
  · rw [List.takeWhile_append_dropWhile]
  · exact of_decide_eq_true (List.all_eq_true.mp List.all_takeWhile c hc)
  · rintro rfl
    exact hclean.noQuery (List.mem_append_right _ ((List.takeWhile_sublist _).subset hc))
  · rintro rfl
    exact hclean.noFragment (List.mem_append_right _ ((List.takeWhile_sublist _).subset hc))
  · exact rooted_dropWhile rest
  · rw [List.getLast?_append, List.getLast?_eq_some_getLast hne]
    rw [List.getLast?_eq_some_getLast hne] at hlast
    exact hlast
  · obtain ⟨segments, rfl, hplain⟩ := exists_segments path hpath
    refine Url.read_append_below hscheme.isScheme hscheme.not_mem_colon hclean.noFragment
      hclean.noQuery hread hhost hplain ?_
    have hlength := length_le_of_mem_questions _ hpath
    have hroom := hclean.room
    rw [List.length_append]
    omega
  · show (if base.scheme.isEmpty || base.host.isEmpty then _ else _) = _
    rw [List.isEmpty_eq_false_iff.mpr hschemeBase, List.isEmpty_eq_false_iff.mpr hhost]
    rfl

/-- A URL that is usable is clean, whether it is stored or not. -/
theorem Usable.clean {url : Text} (h : Usable idna url) : Clean idna url := by
  obtain ⟨base, hread, hasks⟩ := h.asks
  obtain ⟨hfragment, hquery⟩ := Url.not_mem_of_read_append hread (by decide) (by decide)
    (hasks "/info" (by decide)).read
  refine ⟨⟨base, hread, fun hhost => ?_⟩, h.noBlank, hfragment, hquery, ?_⟩
  · -- without a server the scheme is dropped
    obtain ⟨scheme, authority, path, hscheme, rfl, -⟩ := h.web
    have hdropped : [] = base.scheme := by
      have hsame := congrArg Url.scheme (hasks "/info" (by decide)).forRequest
      unfold Url.forRequest at hsame
      rw [hhost, if_pos (by simp)] at hsame
      exact hsame
    exact scheme_ne_nil hscheme hfragment hquery hread hdropped.symm
  · obtain ⟨hlength, -⟩ := Url.read_eq_ok_iff.mp (hasks "/user/status" (by decide)).read
    rw [List.length_append] at hlength
    exact hlength

/-- A request at a usable URL is made, and it is made for the URL with the path behind its path. -/
theorem Usable.request {client : HttpClient} {url : Text} (h : Usable client.idna url)
    (timeout : Real64) {path : Text} (hpath : path ∈ questions) {header : Option Text}
    (hheader : header.all Text.isAscii = true) :
    ∃ base, Url.read client.idna url = .ok base ∧
      (ofUrl client url timeout).request path header = .ok (.ok
        ⟨Url.text { base with path := base.path ++ path }, headerAt base header, timeout⟩) := by
  obtain ⟨base, hread, hasks⟩ := h.asks
  obtain ⟨hbelow, hsame⟩ := hasks path hpath
  have hbase : (ofUrl client url timeout).base = url := by
    refine Text.dropRight_of_getLast? fun c hc => decide_eq_false ?_
    rintro rfl
    exact h.noSlash hc
  rw [← hbase] at hbelow
  refine ⟨base, hread, request_eq_ok_iff.mpr ⟨hheader, _, hbelow, ?_⟩⟩
  rw [hsame]
  rfl

end Endpoint

namespace Config

/-- Each endpoint of a configuration is stored as the scheme alone or with something after it; for
every client it is usable exactly if it is clean, and then both questions are asked as they should
be. -/
theorem usable_iff_of_parse {files : FileTree} {text : Text} {c : Config}
    (h : ((parse files text).run.run {}).1 = .ok c) (client : HttpClient) :
    ∀ g ∈ c.groups, ∀ e ∈ g.hosts,
      Endpoint.Stored e.2 ∧
        (Endpoint.Usable client.idna e.2 ↔ Endpoint.Clean client.idna e.2) ∧
        (Endpoint.Clean client.idna e.2 → ∀ timeout, ∀ path ∈ Endpoint.questions,
          ∀ header : Option Text, header.all Text.isAscii = true →
            ∃ base, Url.read client.idna e.2 = .ok base ∧
              (Endpoint.ofUrl client e.2 timeout).request path header = .ok (.ok
                ⟨Url.text { base with path := base.path ++ path }, Endpoint.headerAt base header,
                  timeout⟩)) := by
  obtain ⟨d, -, -, hbuilds⟩ := exists_document_of_parse h
  intro g hg e he
  obtain ⟨-, value, -, hvalue⟩ := exists_option_of_endpoints (hbuilds g hg).hosts e he
  have hstored := Endpoint.stored_of_endpoint? hvalue
  refine ⟨hstored, ⟨fun h => h.clean, hstored.usable⟩,
    fun hclean timeout path hpath header hheader => ?_⟩
  exact (hstored.usable hclean).request timeout hpath hheader

/-- The endpoint of the sample is usable. -/
theorem usable_sample :
    ((parse Service.Sample.files (Service.Sample.text Service.Sample.plain)).run.run {}).1 =
        .ok (Service.Sample.service Service.Sample.plain).config ∧
      Endpoint.Usable HttpClient.sample.idna Service.Sample.plain := by
  have hserver : (Url.read HttpClient.sample.idna Service.Sample.plain).toOption.map (·.host) =
      some "mc.example.org" := by
    decide +kernel
  obtain ⟨base, hread, hhost⟩ := Option.map_eq_some_iff.mp hserver
  have hclean : Endpoint.Clean HttpClient.sample.idna Service.Sample.plain := {
    server := ⟨base, Except.toOption_eq_some_iff.mp hread, by rw [hhost]; decide⟩
    noBlank := fun c hc => by
      have hall : Service.Sample.plain.all (fun c => !c.isBlank) = true := by decide
      simpa using List.all_eq_true.mp hall c hc
    noFragment := by decide
    noQuery := by decide
    room := by decide }
  obtain ⟨-, husable, -⟩ := usable_iff_of_parse Service.Sample.parse_plain .sample
    (Issue.Sample.group Service.Sample.plain) (List.mem_singleton_self _)
    ("login.example.org", Service.Sample.plain) (List.mem_singleton_self _)
  exact ⟨Service.Sample.parse_plain, husable.mpr hclean⟩

/-! ### Endpoints that cannot be asked -/

open Service.Sample (files text service)

/-- A text that is accepted as that of an endpoint although what is stored for it is usable for no
client. -/
def Stray (endpoint : Text) : Prop :=
  ∃ c, ((parse files (text endpoint)).run.run {}).1 = .ok c ∧
    ∃ g ∈ c.groups, ∃ e ∈ g.hosts, ∀ idna, ¬Endpoint.Usable idna e.2

theorem stray_of_not_clean {endpoint url : Text}
    (h : ((parse files (text endpoint)).run.run {}).1 = .ok (service url).config)
    (hclean : ∀ idna, ¬Endpoint.Clean idna url) : Stray endpoint :=
  ⟨_, h, Issue.Sample.group url, List.mem_singleton_self _, ("login.example.org", url),
    List.mem_singleton_self _, fun idna husable => hclean idna husable.clean⟩

/-- Slashes alone are accepted, and so are a port that is no number, a query, and a blank. -/
theorem stray_endpoints :
    Stray "https://" ∧ Stray "https://mc.example.org:port" ∧ Stray "https://mc.example.org?x=1" ∧
      Stray "https://mc example.org" := by
  have hslashes : ((parse files (text "https://")).run.run {}).1 = .ok (service "https:").config :=
    Except.toOption_eq_some_iff.mp (by decide +kernel)
  have hport : ((parse files (text "https://mc.example.org:port")).run.run {}).1 =
      .ok (service "https://mc.example.org:port").config :=
    Except.toOption_eq_some_iff.mp (by decide +kernel)
  have hquery : ((parse files (text "https://mc.example.org?x=1")).run.run {}).1 =
      .ok (service "https://mc.example.org?x=1").config :=
    Except.toOption_eq_some_iff.mp (by decide +kernel)
  have hblank : ((parse files (text "https://mc example.org")).run.run {}).1 =
      .ok (service "https://mc example.org").config :=
    Except.toOption_eq_some_iff.mp (by decide +kernel)
  refine ⟨stray_of_not_clean hslashes fun idna h => ?_, stray_of_not_clean hport fun idna h => ?_,
    stray_of_not_clean hquery fun idna h => ?_, stray_of_not_clean hblank fun idna h => ?_⟩
  · obtain ⟨base, hread, hhost⟩ := h.server
    exact hhost (Endpoint.IsWebScheme.host_of_read (.inr rfl) hread)
  · obtain ⟨base, hread, -⟩ := h.server
    obtain ⟨-, -, hparts⟩ := Url.read_eq_ok_iff.mp hread
    obtain ⟨-, -, hport, -⟩ := Url.ofParts_eq_ok_iff.mp hparts
    have hnone : (Url.port? "https" "port").toOption = none := by decide +kernel
    rw [show Url.port? "https" "port" = .ok base.port from hport] at hnone
    cases hnone
  · exact absurd h.noQuery (by decide)
  · exact absurd (h.noBlank 0x20 (by decide)) (by decide)

end Config

end SshAuthority
