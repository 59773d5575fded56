/-
SshAuthority/Proofs/Service/HostQuery.lean

What a query for a host makes known, and what it is told instead.

A path of one segment is a query for the host of that name, but for the two names that lead
elsewhere: that under which the framework shows its schema, and a line feed alone
(`Route.ofPath?_segment`). Neither is ever looked for in the configuration.

A query ends in one of three ways. Where no pattern covers the host it is refused and nothing
is asked. Otherwise the endpoint of the first group that has the host is asked once for its
providers, and where there are none in the reply (`Reply.Useless`) the caller learns that.
Where there are, the answer shows them, each in its words and all in their order, with the
key that vouches for the hosts of that group (`Shown`).

The question carries no header of its own; but if the URL of the endpoint has user
information, that is sent as one (`exceptions_of_host`). A URL that is stored and can be read
can be asked as well, as long as there is room for the path (`Stored.read_append_info`).

Main result: `shown_of_host`.
-/
import SshAuthority.Proofs.Config.Endpoint
import SshAuthority.Proofs.Config.Pattern
import SshAuthority.Proofs.Service.Publication

namespace SshAuthority

/-! ### URLs that are accepted -/

namespace Url

variable {idna : Host.Idna} {p p' : Parts} {u : Url}

/-- Whether parts are those of a URL is decided by the scheme, the authority and whether the path fits
behind them. With those of a URL only the escaping can fail. -/
theorem ofParts_ne_invalidUrl (h : ofParts idna p = .ok u) (hscheme : p'.scheme = p.scheme)
    (hauthority : p'.authority = p.authority)
    (hfits : pathFits (!p.scheme.isEmpty) (!u.userInfo.isEmpty || !u.host.isEmpty || u.port.isSome)
      p'.path = true) :
    ofParts idna p' ≠ .error .invalidUrl := by
  obtain ⟨huser, hhost, hport, -⟩ := ofParts_eq_ok_iff.mp h
  have hquote {safe : CodePoint → Bool} {t : Text} : quote safe t ≠ .error .invalidUrl := by
    intro herror
    cases quote_eq_error herror
  have hoptional {safe : CodePoint → Bool} {t : Option Text} :
      quoteOptional safe t ≠ .error .invalidUrl := by
    intro herror
    cases quoteOptional_eq_error herror
  intro herror
  unfold ofParts at herror
  rw [hscheme, hauthority] at herror
  dsimp only at herror
  rw [huser, hhost, hport] at herror
  replace herror : (if !pathFits _ _ p'.path then _ else _) = _ := herror
  rw [hfits] at herror
  rcases Except.bind_eq_error_iff.mp herror with herror | ⟨path, -, herror⟩
  · exact hquote herror
  rcases Except.bind_eq_error_iff.mp herror with herror | ⟨query, -, herror⟩
  · exact hoptional herror
  rcases Except.bind_eq_error_iff.mp herror with herror | ⟨fragment, -, herror⟩
  · exact hoptional herror
  cases herror

/-- Behind a scheme, a path that fits can be gone on with a rooted one. -/
theorem pathFits_append {hasAuthority : Bool} {path more : Text}
    (h : pathFits true hasAuthority path = true) (hmore : Rooted more) :
    pathFits true hasAuthority (path ++ more) = true := by
  cases hasAuthority with
  | false => rfl
  | true => exact pathFits_iff.mpr ((pathFits_iff.mp h).append_rooted hmore)

end Url

namespace Endpoint

variable {idna : Host.Idna} {url scheme rest : Text} {base : Url}

theorem rooted_info : Url.Rooted (Text.ofString "/info") := .inr rfl

theorem IsWebScheme.isEmpty_eq_false (h : IsWebScheme scheme) : (!scheme.isEmpty) = true := by
  rcases h with rfl | rfl <;> rfl

/-- Behind a query or a fragment the path is part of it, and the other parts stay. -/
theorem ofParts_append_info_of_mem (hmark : 0x23 ∈ url ∨ 0x3F ∈ url)
    (hparts : Url.ofParts idna (Url.Parts.ofText url) = .ok base) :
    Url.ofParts idna (Url.Parts.ofText (url ++ Text.ofString "/info")) ≠ .error .invalidUrl := by
  have hfront := Url.Parts.ofText_of_front (Url.front_append_of_mem hmark
    (by decide : 0x23 ∉ Text.ofString "/info"))
  obtain ⟨-, -, -, hfits, -⟩ := Url.ofParts_eq_ok_iff.mp hparts
  rw [hfront]
  exact Url.ofParts_ne_invalidUrl hparts rfl rfl hfits

namespace IsWebScheme

/-- Behind a scheme alone there is no authority that the path could run into. -/
theorem ofParts_append_info (h : IsWebScheme scheme)
    (hparts : Url.ofParts idna (Url.Parts.ofText (scheme ++ [0x3A])) = .ok base) :
    Url.ofParts idna (Url.Parts.ofText (scheme ++ [0x3A] ++ Text.ofString "/info")) ≠
      .error .invalidUrl := by
  have hbare : ∀ more ∈ [[], Text.ofString "/info"], Url.Parts.ofText (scheme ++ [0x3A] ++ more) =
      ⟨scheme, [], more, none, none⟩ := by
    rcases h with rfl | rfl <;> decide
  rw [← List.append_nil (scheme ++ [0x3A]), hbare [] List.mem_cons_self] at hparts
  rw [hbare _ (List.mem_cons_of_mem _ (List.mem_singleton_self _))]
  obtain ⟨-, -, -, hfits, -⟩ := Url.ofParts_eq_ok_iff.mp hparts
  refine Url.ofParts_ne_invalidUrl hparts rfl rfl ?_
  dsimp only at hfits ⊢
  rw [h.isEmpty_eq_false] at hfits ⊢
  exact Url.pathFits_append hfits rooted_info

/-- Behind an authority and a path, which need not be there, the path goes on. -/
theorem ofParts_web_append_info (h : IsWebScheme scheme)
    (hfragment : 0x23 ∉ scheme ++ Text.ofString "://" ++ rest)
    (hquery : 0x3F ∉ scheme ++ Text.ofString "://" ++ rest)
    (hparts : Url.ofParts idna (Url.Parts.ofText (scheme ++ Text.ofString "://" ++ rest)) = .ok base) :
    Url.ofParts idna (Url.Parts.ofText
      (scheme ++ Text.ofString "://" ++ rest ++ Text.ofString "/info")) ≠ .error .invalidUrl := by
  rw [Url.Parts.ofText_web h.isScheme h.not_mem_colon hfragment hquery] at hparts
  have hnot (mark : CodePoint) (hmark : mark ∉ Text.ofString "/info")
      (h : mark ∉ scheme ++ Text.ofString "://" ++ rest) :
      mark ∉ scheme ++ Text.ofString "://" ++ (rest ++ Text.ofString "/info") := by
    rw [← List.append_assoc]
    exact fun hmem => (List.mem_append.mp hmem).elim h hmark
  rw [List.append_assoc, Url.Parts.ofText_web h.isScheme h.not_mem_colon
    (hnot 0x23 (by decide) hfragment) (hnot 0x3F (by decide) hquery)]
  obtain ⟨-, -, -, hfits, -⟩ := Url.ofParts_eq_ok_iff.mp hparts
  refine Url.ofParts_ne_invalidUrl hparts rfl (Url.takeWhile_append_rooted rooted_info) ?_
  dsimp only at hfits ⊢
  rw [h.isEmpty_eq_false] at hfits ⊢
  rw [Url.takeWhile_append_rooted rooted_info,
    List.drop_append_of_le_length (List.takeWhile_sublist _).length_le]
  exact Url.pathFits_append hfits rooted_info

end IsWebScheme

/-- A URL that is stored and can be read can be asked for its providers, if there is room for the
path. -/
theorem Stored.read_append_info (h : Stored url) (hread : Url.read idna url = .ok base)
    (hroom : url.length + 5 ≤ Url.maxLength) :
    Url.read idna (url ++ Text.ofString "/info") ≠ .error .invalidUrl := by
  obtain ⟨-, hcontrol, hparts⟩ := Url.read_eq_ok_iff.mp hread
  have hopen : (decide (Url.maxLength < (url ++ Text.ofString "/info").length) ||
      (url ++ Text.ofString "/info").any Url.isControl) = false := by
    rw [List.any_append, hcontrol, List.length_append, show (Text.ofString "/info").length = 5 from rfl,
      decide_eq_false (Nat.not_lt.mpr hroom)]
    decide
  unfold Url.read
  rw [hopen, if_neg Bool.false_ne_true]
  -- the path goes to the part that the URL ends in
  by_cases hmark : 0x23 ∈ url ∨ 0x3F ∈ url
  · exact ofParts_append_info_of_mem hmark hparts
  obtain ⟨hfragment, hquery⟩ := not_or.mp hmark
  cases h with
  | bare hscheme => exact hscheme.ofParts_append_info hparts
  | web hscheme => exact hscheme.ofParts_web_append_info hfragment hquery hparts

end Endpoint

/-! ### Hosts and their groups -/

namespace Config

variable {config : Config} {host pattern url : Text} {g : HostGroup} {info : HostInfo}

/-- The group is the first with a pattern that covers the host, and pattern and URL are the first of its
entries that does. -/
structure Finds (config : Config) (host : Text) (g : HostGroup) (pattern url : Text) : Prop where
  group : ∃ before after, config.groups = before ++ g :: after ∧
    ∀ g' ∈ before, ∀ e ∈ g'.hosts, Pattern.covers e.1 host = false
  entry : ∃ before after, g.hosts = before ++ (pattern, url) :: after ∧
    ∀ e ∈ before, Pattern.covers e.1 host = false
  covers : Pattern.covers pattern host = true

/-- What is said of a host is said by the group that is found for it. -/
theorem resolve_eq_ok_iff_finds :
    config.resolve host = .ok info ↔
      ∃ g pattern url, config.Finds host g pattern url ∧ info = g.info pattern url := by
  rw [resolve_eq_ok_iff]
  unfold resolve?
  rw [List.findSome?_eq_some_iff]
  constructor
  · rintro ⟨before, g, after, hgroups, hfound, hbefore⟩
    obtain ⟨⟨pattern, url⟩, hentry, rfl⟩ := Option.map_eq_some_iff.mp hfound
    obtain ⟨hcovers, front, back, hhosts, hfront⟩ := List.find?_eq_some_iff_append.mp hentry
    exact ⟨g, pattern, url, {
      group := ⟨before, after, hgroups, fun g' hg' => HostGroup.resolve?_eq_none_iff.mp (hbefore g' hg')⟩
      entry := ⟨front, back, hhosts, fun e he => by simpa using hfront e he⟩
      covers := hcovers }, rfl⟩
  · rintro ⟨g, pattern, url, ⟨⟨before, after, hgroups, hbefore⟩, ⟨front, back, hhosts, hfront⟩,
      hcovers⟩, rfl⟩
    refine ⟨before, g, after, hgroups, Option.map_eq_some_iff.mpr ⟨(pattern, url), ?_, rfl⟩,
      fun g' hg' => HostGroup.resolve?_eq_none_iff.mpr (hbefore g' hg')⟩
    exact List.find?_eq_some_iff_append.mpr
      ⟨hcovers, front, back, hhosts, fun e he => by simpa using hfront e he⟩

theorem Finds.mem (h : config.Finds host g pattern url) :
    g ∈ config.groups ∧ (pattern, url) ∈ g.hosts := by
  obtain ⟨⟨before, after, hgroups, -⟩, ⟨front, back, hhosts, -⟩, -⟩ := h
  rw [hgroups, hhosts]
  exact ⟨List.mem_append_right _ List.mem_cons_self, List.mem_append_right _ List.mem_cons_self⟩

end Config

/-! ### Replies -/

namespace Reply

variable {reply : Reply}

/-- A reply of success, an object that lists these providers. -/
def Lists (reply : Reply) (items : List Json) : Prop :=
  ∃ status body entries, reply = .response status body ∧ isSuccess status = true ∧
    Json.readBytes body = .ok (.object entries) ∧
    Table.get? "supported_OPs" entries = some (.array items)

/-- A reply that lists no providers, for one reason or another: it was lost, or it is none of success,
no JSON (which it may be without being read, if it nests too deep), no object, or one without
a list. -/
inductive Useless : Reply → Prop
  | lost {words : Text} : Useless (.lost words)
  | status {status : Nat} {body : Bytes} (h : isSuccess status = false) :
      Useless (.response status body)
  | noJson {status : Nat} {body : Bytes} {fault : Json.Fault}
      (h : Json.readBytes body = .error fault) (hdeep : fault ≠ .tooDeep) :
      Useless (.response status body)
  | noObject {status : Nat} {body : Bytes} {value : Json} (h : Json.readBytes body = .ok value)
      (hvalue : ∀ entries, value ≠ .object entries) : Useless (.response status body)
  | noList {status : Nat} {body : Bytes} {entries : List (Text × Json)}
      (h : Json.readBytes body = .ok (.object entries))
      (hlist : ∀ items, Table.get? "supported_OPs" entries ≠ some (.array items)) :
      Useless (.response status body)

theorem Useless.not_lists (h : reply.Useless) (items : List Json) : ¬reply.Lists items := by
  rintro ⟨status, body, entries, rfl, hsuccess, hread, hlist⟩
  cases h with
  | status h => rw [h] at hsuccess; cases hsuccess
  | noJson h => rw [h] at hread; cases hread
  | noObject h hvalue =>
    rw [h] at hread
    exact hvalue _ (Except.ok.inj hread)
  | noList h hnone =>
    rw [h] at hread
    cases hread
    exact hnone items hlist

theorem Useless.not_tooDeep (h : reply.Useless) : ¬reply.TooDeep := by
  rintro ⟨status, body, rfl, hsuccess, hread⟩
  cases h with
  | status h => rw [h] at hsuccess; cases hsuccess
  | noJson h hdeep =>
    rw [h] at hread
    exact hdeep (Except.error.inj hread)
  | noObject h => rw [h] at hread; cases hread
  | noList h => rw [h] at hread; cases hread

end Reply

/-- The providers that a value lists are in it under their name. -/
theorem Endpoint.providers?_eq_some_iff {value : Json} {providers : List Text} :
    providers? value = some providers ↔ ∃ entries items, value = .object entries ∧
      Table.get? "supported_OPs" entries = some (.array items) ∧
      providers = items.map Json.display := by
  unfold providers? Json.get?
  constructor
  · intro h
    split at h
    · next items hitems =>
      split at hitems
      · next entries => exact ⟨entries, items, rfl, hitems, (Option.some.inj h).symm⟩
      · cases hitems
    · cases h
  · rintro ⟨entries, items, rfl, hitems, rfl⟩
    dsimp only
    rw [hitems]

/-- The providers are known if the question could be asked and the reply lists them; each is known by
its display form. -/
theorem Endpoint.info_result_eq_ok_iff {e : Endpoint} {answer : Outgoing → Reply}
    {providers : List Text} :
    (e.info.run answer).result = .ok providers ↔
      ∃ out items, e.request "/info" none = .ok (.ok out) ∧ (answer out).Lists items ∧
        providers = items.map Json.display := by
  unfold info
  dsimp only
  rw [inquire_result_eq_ok_iff fun _ => rfl]
  constructor
  · rintro ⟨out, value, hrequest, hjson, h⟩
    obtain ⟨status, body, hreply, hsuccess, hread⟩ := Reply.json_eq_ok_iff.mp hjson
    split at h
    · next list hlist =>
      obtain ⟨entries, items, rfl, hitems, rfl⟩ := providers?_eq_some_iff.mp hlist
      exact ⟨out, items, hrequest, ⟨status, body, entries, hreply, hsuccess, hread, hitems⟩,
        (Except.ok.inj h).symm⟩
    · cases h
  · rintro ⟨out, items, hrequest, ⟨status, body, entries, hreply, hsuccess, hread, hlist⟩, rfl⟩
    refine ⟨out, _, hrequest, Reply.json_eq_ok_iff.mpr ⟨status, body, hreply, hsuccess, hread⟩, ?_⟩
    rw [providers?_eq_some_iff.mpr ⟨entries, items, rfl, hlist, rfl⟩]
    rfl

/-! ### Paths of one segment -/

/-- A segment leads to the host of its name, unless it is the name of the schema or, without a line
feed at its end, none at all. -/
theorem Route.ofPath?_segment {segment : Text} (hne : segment ≠ []) (hslash : 0x2F ∉ segment) :
    ofPath? (0x2F :: segment) = some
      (if overlookLineFeed segment = "openapi.json" then .schema
      else if overlookLineFeed segment = [] then .index else .host segment) := by
  -- the other fixed text has a slash in it
  have hhealth : overlookLineFeed segment ≠ "api/health" := by
    intro h
    have hmem : 0x2F ∈ overlookLineFeed segment := by
      rw [h]
      decide
    refine hslash ?_
    unfold overlookLineFeed at hmem
    split at hmem
    · exact (List.dropLast_sublist _).subset hmem
    · exact hmem
  have hsegment : segment? segment = some segment := by
    unfold segment?
    simp [hne, hslash]
  unfold ofPath?
  rw [show Text.after? "/" (0x2F :: segment) = some segment from Text.after?_eq_some_iff.mpr rfl]
  show (if _ then _ else _) = _
  rw [if_neg hhealth, hsegment]
  split
  · rfl
  · split <;> rfl

/-! ### Queries -/

/-- The answer of a host is the text of its key, and the providers as they are. -/
theorem Handler.hostAnswer_result_eq_ok_iff {info : HostInfo} {providers providers' : List Text}
    {key : Text} :
    (hostAnswer info providers).result = .ok (key, providers') ↔
      info.hostKeys.publicText = .ok key ∧ writable providers = true ∧ providers = providers' := by
  unfold hostAnswer
  rcases info.hostKeys.publicText with d | key'
  · simp [Logged.fail]
  · dsimp only
    split
    · next hwritable => simp [Logged.pure, hwritable]
    · next hwritable => simp [Logged.fail, hwritable]

/-- The text of a key that was read from octets is that of the key. -/
theorem KeyPair.Published.publishes {p : KeyPair} {octets : Bytes} {t : Text} (h : p.Published octets)
    (htext : p.publicText = .ok t) : p.publicKey.value.Publishes t := by
  by_cases hascii : p.publicKey.value.HasAsciiComment
  · obtain ⟨t', ht, hpublishes⟩ := h.shown hascii
    rw [htext] at ht
    exact Except.ok.inj ht ▸ hpublishes
  · rw [h.broken hascii] at htext
    cases htext

namespace Service

variable {s : Service} {r : Request} {now : Rat} {answer : Outgoing → Reply}
  {circumstances : Issue.Circumstances} {host : Text} {info : HostInfo}

/-- A query for a path of one segment, as it comes in. -/
structure Gets (r : Request) (segment : Text) : Prop where
  path : r.path = 0x2F :: segment
  ne_nil : segment ≠ []
  noSlash : 0x2F ∉ segment
  method : r.method = "GET"

/-- A query that leads to a host. -/
structure Queries (r : Request) (host : Text) : Prop where
  route : Route.ofPath? r.path = some (.host host)
  method : r.method = "GET"

theorem Gets.queries (h : Gets r host) (hschema : Route.overlookLineFeed host ≠ "openapi.json")
    (hindex : Route.overlookLineFeed host ≠ []) : Queries r host where
  route := by rw [h.path, Route.ofPath?_segment h.ne_nil h.noSlash, if_neg hschema, if_neg hindex]
  method := h.method

/-- What is answered without a look at the configuration is answered at once. -/
theorem response_of_settled {route : Route} {response : Response}
    (hroute : Route.ofPath? r.path = some route) (hmethod : r.method ∈ route.methods)
    (hreads : ∀ host, route ≠ .certificate host) (hquery : s.query r route = settled response) :
    (s.outcome r now answer circumstances).response = response ∧
      (s.receive r now).2.requests = [] := by
  have hreceive : (s.receive r now).2 = (s.query r route).logged s.log := by
    unfold receive
    rw [hroute]
    dsimp only
    rw [if_neg (Decidable.not_not.mpr hmethod)]
    cases route
    case certificate host => exact absurd rfl (hreads host)
    all_goals rfl
  unfold outcome
  rw [hreceive, hquery]
  exact ⟨rfl, rfl⟩

/-- A query is taken in as one. -/
theorem receive_of_queries (h : Queries r host) :
    (s.receive r now).2 = (s.query r (.host host)).logged s.log := by
  have hcall : (s.accept r now).2 = some (.host host) :=
    accept_eq_some_iff.mpr ⟨_, h.route, List.mem_singleton.mpr h.method, rfl⟩
  exact receive_of_accept hcall

/-- An unknown host is refused, and nothing is asked. -/
theorem response_of_unknown {f : Failure} (h : Queries r host)
    (hresolve : s.config.resolve host = .error f) :
    (s.outcome r now answer circumstances).response = .error 400 "Unknown host." ∧
      (s.receive r now).2.requests = [] := by
  obtain ⟨-, rfl⟩ := Config.resolve_eq_error_iff.mp hresolve
  have hquery : s.query r (.host host) = (Inquiry.done (.fail (.unknownHost host))).map
      fun answer _ => Handler.conclude r
        (fun (publicKey, providers) => .host publicKey providers) answer := by
    unfold query Handler.hostQuery
    dsimp only
    rw [hresolve]
  unfold outcome
  rw [receive_of_queries h, run_logged_response, requests_logged, hquery]
  exact ⟨rfl, rfl⟩

/-- The question for the providers is all that is asked. -/
theorem requests_of_host (h : Queries r host) (hresolve : s.config.resolve host = .ok info) :
    (s.receive r now).2.requests =
      (Endpoint.ofUrl s.platform.client info.endpoint s.settings.timeout).info.requests := by
  rw [receive_of_queries h, requests_logged]
  unfold query Handler.hostQuery
  dsimp only
  rw [Inquiry.requests_map, hresolve]
  dsimp only
  rw [Inquiry.requests_map]

/-- What a query makes known, and where it comes from: a group that has the host, one question to its
endpoint, with no header but that of a user in the URL, a reply that lists providers, and the key
that vouches for the hosts of the group. -/
structure Shown (s : Service) (r : Request) (now : Rat) (answer : Outgoing → Reply)
    (circumstances : Issue.Circumstances) (host : Text) (g : HostGroup) (url : Text) (out : Outgoing)
    (items : List Json) (key : Text) : Prop where
  finds : ∃ pattern, s.config.Finds host g pattern url
  requests : (s.receive r now).2.requests = [out]
  asks : ∃ parsed, Url.read s.platform.client.idna (url ++ Text.ofString "/info") = .ok parsed ∧
    out = ⟨parsed.forRequest.text, Endpoint.headerAt parsed.forRequest none, s.settings.timeout⟩
  reply : (answer out).Lists items
  publishes : g.hostKeys.publicKey.value.Publishes key
  response : (s.outcome r now answer circumstances).response =
    .host key (items.map Json.display)

/-- What a query shows was asked for. -/
theorem exists_shown_of_status {files : FileTree} {text : Text}
    (hconfig : ((Config.parse files text).run.run {}).1 = .ok s.config) (h : Queries r host)
    (hstatus : (s.outcome r now answer circumstances).response.status = 200) :
    ∃ g url out items key, s.Shown r now answer circumstances host g url out items key := by
  rcases hresolve : s.config.resolve host with f | info
  · rw [(response_of_unknown h hresolve).1] at hstatus
    cases hstatus
  rw [response_of_host h.route h.method hresolve] at hstatus
  obtain ⟨⟨key, providers⟩, hresult, hresponse⟩ :=
    Handler.exists_of_conclude_status (by rw [hstatus]; decide)
  obtain ⟨providers', hinfo, hanswer⟩ := Logged.andThen_result_eq_ok_iff.mp hresult
  obtain ⟨hkey, -, rfl⟩ := Handler.hostAnswer_result_eq_ok_iff.mp hanswer
  obtain ⟨out, items, hrequest, hlists, rfl⟩ := Endpoint.info_result_eq_ok_iff.mp hinfo
  obtain ⟨g, pattern, url, hfinds, rfl⟩ := Config.resolve_eq_ok_iff_finds.mp hresolve
  obtain ⟨hg, hentry⟩ := hfinds.mem
  obtain ⟨-, parsed, hread, hout⟩ := Endpoint.request_eq_ok_iff.mp hrequest
  -- endpoints that were loaded end in no slash, so the client drops none
  rw [show (Endpoint.ofUrl s.platform.client (g.info pattern url).endpoint
    s.settings.timeout).base = url from
      (Config.sound_of_parse hconfig g hg).endpoints _ hentry] at hread
  obtain ⟨d, -, -, hbuilds⟩ := Config.exists_document_of_parse hconfig
  obtain ⟨octets, -, hpublished⟩ := (hbuilds g hg).exists_published .hosts
  exact ⟨g, url, out, items, key, {
    finds := ⟨pattern, hfinds⟩
    requests := by
      rw [requests_of_host h hresolve]
      exact Endpoint.requests_inquire hrequest
    asks := ⟨parsed, hread, hout⟩
    reply := hlists
    publishes := hpublished.publishes hkey
    response := (response_of_host h.route h.method hresolve).trans hresponse }⟩

/-- Where the endpoint of a host can be asked and says nothing useful, the caller is told so. -/
theorem response_of_useless {info : HostInfo} (h : Queries r host)
    (hresolve : s.config.resolve host = .ok info)
    (hurl : Url.read s.platform.client.idna
      (Text.dropRight (· = 0x2F) info.endpoint ++ Text.ofString "/info") ≠ .error .invalidUrl)
    (huseless : ∀ out ∈ (s.receive r now).2.requests, (answer out).Useless) :
    (s.outcome r now answer circumstances).response = .error 502 "motley_cue is not reachable." := by
  rw [requests_of_host h hresolve] at huseless
  -- a question that was asked has a reply of no use
  have hreply {out : Outgoing} (hasks : (Endpoint.ofUrl s.platform.client info.endpoint
      s.settings.timeout).request "/info" none = .ok (.ok out)) : (answer out).Useless := by
    refine huseless out ?_
    rw [show (Endpoint.ofUrl s.platform.client info.endpoint s.settings.timeout).info.requests =
      [out] from Endpoint.requests_inquire hasks]
    exact List.mem_singleton_self out
  have hwhole (d : Defect) :
      ¬(Endpoint.ofUrl s.platform.client info.endpoint s.settings.timeout).InfoBreaks answer d := by
    intro hbreaks
    cases hbreaks with
    | url hread => exact hurl hread
    | reply hasks hdeep => exact (hreply hasks).not_tooDeep hdeep
  have hasks : s.AsksInfo r info.endpoint s.settings.timeout :=
    ⟨⟨host, info, h.route, h.method, hresolve, rfl⟩, rfl⟩
  rcases (Endpoint.ends_info _ answer).whole hwhole with ⟨providers, hvalue⟩ | ⟨f, ⟨fault, rfl⟩, hf⟩
  · obtain ⟨out, items, hrequest, hlists, -⟩ := Endpoint.info_result_eq_ok_iff.mp hvalue
    exact absurd hlists ((hreply hrequest).not_lists items)
  · rw [response_of_info hasks hf]
    rfl

/-- A query for a path of one segment. Two names are no hosts, whatever the configuration says: to
that of the schema the framework answers, and a line feed alone is overlooked. Any other query that
is answered with a key and providers has asked one question, at the endpoint of the first group that
has the host; the providers are those of the reply, each in its words and all in their order, and
the key is the one that vouches for the hosts of that group. An unknown host is refused, and
nothing is asked for it. If the endpoint can be asked, as every one can that can be read and leaves
room for the path, and nothing useful comes back, the caller learns that it is not reachable. -/
theorem shown_of_host {files : FileTree} {text : Text} {s : Service} {r : Request} {host : Text}
    (hconfig : ((Config.parse files text).run.run {}).1 = .ok s.config) (h : Gets r host)
    (now : Rat) (answer : Outgoing → Reply) (circumstances : Issue.Circumstances) :
    let response := (s.outcome r now answer circumstances).response
    let requests := (s.receive r now).2.requests
    (Route.overlookLineFeed host = "openapi.json" →
      response = .schema s.platform.schema ∧ requests = []) ∧
    (Route.overlookLineFeed host = [] → response = .index ∧ requests = []) ∧
    (Route.overlookLineFeed host ≠ "openapi.json" → Route.overlookLineFeed host ≠ [] →
      (response.status = 200 →
        ∃ g url out items key, s.Shown r now answer circumstances host g url out items key) ∧
      ((∀ g ∈ s.config.groups, ∀ e ∈ g.hosts, Pattern.covers e.1 host = false) →
        response = .error 400 "Unknown host." ∧ requests = []) ∧
      ∀ g pattern url, s.config.Finds host g pattern url →
        (∀ base, Url.read s.platform.client.idna url = .ok base → url.length + 5 ≤ Url.maxLength →
          Url.read s.platform.client.idna (url ++ Text.ofString "/info") ≠ .error .invalidUrl) ∧
        (Url.read s.platform.client.idna (url ++ Text.ofString "/info") ≠ .error .invalidUrl →
          (∀ out ∈ requests, (answer out).Useless) →
            response = .error 502 "motley_cue is not reachable.")) := by
  have hroute := Route.ofPath?_segment h.ne_nil h.noSlash
  rw [← h.path] at hroute
  refine ⟨fun hschema => ?_, fun hindex => ?_, fun hschema hindex => ?_⟩
  -- the two names that lead elsewhere, in the order in which they are looked for
  · rw [if_pos hschema] at hroute
    exact response_of_settled hroute (by rw [h.method]; decide) (fun _ => nofun) rfl
  · rw [if_neg (by rw [hindex]; decide), if_pos hindex] at hroute
    exact response_of_settled hroute (by rw [h.method]; decide) (fun _ => nofun) rfl
  have hqueries := h.queries hschema hindex
  refine ⟨exists_shown_of_status hconfig hqueries, fun hnone => ?_, fun g pattern url hfinds => ?_⟩
  · obtain ⟨f, hresolve⟩ := Config.exists_resolve_eq_error_iff.mpr hnone
    exact response_of_unknown hqueries hresolve
  · obtain ⟨hg, hentry⟩ := hfinds.mem
    have htrim : Text.dropRight (· = 0x2F) url = url :=
      (Config.sound_of_parse hconfig g hg).endpoints _ hentry
    obtain ⟨d, -, -, hbuilds⟩ := Config.exists_document_of_parse hconfig
    obtain ⟨-, value, -, hvalue⟩ := Config.exists_option_of_endpoints (hbuilds g hg).hosts _ hentry
    refine ⟨fun base => (Endpoint.stored_of_endpoint? hvalue).read_append_info, fun hurl huseless => ?_⟩
    refine response_of_useless hqueries
      (Config.resolve_eq_ok_iff_finds.mpr ⟨g, pattern, url, hfinds, rfl⟩) ?_ huseless
    rw [show (g.info pattern url).endpoint = url from rfl, htrim]
    exact hurl

/-! ### A host that is shown, without a header and with one -/

namespace Sample

theorem gets_host : Gets hostRequest "login.example.org" :=
  ⟨by decide +kernel, by decide, by decide, rfl⟩

/-- A query for the schema. -/
def schemaRequest : Request := { hostRequest with target := "/openapi.json" }

/-- A query for a line feed alone. -/
def lineFeedRequest : Request := { hostRequest with target := "/%0A" }

theorem queries : Queries hostRequest "login.example.org" :=
  gets_host.queries (by decide) (by decide)

theorem finds (endpoint : Text) : (service endpoint).config.Finds "login.example.org"
    (Issue.Sample.group endpoint) "login.example.org" endpoint where
  group := ⟨[], [], rfl, fun _ hg => absurd hg List.not_mem_nil⟩
  entry := ⟨[], [], rfl, fun _ he => absurd he List.not_mem_nil⟩
  covers := by decide

theorem shows_service {endpoint : Text}
    (h : (((Endpoint.ofUrl .sample endpoint Endpoint.defaultTimeout).info).run
      providersReply).result.toOption = some [Text.ofString "https://op.example.org"]) :
    (service endpoint).Shows hostRequest providersReply (Issue.Sample.info endpoint)
      ["https://op.example.org"] where
  resolves := ⟨"login.example.org", queries.route,
    Config.resolve_eq_ok_iff_finds.mpr ⟨_, _, _, finds endpoint, rfl⟩⟩
  method := rfl
  informed := Except.toOption_eq_some_iff.mp h
  writable := by decide

/-- Such a query is answered with the key. -/
theorem status_of_shows {endpoint : Text}
    (h : (service endpoint).Shows hostRequest providersReply (Issue.Sample.info endpoint)
      ["https://op.example.org"]) :
    ((service endpoint).outcome hostRequest 0 providersReply
      Issue.Sample.circumstances).response.status = 200 := by
  have htext : Issue.Sample.keys.publicText.toOption.isSome = true := by
    decide +kernel
  obtain ⟨t, ht⟩ : ∃ t, (Issue.Sample.info endpoint).hostKeys.publicText.toOption = some t :=
    Option.isSome_iff_exists.mp htext
  rw [response_of_shows h, Except.toOption_eq_some_iff.mp ht]
  rfl

end Sample

/-- The host is shown, and without a reply the caller is told that there was none. -/
theorem shown_sample :
    ((Config.parse Sample.files (Sample.text Sample.plain)).run.run {}).1 =
        .ok (Sample.service Sample.plain).config ∧
      (∃ g url out items key, (Sample.service Sample.plain).Shown Sample.hostRequest 0
        Sample.providersReply Issue.Sample.circumstances "login.example.org" g url out items key) ∧
      ((Sample.service Sample.plain).outcome Sample.hostRequest 0 Sample.noReply
        Issue.Sample.circumstances).response = .error 502 "motley_cue is not reachable." := by
  obtain ⟨-, -, hhost⟩ := shown_of_host Sample.parse_plain Sample.gets_host 0 Sample.providersReply
    Issue.Sample.circumstances
  obtain ⟨hshown, -, -⟩ := hhost (by decide) (by decide)
  obtain ⟨-, -, hhost⟩ := shown_of_host Sample.parse_plain Sample.gets_host 0 Sample.noReply
    Issue.Sample.circumstances
  obtain ⟨-, -, hfound⟩ := hhost (by decide) (by decide)
  refine ⟨Sample.parse_plain,
    hshown (Sample.status_of_shows (Sample.shows_service (by decide +kernel))), ?_⟩
  refine (hfound _ _ _ (Sample.finds Sample.plain)).2 (fun hinvalid => ?_) fun _ _ => .lost
  exact absurd (Except.error?_eq_some_iff.mpr hinvalid) (by decide +kernel)

/-- With user information in the URL the host is shown, too, and the one question asked for it carries
a header. And to two names that no pattern covers there is an answer with success. -/
theorem exceptions_of_host :
    (((Config.parse Sample.files (Sample.text Sample.withUser)).run.run {}).1 =
        .ok (Sample.service Sample.withUser).config ∧
      ((Sample.service Sample.withUser).outcome Sample.hostRequest 0 Sample.providersReply
        Issue.Sample.circumstances).response.status = 200 ∧
      ((Sample.service Sample.withUser).receive Sample.hostRequest 0).2.requests =
        [⟨Sample.withUser ++ Text.ofString "/info", some "Basic c2l0ZTpzZWNyZXQ=",
          Endpoint.defaultTimeout⟩]) ∧
    ((Config.parse Sample.files (Sample.text Sample.plain)).run.run {}).1 =
        .ok (Sample.service Sample.plain).config ∧
      ∀ e ∈ [(Sample.schemaRequest, Text.ofString "openapi.json"), (Sample.lineFeedRequest, [0x0A])],
        e.1.method = "GET" ∧ e.1.path = 0x2F :: e.2 ∧
        ((Sample.service Sample.plain).config.resolve? e.2).isNone = true ∧
        ((Sample.service Sample.plain).outcome e.1 0 Sample.noReply
          Issue.Sample.circumstances).response.status = 200 ∧
        ((Sample.service Sample.plain).receive e.1 0).2.requests = [] := by
  have hresolve := Config.resolve_eq_ok_iff_finds.mpr
    ⟨_, _, _, Sample.finds Sample.withUser, rfl⟩
  refine ⟨⟨Sample.parse_withUser,
    Sample.status_of_shows (Sample.shows_service (by decide +kernel)), ?_⟩, Sample.parse_plain, ?_⟩
  · rw [requests_of_host Sample.queries hresolve]
    have hrequests : (Endpoint.ofUrl .sample Sample.withUser Endpoint.defaultTimeout).info.requests =
        [⟨Sample.withUser ++ Text.ofString "/info", some "Basic c2l0ZTpzZWNyZXQ=",
          Endpoint.defaultTimeout⟩] := by
      decide +kernel
    exact hrequests
  · -- neither is looked for in the configuration
    have hsettled (r : Request) (response : Response) {route : Route}
        (hroute : Route.ofPath? r.path = some route) (hmethod : r.method ∈ route.methods)
        (hreads : ∀ host, route ≠ .certificate host)
        (hquery : (Sample.service Sample.plain).query r route = settled response) :
        ((Sample.service Sample.plain).outcome r 0 Sample.noReply
            Issue.Sample.circumstances).response = response ∧
          ((Sample.service Sample.plain).receive r 0).2.requests = [] :=
      response_of_settled hroute hmethod hreads hquery
    have hschema : Route.ofPath? Sample.schemaRequest.path = some .schema := by decide +kernel
    have hindex : Route.ofPath? Sample.lineFeedRequest.path = some .index := by decide +kernel
    obtain ⟨hshown, hnone⟩ := hsettled Sample.schemaRequest (.schema Sample.platform.schema) hschema
      (by decide) (fun _ => nofun) rfl
    obtain ⟨hshown', hnone'⟩ := hsettled Sample.lineFeedRequest .index hindex (by decide)
      (fun _ => nofun) rfl
    simp only [List.mem_cons, List.not_mem_nil, or_false, forall_eq_or_imp, forall_eq]
    exact ⟨⟨rfl, by decide +kernel, by decide +kernel, by rw [hshown]; rfl, hnone⟩,
      rfl, by decide +kernel, by decide +kernel, by rw [hshown']; rfl, hnone'⟩

end Service

end SshAuthority
