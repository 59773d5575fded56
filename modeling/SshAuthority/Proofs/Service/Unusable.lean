/-
SshAuthority/Proofs/Service/Unusable.lean

What callers are told where an authorization service is of no use.

A request for a certificate that comes to the question for the status is answered with the
status 401 if there is none, and a query for a host with 502 if there are no providers;
whatever the reason is, it goes to the log. This holds wherever the question ends in a
failure that is foreseen. Where it breaks, for a URL that is none or a reply that nests
too deep, the caller sees an internal error: both are there under configurations that can
be loaded (`defects_answered`).

Main result: `ends_of_questions`.
-/
import SshAuthority.Proofs.Authorization.Fault
import SshAuthority.Proofs.Service.Issuance

namespace SshAuthority

namespace Endpoint

/-- The question for the status of the user who owns the token breaks. -/
abbrev StatusBreaks (e : Endpoint) (token : Text) (answer : Outgoing → Reply) : Defect → Prop :=
  e.Breaks "/user/status" (some (Text.ofString "Bearer " ++ token)) answer

/-- The question for the providers breaks. -/
abbrev InfoBreaks (e : Endpoint) (answer : Outgoing → Reply) : Defect → Prop :=
  e.Breaks "/info" none answer

/-- A decision is what the status means, or there is the failure that took its place. -/
theorem result_authorize (e : Endpoint) (token : Text) (answer : Outgoing → Reply) :
    ((e.authorize token).run answer).result =
      ((e.status token).run answer).result.map fun s => s.state.decision := by
  unfold authorize Logged.andThen
  rw [Inquiry.run_map]
  rcases ((e.status token).run answer).result with f | s <;> rfl

end Endpoint

/-- A failure ends what would follow. -/
theorem Logged.andThen_result_of_error {α β : Type} {a : Logged α} {next : α → Logged β} {f : Failure}
    (h : a.result = .error f) : (a.andThen next).result = .error f := by
  unfold andThen
  rw [h]

/-- A failure is answered as one. -/
theorem Handler.conclude_response_of_error {α : Type} {r : Request} {respond : α → Response}
    {a : Logged α} {f : Failure} (h : a.result = .error f) :
    (conclude r respond a).response = (reject r f).response := by
  unfold conclude
  rw [h]

namespace Service

variable {s : Service} {r : Request} {now : Rat} {answer : Outgoing → Reply}
  {circumstances : Issue.Circumstances} {url token : Text} {timeout : Real64}

/-! ### Requests that come to a question -/

/-- A request for a certificate with this token that comes to the question for the status, at the
endpoint with this URL. -/
structure AsksStatus (s : Service) (r : Request) (now : Rat) (url token : Text) (timeout : Real64) :
    Prop where
  prepares : ∃ host q key info, s.Admitted r now host q ∧
    Handler.prepare s.config host q = .ok (key, info) ∧ info.endpoint = url ∧ q.token = token
  timeout : s.settings.timeout = timeout

/-- A query for a host that comes to the question for the providers. -/
structure AsksInfo (s : Service) (r : Request) (url : Text) (timeout : Real64) : Prop where
  resolves : ∃ host info, Route.ofPath? r.path = some (.host host) ∧ r.method = "GET" ∧
    s.config.resolve host = .ok info ∧ info.endpoint = url
  timeout : s.settings.timeout = timeout

/-- Without a status the request is answered as the failure in its place. -/
theorem response_of_status {f : Failure} (h : s.AsksStatus r now url token timeout)
    (hstatus : (((Endpoint.ofUrl s.platform.client url timeout).status token).run answer).result =
      .error f) :
    (s.outcome r now answer circumstances).response = (Handler.reject r f).response := by
  obtain ⟨⟨host, q, key, info, hadmitted, hprepare, rfl, rfl⟩, rfl⟩ := h
  unfold outcome
  rw [receive_of_admitted hadmitted, run_logged_response, Inquiry.run_map]
  refine Handler.conclude_response_of_error ?_
  unfold Handler.certificateQuery
  rw [hprepare]
  dsimp only
  rw [Inquiry.run_map]
  refine Logged.andThen_result_of_error ?_
  rw [Endpoint.result_authorize, hstatus]
  rfl

/-- A query for a host of the configuration ends with its key and the providers, or with what has
failed on the way to them. -/
theorem response_of_host {host : Text} {info : HostInfo}
    (hroute : Route.ofPath? r.path = some (.host host)) (hmethod : r.method = "GET")
    (hresolve : s.config.resolve host = .ok info) :
    (s.outcome r now answer circumstances).response =
      (Handler.conclude r (fun (publicKey, providers) => .host publicKey providers)
        ((((Endpoint.ofUrl s.platform.client info.endpoint s.settings.timeout).info).run
          answer).andThen (Handler.hostAnswer info))).response := by
  have hcall : (s.accept r now).2 = some (.host host) :=
    accept_eq_some_iff.mpr ⟨_, hroute, List.mem_singleton.mpr hmethod, rfl⟩
  unfold outcome
  rw [receive_of_accept hcall]
  unfold pending query Handler.hostQuery
  dsimp only
  rw [run_logged_response, hresolve]
  dsimp only
  rw [Inquiry.run_map, Inquiry.run_map]

/-- Without providers the query is answered as the failure in their place. -/
theorem response_of_info {f : Failure} (h : s.AsksInfo r url timeout)
    (hinfo : ((Endpoint.ofUrl s.platform.client url timeout).info.run answer).result = .error f) :
    (s.outcome r now answer circumstances).response = (Handler.reject r f).response := by
  obtain ⟨⟨host, info, hroute, hmethod, hresolve, rfl⟩, rfl⟩ := h
  rw [response_of_host hroute hmethod hresolve]
  exact Handler.conclude_response_of_error (Logged.andThen_result_of_error hinfo)

/-! ### Questions and answers -/

/-- Where a result has no value, the response is the given one, or that to a defect where the
question breaks. -/
structure Reports {α : Type} (result : Except Failure α) (breaks : Defect → Prop)
    (usual response : Response) : Prop where
  whole : (∀ value, result ≠ .ok value) → (∀ d, ¬breaks d) → response = usual
  broken : ∀ d, breaks d → response = .error 500 "Internal server error."

/-- A response that is that to the failure in the place of a value reports it. -/
theorem Reports.of_ends {α : Type} {result : Except Failure α} {foreseen : Failure → Prop}
    {breaks : Defect → Prop} {usual response : Response} (h : Endpoint.Ends result foreseen breaks)
    (hresponse : ∀ f, result = .error f → response = (Handler.reject r f).response)
    (husual : ∀ f, foreseen f → (Handler.reject r f).response = usual) :
    Reports result breaks usual response where
  whole hnone hwhole := by
    rcases h.whole hwhole with ⟨value, hvalue⟩ | ⟨f, hf, herror⟩
    · exact absurd hvalue (hnone value)
    · rw [hresponse f herror, husual f hf]
  broken d hd := hresponse _ (h.broken d hd)

/-- Both questions end in a value, in a failure that is foreseen for them or, exactly where they
break, in a defect. A request that comes to one of them and gets no value is answered with the
status 401 if it is for a certificate, with 502 if it is for a host, and as an internal error where
the question breaks. -/
theorem ends_of_questions (client : HttpClient) (url token : Text) (timeout : Real64)
    (answer : Outgoing → Reply) :
    let e := Endpoint.ofUrl client url timeout
    let status := ((e.status token).run answer).result
    let info := (e.info.run answer).result
    Endpoint.Ends status (fun f => ∃ fault, f = .unauthorized fault) (e.StatusBreaks token answer) ∧
    Endpoint.Ends info (fun f => ∃ fault, f = .unreachable fault) (e.InfoBreaks answer) ∧
    ∀ (s : Service) r now circumstances, s.platform.client = client →
      (s.AsksStatus r now url token timeout →
        Reports status (e.StatusBreaks token answer)
          (.error 401 "User is not authorized or suspended.")
          (s.outcome r now answer circumstances).response) ∧
      (s.AsksInfo r url timeout →
        Reports info (e.InfoBreaks answer) (.error 502 "motley_cue is not reachable.")
          (s.outcome r now answer circumstances).response) := by
  dsimp only
  have hstatus := Endpoint.ends_status (Endpoint.ofUrl client url timeout) token answer
  have hinfo := Endpoint.ends_info (Endpoint.ofUrl client url timeout) answer
  refine ⟨hstatus, hinfo, fun s r now circumstances hclient => ?_⟩
  subst hclient
  refine ⟨fun hasks => ?_, fun hasks => ?_⟩
  · refine .of_ends (r := r) hstatus (fun f hf => response_of_status hasks hf) ?_
    rintro f ⟨fault, rfl⟩
    rfl
  · refine .of_ends (r := r) hinfo (fun f hf => response_of_info hasks hf) ?_
    rintro f ⟨fault, rfl⟩
    rfl

/-! ### Where questions break -/

namespace Sample

open Certificate.Sample (subject)
open Issue.Sample (info)

/-- A query for the host. -/
def hostRequest : Request := { request with method := "GET", target := "/login.example.org" }

/-- An endpoint whose port is no number. -/
def wordPort : Text := "https://mc.example.org:port"

/-- A reply of nothing but brackets that open, more than are read. -/
def bracketsReply (_ : Outgoing) : Reply := .response 200 (List.replicate 1000 0x5B)

/-- No reply at all. -/
def noReply (_ : Outgoing) : Reply := .lost "timed out"

theorem asksStatus {endpoint : Text}
    (hresolves : (service endpoint).config.resolve? "login.example.org" = some (info endpoint)) :
    (service endpoint).AsksStatus request 0 endpoint "t" Endpoint.defaultTimeout where
  prepares := by
    refine ⟨"login.example.org", ⟨Bytes.toLatin subject.line, "t"⟩, subject, info endpoint,
      admitted endpoint, Handler.prepare_eq_ok_iff.mpr ⟨?_, ?_⟩, rfl, rfl⟩
    · exact Except.toOption_eq_some_iff.mp (by decide +kernel)
    · rw [Config.resolve, hresolves]
  timeout := rfl

theorem asksInfo {endpoint : Text}
    (hresolves : (service endpoint).config.resolve? "login.example.org" = some (info endpoint)) :
    (service endpoint).AsksInfo hostRequest endpoint Endpoint.defaultTimeout where
  resolves := by
    refine ⟨"login.example.org", info endpoint, by decide +kernel, rfl, ?_, rfl⟩
    rw [Config.resolve, hresolves]
  timeout := rfl

theorem resolves_plain :
    (service plain).config.resolve? "login.example.org" = some (info plain) := by
  decide +kernel

theorem resolves_wordPort :
    (service wordPort).config.resolve? "login.example.org" = some (info wordPort) := by
  decide +kernel

theorem parse_wordPort : ((Config.parse files (text wordPort)).run.run {}).1 =
    .ok (service wordPort).config :=
  Except.toOption_eq_some_iff.mp (by decide +kernel)

/-- Below the endpoint there is no URL, neither for the one question nor for the other. -/
theorem breaks_wordPort :
    (Endpoint.ofUrl .sample wordPort Endpoint.defaultTimeout).StatusBreaks "t" answer .invalidUrl ∧
      (Endpoint.ofUrl .sample wordPort Endpoint.defaultTimeout).InfoBreaks answer .invalidUrl :=
  ⟨.url (Except.error?_eq_some_iff.mp (by decide +kernel)),
    .url (Except.error?_eq_some_iff.mp (by decide +kernel))⟩

theorem tooDeep_bracketsReply (out : Outgoing) : (bracketsReply out).TooDeep :=
  ⟨200, _, rfl, rfl, Except.error?_eq_some_iff.mp (by decide +kernel)⟩

theorem breaks_bracketsReply :
    (Endpoint.ofUrl .sample plain Endpoint.defaultTimeout).StatusBreaks "t" bracketsReply .tooDeep := by
  have hasks : (Endpoint.ofUrl .sample plain Endpoint.defaultTimeout).statusRequest "t" =
      .ok (.ok (outgoing plain "Bearer t")) := grant_plain.asks
  exact .reply hasks (tooDeep_bracketsReply _)

/-- A reply that was lost is not too deep, and below the endpoint there are URLs. -/
theorem not_breaks_noReply (d : Defect) :
    ¬(Endpoint.ofUrl .sample plain Endpoint.defaultTimeout).StatusBreaks "t" noReply d ∧
      ¬(Endpoint.ofUrl .sample plain Endpoint.defaultTimeout).InfoBreaks noReply d := by
  constructor
  all_goals
    rintro (hread | ⟨-, ⟨status, body, hreply, -⟩⟩)
    · exact absurd (Except.error?_eq_some_iff.mpr hread) (by decide +kernel)
    · cases hreply

end Sample

/-- With no reply at all there is no status and there are no providers: the statuses are 401 and
502. -/
theorem ends_of_questions_noReply :
    ((Sample.service Sample.plain).outcome Sample.request 0 Sample.noReply
        Issue.Sample.circumstances).response = .error 401 "User is not authorized or suspended." ∧
      ((Sample.service Sample.plain).outcome Sample.hostRequest 0 Sample.noReply
        Issue.Sample.circumstances).response = .error 502 "motley_cue is not reachable." := by
  obtain ⟨-, -, hresponses⟩ :=
    ends_of_questions .sample Sample.plain "t" Endpoint.defaultTimeout Sample.noReply
  obtain ⟨hstatus, -⟩ := hresponses (Sample.service Sample.plain) Sample.request 0
    Issue.Sample.circumstances rfl
  obtain ⟨-, hinfo⟩ := hresponses (Sample.service Sample.plain) Sample.hostRequest 0
    Issue.Sample.circumstances rfl
  have hlost : Except.toOption (((Endpoint.ofUrl .sample Sample.plain Endpoint.defaultTimeout).status
      "t").run Sample.noReply).result = none := by decide +kernel
  have hlost' : Except.toOption (((Endpoint.ofUrl .sample Sample.plain Endpoint.defaultTimeout).info).run
      Sample.noReply).result = none := by decide +kernel
  constructor
  · refine (hstatus (Sample.asksStatus Sample.resolves_plain)).whole (fun value h => ?_)
      fun d => (Sample.not_breaks_noReply d).1
    rw [h] at hlost
    cases hlost
  · refine (hinfo (Sample.asksInfo Sample.resolves_plain)).whole (fun value h => ?_)
      fun d => (Sample.not_breaks_noReply d).2
    rw [h] at hlost'
    cases hlost'

/-- Under a configuration that can be loaded both questions end in a defect, and both requests in an
internal error; with another endpoint a reply does it. -/
theorem defects_answered :
    ((Config.parse Sample.files (Sample.text Sample.wordPort)).run.run {}).1 =
        .ok (Sample.service Sample.wordPort).config ∧
      ((Sample.service Sample.wordPort).outcome Sample.request 0 Sample.answer
        Issue.Sample.circumstances).response = .error 500 "Internal server error." ∧
      ((Sample.service Sample.wordPort).outcome Sample.hostRequest 0 Sample.answer
        Issue.Sample.circumstances).response = .error 500 "Internal server error." ∧
    ((Config.parse Sample.files (Sample.text Sample.plain)).run.run {}).1 =
        .ok (Sample.service Sample.plain).config ∧
      ((Sample.service Sample.plain).outcome Sample.request 0 Sample.bracketsReply
        Issue.Sample.circumstances).response = .error 500 "Internal server error." := by
  refine ⟨Sample.parse_wordPort, ?_, ?_, Sample.parse_plain, ?_⟩
  · exact response_of_status (Sample.asksStatus Sample.resolves_wordPort)
      ((Endpoint.ends_status _ _ _).broken _ Sample.breaks_wordPort.1)
  · exact response_of_info (Sample.asksInfo Sample.resolves_wordPort)
      ((Endpoint.ends_info _ _).broken _ Sample.breaks_wordPort.2)
  · exact response_of_status (Sample.asksStatus Sample.resolves_plain)
      ((Endpoint.ends_status _ _ _).broken _ Sample.breaks_bracketsReply)

end Service

end SshAuthority
