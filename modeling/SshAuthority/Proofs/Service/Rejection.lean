/-
SshAuthority/Proofs/Service/Rejection.lean

What callers learn from a rejection.

A user for whom no certificate is allowed gets one response, whatever the reason: that the
authorization service could not be asked, that it failed, that what it said is no object,
or what it said of the user. The reasons are those replies that neither allow a
certificate nor nest too deep (`Reply.withholds_iff`), so nothing is left out between them.
For a host that nobody has configured there is another response, and nobody is asked. Both
end the handler before the signature.

What carries the proof is that a handler with a key and a host comes to what follows on the
decision, whether or not a question was asked for it (`answered_begin_certificate`).

Main result: `rejections_alike`, a statement on two requests, to two services.
-/
import SshAuthority.Proofs.Authorization.Gate
import SshAuthority.Proofs.Service.Unusable

namespace SshAuthority

/-! ### Replies that withhold a certificate -/

/-- A reply on which there is no certificate, and what it can be: lost, a failure, octets that are no
JSON, a value that is no object, or an object with another state or none. -/
inductive Reply.Withholds : Reply → Prop
  | lost {words : Text} : Withholds (.lost words)
  | failure {status : Nat} {body : Bytes} (h : isSuccess status = false) :
    Withholds (.response status body)
  | noJson {status : Nat} {body : Bytes} {fault : Json.Fault}
    (h : Json.readBytes body = .error fault) (hfault : fault ≠ .tooDeep) :
    Withholds (.response status body)
  | noObject {status : Nat} {body : Bytes} {value : Json} (h : Json.readBytes body = .ok value)
    (hvalue : ∀ entries, value ≠ .object entries) : Withholds (.response status body)
  | noPermit {status : Nat} {body : Bytes} {entries : Table Json}
    (h : Json.readBytes body = .ok (.object entries))
    (hstate : ¬Permits (Table.get? "state" entries)) : Withholds (.response status body)

/-- The replies are those that do not allow a certificate and do not nest too deep. -/
theorem Reply.withholds_iff {reply : Reply} :
    reply.Withholds ↔ ¬Endpoint.Allows reply ∧ ¬reply.TooDeep := by
  constructor
  · intro h
    constructor
    · rintro ⟨status, body, entries, state, rfl, hsuccess, hread, hstate, hword⟩
      cases h with
      | failure h => exact absurd (hsuccess.symm.trans h) (by decide)
      | noJson h => cases hread.symm.trans h
      | noObject h hvalue =>
        cases hread.symm.trans h
        exact hvalue entries rfl
      | noPermit h hno =>
        cases hread.symm.trans h
        refine hno ?_
        rw [hstate]
        exact hword.imp (fun h => by rw [h]) fun h => by rw [h]
    · rintro ⟨status, body, rfl, hsuccess, hread⟩
      cases h with
      | failure h => exact absurd (hsuccess.symm.trans h) (by decide)
      | noJson h hfault =>
        cases hread.symm.trans h
        exact hfault rfl
      | noObject h => cases hread.symm.trans h
      | noPermit h => cases hread.symm.trans h
  · -- the first thing that is wrong with the reply says which case it is
    rintro ⟨hallows, hdeep⟩
    rcases reply with words | ⟨status, body⟩
    · exact .lost
    rcases hsuccess : isSuccess status with - | -
    · exact .failure hsuccess
    rcases hread : Json.readBytes body with fault | value
    · refine .noJson hread ?_
      rintro rfl
      exact hdeep ⟨status, body, rfl, hsuccess, hread⟩
    by_cases hobject : ∃ entries, value = .object entries
    · obtain ⟨entries, rfl⟩ := hobject
      refine .noPermit hread fun hpermits => hallows ?_
      rcases hpermits with hstate | hstate
      · exact ⟨status, body, entries, _, rfl, hsuccess, hread, hstate, .inl rfl⟩
      · exact ⟨status, body, entries, _, rfl, hsuccess, hread, hstate, .inr rfl⟩
    · exact .noObject hread fun entries h => hobject ⟨entries, h⟩

namespace Endpoint

variable {client : HttpClient} {url token : Text} {timeout : Real64} {answer : Outgoing → Reply}

/-- The URL of the status below an endpoint is one to ask. -/
def IsAsked (idna : Host.Idna) (url : Text) : Prop :=
  ∃ parsed, Url.read idna (Text.dropRight (· = 0x2F) url ++ Text.ofString "/user/status") = .ok parsed

/-- Whatever comes back for the question for the status withholds a certificate. -/
def Withholds (client : HttpClient) (url token : Text) (timeout : Real64)
    (answer : Outgoing → Reply) : Prop :=
  ∀ out, (ofUrl client url timeout).statusRequest token = .ok (.ok out) → (answer out).Withholds

/-- Without a reply that allows a certificate or nests too deep, the user is not authorized. -/
theorem authorize_of_withholds (hurl : IsAsked client.idna url)
    (h : Withholds client url token timeout answer) :
    (((ofUrl client url timeout).authorize token).run answer).result = .ok .deny ∨
      ∃ fault, (((ofUrl client url timeout).authorize token).run answer).result =
        .error (.unauthorized fault) := by
  have hwhole : ∀ d, ¬(ofUrl client url timeout).StatusBreaks token answer d := by
    rintro d (hread | ⟨hasks, hdeep⟩)
    · obtain ⟨parsed, hparsed⟩ := hurl
      cases hparsed.symm.trans hread
    · exact (Reply.withholds_iff.mp (h _ hasks)).2 hdeep
  have hnever : (((ofUrl client url timeout).authorize token).run answer).result ≠ .ok .allow := by
    intro hallow
    obtain ⟨out, hasks, hallows⟩ := authorize_allow_iff.mp hallow
    exact (Reply.withholds_iff.mp (h out hasks)).1 hallows
  rcases (ends_status (ofUrl client url timeout) token answer).whole hwhole with
    ⟨status, hstatus⟩ | ⟨f, ⟨fault, rfl⟩, hstatus⟩
  · have hresult := result_authorize (ofUrl client url timeout) token answer
    rw [hstatus] at hresult
    rcases hdecision : status.state.decision with - | -
    · exact absurd (hresult.trans (congrArg Except.ok hdecision)) hnever
    · exact .inl (hresult.trans (congrArg Except.ok hdecision))
  · refine .inr ⟨fault, ?_⟩
    rw [result_authorize, hstatus]
    rfl

end Endpoint

namespace Service

variable {s : Service} {r : Request} {now : Rat} {answer : Outgoing → Reply} {host : Text}
  {q : CertificateRequest} {key : PublicKey} {info : HostInfo}

/-! ### Handlers that end without a signature -/

/-- The handler of the request ends with this outcome before anything is signed, and the outcome is
that of the request whatever the circumstances of a signature are. -/
structure EndsUnsigned (s : Service) (r : Request) (now : Rat) (answer : Outgoing → Reply)
    (o : Handler.Outcome) : Prop where
  ends : ∃ call, (s.accept r now).2 = some call ∧
    ((Stage.started call).begin s r).answered s r answer = .finished o
  outcome : ∀ circumstances, s.outcome r now answer circumstances = o

/-- A handler that has ended before the signature has its outcome for that of the request. -/
theorem EndsUnsigned.of_finished {call : Call} {o : Handler.Outcome}
    (hcall : (s.accept r now).2 = some call)
    (h : ((Stage.started call).begin s r).answered s r answer = .finished o) :
    s.EndsUnsigned r now answer o where
  ends := ⟨call, hcall, h⟩
  outcome circumstances := by
    have hcompleted : (Stage.started call).completed s r answer circumstances = .finished o := by
      unfold Stage.completed
      rw [h]
      rfl
    rw [completed_started] at hcompleted
    unfold Service.outcome
    rw [receive_of_accept hcall]
    exact Stage.finished.inj hcompleted

theorem accept_of_admitted (h : s.Admitted r now host q) :
    (s.accept r now).2 = some (.certificate host q) :=
  accept_eq_some_iff.mpr ⟨_, h.route, List.mem_singleton.mpr h.method, q, h.body, h.admits, rfl⟩

/-- With a key and a host a handler comes to what follows on the decision, asked for or not. -/
theorem answered_begin_certificate (h : Handler.prepare s.config host q = .ok (key, info)) :
    ((Stage.started (.certificate host q)).begin s r).answered s r answer =
      s.afterDecision r ⟨host, key, info, q.token, s.settings.forceCommand⟩
        (((Endpoint.ofUrl s.platform.client info.endpoint s.settings.timeout).authorize
          q.token).run answer) := by
  unfold Stage.begin begin
  dsimp only
  rw [h]
  dsimp only
  rcases (Endpoint.ofUrl s.platform.client info.endpoint s.settings.timeout).authorize q.token
    with a | ⟨out, next⟩
  · exact Stage.answered_of_asks_nil (asks_afterDecision _ a)
  · rfl

/-- Without a decision to allow a certificate a handler ends in the response to a user who is not
authorized. -/
theorem exists_afterDecision (frame : Frame) {a : Logged Decision}
    (h : a.result = .ok .deny ∨ ∃ fault, a.result = .error (.unauthorized fault)) :
    ∃ o, s.afterDecision r frame a = .finished o ∧
      o.response = .error 401 "User is not authorized or suspended." := by
  unfold afterDecision
  rcases h with h | ⟨fault, h⟩ <;> rw [h]
  · exact ⟨_, rfl, rfl⟩
  · exact ⟨_, rfl, rfl⟩

/-! ### Rejections -/

/-- A request for a certificate that is taken in, whose key can be read and whose host belongs to a
group, where the authorization service withholds the certificate for whatever reason. -/
def Withheld (s : Service) (r : Request) (now : Rat) (answer : Outgoing → Reply) : Prop :=
  ∃ url token timeout, s.AsksStatus r now url token timeout ∧
    Endpoint.IsAsked s.platform.client.idna url ∧
    Endpoint.Withholds s.platform.client url token timeout answer

/-- A request for a certificate that is taken in and whose key can be read, for a host of no group. -/
def NamesNoHost (s : Service) (r : Request) (now : Rat) : Prop :=
  ∃ host q key, s.Admitted r now host q ∧ Handler.requestKey q = .ok key ∧
    s.config.resolve? host = none

theorem Withheld.ends (h : s.Withheld r now answer) :
    ∃ o, s.EndsUnsigned r now answer o ∧
      o.response = .error 401 "User is not authorized or suspended." := by
  obtain ⟨url, token, timeout, hasks, hurl, hwithholds⟩ := h
  obtain ⟨⟨host, q, key, info, hadmitted, hprepare, rfl, rfl⟩, rfl⟩ := hasks
  obtain ⟨o, ho, hresponse⟩ := exists_afterDecision (s := s) (r := r)
    ⟨host, key, info, q.token, s.settings.forceCommand⟩
    (Endpoint.authorize_of_withholds hurl hwithholds)
  refine ⟨o, .of_finished (accept_of_admitted hadmitted) ?_, hresponse⟩
  rw [answered_begin_certificate hprepare]
  exact ho

/-- For a host of no group nothing is asked, and the outcome is there at once. -/
theorem NamesNoHost.ends (h : s.NamesNoHost r now) :
    (s.receive r now).2.requests = [] ∧
      ∃ o, (∀ answer, s.EndsUnsigned r now answer o) ∧ o.response = .error 400 "Unknown host." := by
  obtain ⟨host, q, key, hadmitted, hkey, hnone⟩ := h
  have hcall := accept_of_admitted hadmitted
  have hprepare : Handler.prepare s.config host q = .error (.unknownHost host) := by
    unfold Handler.prepare Config.resolve
    rw [hkey, hnone]
    rfl
  have hbegin : s.begin r (.certificate host q) =
      s.afterCertificate r (.fail (.unknownHost host)) := by
    unfold begin
    dsimp only
    rw [hprepare]
  constructor
  · rw [receive_of_accept hcall, ← asks_begin, hbegin]
    rfl
  · exact ⟨_, fun answer => .of_finished hcall (by rw [Stage.begin, hbegin]; rfl), rfl⟩

/-- Two requests for certificates, to services with any configurations and at any times, with any
tokens. Where both are withheld, for whatever reasons, the responses are one, and nothing is signed.
Where both name a host of no group, the responses are one for whatever the authorization services
would say, which nobody asks. -/
theorem rejections_alike (s s' : Service) (r r' : Request) (now now' : Rat) :
    (∀ answer answer', s.Withheld r now answer → s'.Withheld r' now' answer' →
      ∃ o o', s.EndsUnsigned r now answer o ∧ s'.EndsUnsigned r' now' answer' o' ∧
        o.response = .error 401 "User is not authorized or suspended." ∧ o'.response = o.response) ∧
    (s.NamesNoHost r now → s'.NamesNoHost r' now' →
      (s.receive r now).2.requests = [] ∧ (s'.receive r' now').2.requests = [] ∧
      ∃ o o', (∀ answer, s.EndsUnsigned r now answer o) ∧
        (∀ answer', s'.EndsUnsigned r' now' answer' o') ∧
        o.response = .error 400 "Unknown host." ∧ o'.response = o.response) := by
  constructor
  · intro answer answer' h h'
    obtain ⟨o, hends, hresponse⟩ := h.ends
    obtain ⟨o', hends', hresponse'⟩ := h'.ends
    exact ⟨o, o', hends, hends', hresponse, hresponse'.trans hresponse.symm⟩
  · intro h h'
    obtain ⟨hrequests, o, hends, hresponse⟩ := h.ends
    obtain ⟨hrequests', o', hends', hresponse'⟩ := h'.ends
    exact ⟨hrequests, hrequests', o, o', hends, hends', hresponse, hresponse'.trans hresponse.symm⟩

namespace Sample

open Certificate.Sample (subject)

/-- A reply on a user who is suspended, with what the service has to say about it. -/
def suspendedReply (_ : Outgoing) : Reply :=
  .response 200 (Bytes.ofString "\x7b\"state\": \"suspended\", \"message\": \"unpaid\"\x7d")

/-- A request for a host that nobody has configured. -/
def strayRequest : Request := { request with target := "/elsewhere.example.org/certificate" }

theorem withholds_suspendedReply (out : Outgoing) : (suspendedReply out).Withholds := by
  have h : (((Endpoint.ofUrl .sample plain Endpoint.defaultTimeout).authorize "t").run
      suspendedReply).result = .ok .deny :=
    Except.toOption_eq_some_iff.mp (by decide +kernel)
  obtain ⟨out', entries, -, hjson, hdeny⟩ := Endpoint.authorize_eq_ok_iff.mp h
  obtain ⟨status, body, hreply, -, hread⟩ := Reply.json_eq_ok_iff.mp hjson
  cases hreply
  exact .noPermit hread (UserState.decision_eq_deny_iff_not_permits.mp hdeny)

theorem withholds_noReply (out : Outgoing) : (noReply out).Withholds := .lost

theorem withheld {answer : Outgoing → Reply} (h : ∀ out, (answer out).Withholds) :
    (service plain).Withheld request 0 answer := by
  obtain ⟨-, url, hread, -⟩ := Endpoint.request_eq_ok_iff.mp grant_plain.asks
  exact ⟨plain, "t", Endpoint.defaultTimeout, asksStatus resolves_plain, ⟨url, hread⟩,
    fun out _ => h out⟩

theorem namesNoHost : (service plain).NamesNoHost strayRequest 0 :=
  ⟨"elsewhere.example.org", ⟨Bytes.toLatin subject.line, "t"⟩, subject,
    { route := by decide +kernel
      method := rfl
      body := (admitted plain).body
      admits := by
        show RateWindows.admits [] 0 (rateKey strayRequest) .standard = true
        decide +kernel },
    grant_plain.imports, by decide +kernel⟩

end Sample

/-- A user who is suspended learns what one learns of whom nothing came back, and a host that nobody
has configured is unknown whatever would come back. -/
theorem rejections_sample :
    ((Sample.service Sample.plain).outcome Sample.request 0 Sample.suspendedReply
        Issue.Sample.circumstances).response =
      ((Sample.service Sample.plain).outcome Sample.request 0 Sample.noReply
        Issue.Sample.circumstances).response ∧
    ((Sample.service Sample.plain).outcome Sample.strayRequest 0 Sample.answer
        Issue.Sample.circumstances).response = .error 400 "Unknown host." := by
  obtain ⟨hwithheld, -⟩ := rejections_alike (Sample.service Sample.plain)
    (Sample.service Sample.plain) Sample.request Sample.request 0 0
  obtain ⟨o, o', hends, hends', -, hresponse⟩ := hwithheld _ _
    (Sample.withheld Sample.withholds_suspendedReply) (Sample.withheld Sample.withholds_noReply)
  obtain ⟨-, hunknown⟩ := rejections_alike (Sample.service Sample.plain)
    (Sample.service Sample.plain) Sample.strayRequest Sample.strayRequest 0 0
  obtain ⟨-, -, u, u', hends'', -, hresponse', -⟩ :=
    hunknown Sample.namesNoHost Sample.namesNoHost
  constructor
  · rw [hends.outcome, hends'.outcome, hresponse]
  · rw [(hends'' _).outcome, hresponse']

end Service

end SshAuthority
