/-
SshAuthority/Proofs/Authorization/Gate.lean

The decision on a user, as a function of what the authorization service says.

Of all replies only those of success that hold an object say anything (`Reply.Reports`),
and of the object only the last member of the name `state` counts. A decision is made
exactly on such a reply (`authorize_eq_ok_iff_consulted`); without one there is a failure in its
place, and never a decision.

Main result: `gate_of_authorize`, with both decisions, their absence, and that nothing
else in the reply has a say.
-/
import SshAuthority.Proofs.Authorization.Client
import SshAuthority.Proofs.Json.Members

namespace SshAuthority

/-- The reply is one of success and holds an object, whose last member of the name `state` has
this value; without a value there is no such member. -/
def Reply.Reports (reply : Reply) (state : Option Json) : Prop :=
  ∃ status body members, reply = .response status body ∧ isSuccess status = true ∧
    Json.members? body = some members ∧ Table.last? "state" members = state

/-- The values of the state that allow a certificate: two words. -/
def Permits (state : Option Json) : Prop :=
  state = some (.text "deployed") ∨ state = some (.text "not_deployed")

/-- A reply reports one state. -/
theorem Reply.Reports.unique {reply : Reply} {state state' : Option Json}
    (h : reply.Reports state) (h' : reply.Reports state') : state = state' := by
  obtain ⟨status, body, members, rfl, -, hmembers, rfl⟩ := h
  obtain ⟨status', body', members', heq, -, hmembers', rfl⟩ := h'
  cases heq
  rw [hmembers] at hmembers'
  cases hmembers'
  rfl

/-- The value of an object in a reply is known by the state that the reply reports. -/
theorem Reply.reports_iff {reply : Reply} {state : Option Json} :
    reply.Reports state ↔
      ∃ entries, reply.json = .ok (.object entries) ∧ Table.get? "state" entries = state := by
  constructor
  · rintro ⟨status, body, members, hreply, hsuccess, hmembers, rfl⟩
    obtain ⟨entries, hentries⟩ := Json.exists_ofEntries_eq members
    refine ⟨entries, json_eq_ok_iff.mpr ⟨status, body, hreply, hsuccess, ?_⟩, ?_⟩
    · exact Json.readBytes_eq_object_iff.mpr ⟨members, hmembers, hentries⟩
    · rw [← Json.get?_ofEntries, hentries]
      rfl
  · rintro ⟨entries, hjson, rfl⟩
    obtain ⟨status, body, hreply, hsuccess, hread⟩ := json_eq_ok_iff.mp hjson
    obtain ⟨members, hmembers, hentries⟩ := Json.readBytes_eq_object_iff.mp hread
    refine ⟨status, body, members, hreply, hsuccess, hmembers, ?_⟩
    rw [← Json.get?_ofEntries, hentries]
    rfl

/-- A reported state, or its absence, allows a certificate if it is one of the two words. -/
theorem UserState.decision_eq_allow_iff_permits {state : Option Json} :
    (ofJson (state.getD .null)).decision = .allow ↔ Permits state := by
  rw [decision_ofJson_eq_allow_iff]
  cases state with
  | none =>
    constructor
    · rintro (h | h) <;> cases h
    · rintro (h | h) <;> cases h
  | some value =>
    show value = _ ∨ value = _ ↔ some value = _ ∨ some value = _
    rw [Option.some.injEq, Option.some.injEq]
    rfl

theorem UserState.decision_eq_deny_iff_not_permits {state : Option Json} :
    (ofJson (state.getD .null)).decision = .deny ↔ ¬Permits state := by
  rw [← decision_eq_allow_iff_permits]
  cases (ofJson (state.getD .null)).decision <;> simp

namespace Endpoint

variable {e : Endpoint} {token : Text} {answer : Outgoing → Reply}

/-- What is asked is the request for the status, if it could be written. -/
theorem requests_authorize_eq_iff {out : Outgoing} :
    (e.authorize token).requests = [out] ↔ e.statusRequest token = .ok (.ok out) := by
  constructor
  · intro h
    unfold authorize status inquire at h
    rw [Inquiry.requests_map] at h
    unfold statusRequest
    split at h
    · cases h
    · cases h
    · next out' hout =>
      cases h
      exact hout
  · exact requests_authorize

variable {client : HttpClient} {url : Text} {timeout : Real64}

/-- The request for the status that belongs to a base URL and a token: it goes to the path of the
status below the URL, as the client writes that, and carries the token, which is ASCII, unless the
URL names a user, whose header takes its place. -/
structure Question (client : HttpClient) (url token : Text) (timeout : Real64) (out : Outgoing) :
    Prop where
  ascii : token.isAscii = true
  parsed : ∃ parsed : Url,
    Url.read client.idna (Text.dropRight (· = 0x2F) url ++ Text.ofString "/user/status") =
      .ok parsed ∧
    out = ⟨parsed.forRequest.text,
      headerAt parsed.forRequest (some (Text.ofString "Bearer " ++ token)), timeout⟩

/-- The request that the client makes for the status is that of the base URL and the token. -/
theorem question_iff {out : Outgoing} :
    Question client url token timeout out ↔
      (ofUrl client url timeout).statusRequest token = .ok (.ok out) := by
  have hascii : (some (Text.ofString "Bearer " ++ token)).all Text.isAscii = token.isAscii := by
    show Text.isAscii (_ ++ token) = _
    unfold Text.isAscii
    rw [List.all_append]
    rfl
  unfold statusRequest
  rw [request_eq_ok_iff, hascii]
  exact ⟨fun h => ⟨h.ascii, h.parsed⟩, fun h => ⟨h.1, h.2⟩⟩

/-- The request for the status was sent, and the reply to it reports a state. -/
structure Consulted (client : HttpClient) (url token : Text) (timeout : Real64)
    (answer : Outgoing → Reply) (out : Outgoing) (state : Option Json) : Prop where
  question : Question client url token timeout out
  reports : (answer out).Reports state

/-- A decision is made exactly if the endpoint was consulted; it is the one that the reported state
stands for. -/
theorem authorize_eq_ok_iff_consulted {d : Decision} :
    (((ofUrl client url timeout).authorize token).run answer).result = .ok d ↔
      ∃ out state, Consulted client url token timeout answer out state ∧
        (UserState.ofJson (state.getD .null)).decision = d := by
  rw [authorize_eq_ok_iff]
  constructor
  · rintro ⟨out, entries, hrequest, hjson, hd⟩
    exact ⟨out, _, ⟨question_iff.mpr hrequest, Reply.reports_iff.mpr ⟨entries, hjson, rfl⟩⟩, hd⟩
  · rintro ⟨out, state, ⟨hquestion, hreports⟩, hd⟩
    obtain ⟨entries, hjson, rfl⟩ := Reply.reports_iff.mp hreports
    exact ⟨out, entries, question_iff.mp hquestion, hjson, hd⟩

/-- Of base URL and token one request is made, and no other is sent. The decision is to allow exactly
if the reply to it reports one of two states, and to deny exactly if it reports another or none;
where there is no request, or no reply that reports, there is a failure and no decision. Replies that
report the same state lead to the same. -/
theorem gate_of_authorize (client : HttpClient) (url token : Text) (timeout : Real64)
    (answer : Outgoing → Reply) :
    let inquiry := (ofUrl client url timeout).authorize token
    let result (answer : Outgoing → Reply) := (inquiry.run answer).result
    (∀ out, inquiry.requests = [out] ↔ Question client url token timeout out) ∧
    (result answer = .ok .allow ↔
      ∃ out state, Consulted client url token timeout answer out state ∧ Permits state) ∧
    (result answer = .ok .deny ↔
      ∃ out state, Consulted client url token timeout answer out state ∧ ¬Permits state) ∧
    ((∃ f, result answer = .error f) ↔
      ∀ out state, ¬Consulted client url token timeout answer out state) ∧
    ∀ answer' out state, Consulted client url token timeout answer out state →
      Consulted client url token timeout answer' out state → result answer' = result answer := by
  dsimp only
  have hdecision {answer : Outgoing → Reply} {d : Decision} :=
    @authorize_eq_ok_iff_consulted token answer client url timeout d
  refine ⟨?_, ?_, ?_, ?_, ?_⟩
  · intro out
    rw [requests_authorize_eq_iff, question_iff]
  · rw [hdecision]
    simp only [UserState.decision_eq_allow_iff_permits]
  · rw [hdecision]
    simp only [UserState.decision_eq_deny_iff_not_permits]
  · constructor
    · rintro ⟨f, hf⟩ out state hconsulted
      have hok := hdecision.mpr ⟨out, state, hconsulted, rfl⟩
      rw [hf] at hok
      cases hok
    · intro hnone
      rcases hresult : (((ofUrl client url timeout).authorize token).run answer).result with f | d
      · exact ⟨f, rfl⟩
      · obtain ⟨out, state, hconsulted, -⟩ := hdecision.mp hresult
        exact absurd hconsulted (hnone out state)
  · intro answer' out state hconsulted hconsulted'
    rw [hdecision.mpr ⟨out, state, hconsulted, rfl⟩,
      hdecision.mpr ⟨out, state, hconsulted', rfl⟩]

/-! ### A question and its replies -/

namespace Sample

/-- A base URL with a slash at its end. -/
def base : Text := "https://mc.example.org/"

/-- The request for the status of the user who owns the token `t`. -/
def question : Outgoing where
  url := "https://mc.example.org/user/status"
  authorization := some "Bearer t"
  timeout := defaultTimeout

/-- A reply of success whose body is an object with this member. -/
def reporting (member : String) (_ : Outgoing) : Reply :=
  .response 200 ([0x7B] ++ Bytes.ofString member ++ [0x7D])

theorem question_base : Question .sample base "t" defaultTimeout question := by
  have hparsed : (Url.read HttpClient.sample.idna
      (Text.dropRight (· = 0x2F) base ++ Text.ofString "/user/status")).toOption.map (fun u =>
        (⟨u.forRequest.text, headerAt u.forRequest (some (Text.ofString "Bearer " ++ "t")),
          defaultTimeout⟩ : Outgoing)) = some question := by
    decide +kernel
  obtain ⟨parsed, hread, hout⟩ := Option.map_eq_some_iff.mp hparsed
  exact ⟨by decide, parsed, Except.toOption_eq_some_iff.mp hread, hout.symm⟩

theorem consulted_reporting (member : String) (d : Decision)
    (h : (Json.members? ([0x7B] ++ Bytes.ofString member ++ [0x7D])).map (fun members =>
      (UserState.ofJson ((Table.last? "state" members).getD .null)).decision) = some d) :
    ∃ state, Consulted .sample base "t" defaultTimeout (reporting member) question state ∧
      (UserState.ofJson (state.getD .null)).decision = d := by
  obtain ⟨members, hmembers, hd⟩ := Option.map_eq_some_iff.mp h
  exact ⟨_, ⟨question_base, 200, _, members, rfl, rfl, hmembers, rfl⟩, hd⟩

end Sample

/-- At the base URL with the token there is one request. It is allowed by a state that is deployed,
denied by one that is a number, and neither by a reply that was lost. -/
theorem gate_sample :
    let inquiry := (ofUrl .sample Sample.base defaultTimeout).authorize "t"
    inquiry.requests = [Sample.question] ∧
      (inquiry.run (Sample.reporting "\"state\": \"deployed\"")).result = .ok .allow ∧
      (inquiry.run (Sample.reporting "\"state\": 1")).result = .ok .deny ∧
      ∃ f, (inquiry.run fun _ => .lost "timed out").result = .error f := by
  have hgate := gate_of_authorize .sample Sample.base "t" defaultTimeout
  refine ⟨?_, ?_, ?_, ?_⟩
  · obtain ⟨hrequests, -⟩ := hgate fun _ => .lost "timed out"
    exact (hrequests _).mpr Sample.question_base
  · obtain ⟨-, hallow, -⟩ := hgate (Sample.reporting "\"state\": \"deployed\"")
    obtain ⟨state, hconsulted, hd⟩ := Sample.consulted_reporting
      "\"state\": \"deployed\"" .allow (by decide +kernel)
    exact hallow.mpr ⟨_, state, hconsulted, UserState.decision_eq_allow_iff_permits.mp hd⟩
  · obtain ⟨-, -, hdeny, -⟩ := hgate (Sample.reporting "\"state\": 1")
    obtain ⟨state, hconsulted, hd⟩ := Sample.consulted_reporting "\"state\": 1" .deny
      (by decide +kernel)
    exact hdeny.mpr ⟨_, state, hconsulted, UserState.decision_eq_deny_iff_not_permits.mp hd⟩
  · obtain ⟨-, -, -, hfails, -⟩ := hgate fun _ => .lost "timed out"
    refine hfails.mpr fun out state hconsulted => ?_
    obtain ⟨status, body, members, hreply, -⟩ := hconsulted.reports
    cases hreply

end Endpoint

end SshAuthority
