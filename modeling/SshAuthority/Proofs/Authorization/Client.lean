/-
SshAuthority/Proofs/Authorization/Client.lean

When an authorization service allows a certificate.

Every way to the decision leads through one request and its reply, and every reply but one
kind ends in a failure or a denial. So a decision stands for a request that could be
written and for a reply of success that is an object (`authorize_eq_ok_iff`), and the
decision to allow for one with one of two states (`authorize_allow_iff`). What the request
carries is the header it was given, unless the URL has user information, which takes its
place (`request_eq_ok_iff`).
-/
import SshAuthority.Authorization.Client
import SshAuthority.Outcome

namespace SshAuthority

/-! ### Replies -/

/-- The JSON value in a reply is that of a response of success. -/
theorem Reply.json_eq_ok_iff {reply : Reply} {value : Json} :
    reply.json = .ok value ↔
      ∃ status body, reply = .response status body ∧ isSuccess status = true ∧
        Json.readBytes body = .ok value := by
  rcases reply with - | ⟨status, body⟩
  · constructor
    · intro h
      cases h
    · rintro ⟨status, body, h, -⟩
      cases h
  · unfold json
    dsimp only
    constructor
    · intro h
      split at h
      · next hs => exact ⟨status, body, rfl, hs, h⟩
      · cases h
    · rintro ⟨status', body', h, hs, hv⟩
      cases h
      rw [if_pos hs, hv]

namespace UserState

/-- Two states allow a certificate. -/
theorem decision_eq_allow_iff {s : UserState} :
    s.decision = .allow ↔ s = .deployed ∨ s = .notDeployed := by
  cases s <;> decide

/-- A value that allows a certificate is one of two words. -/
theorem decision_ofJson_eq_allow_iff {value : Json} :
    (ofJson value).decision = .allow ↔
      value = .text (text .deployed) ∨ value = .text (text .notDeployed) := by
  rw [decision_eq_allow_iff]
  cases value
  case text t =>
    simp only [ofJson, Json.text.injEq]
    unfold ofText
    split
    · next h => simp [h]
    · next h =>
      split
      · next h' => simp [h']
      · next h' => split <;> simp [h, h']
  all_goals simp [ofJson]

end UserState

/-- A result with records has a value if the one it follows on has. -/
theorem Logged.andThen_result_eq_ok_iff {α β : Type} {a : Logged α} {next : α → Logged β} {b : β} :
    (a.andThen next).result = .ok b ↔ ∃ v, a.result = .ok v ∧ (next v).result = .ok b := by
  unfold andThen
  rcases h : a.result with f | v
  · constructor
    · intro h
      cases h
    · rintro ⟨v, h, -⟩
      cases h
  · constructor
    · intro h
      exact ⟨v, rfl, h⟩
    · rintro ⟨v', h, hb⟩
      cases h
      exact hb

namespace Endpoint

/-! ### Requests -/

/-- The header of a request at a URL: that of the user whom the URL names, if it names one, or the
given one. -/
def headerAt (url : Url) (header : Option Text) : Option Text :=
  match url.credentials? with
  | some (user, password) => basicHeader user password
  | none => header

/-- A request is made if the header can be written and the text below the base is a URL. -/
theorem request_eq_ok_iff {e : Endpoint} {path : Text} {header : Option Text} {out : Outgoing} :
    e.request path header = .ok (.ok out) ↔
      header.all Text.isAscii = true ∧ ∃ url, Url.read e.client.idna (e.base ++ path) = .ok url ∧
        out = ⟨url.forRequest.text, headerAt url.forRequest header, e.timeout⟩ := by
  have hascii : header.all Text.isAscii = !header.any (!Text.isAscii ·) := by
    rcases header with - | header <;> simp
  unfold request
  rw [hascii]
  rcases Url.read e.client.idna (e.base ++ path) with d | url
  · constructor
    · intro h
      cases d <;> cases h
    · rintro ⟨-, url, h, -⟩
      cases h
  · dsimp only
    rcases header.any (!Text.isAscii ·)
    · constructor
      · intro h
        cases h
        exact ⟨rfl, url, rfl, rfl⟩
      · rintro ⟨-, url', hurl, rfl⟩
        cases hurl
        rfl
    · constructor
      · intro h
        cases h
      · rintro ⟨h, -⟩
        cases h

/-- The header of a user with a password is none with a token. -/
theorem basicHeader_ne_bearer (user password token : Text) :
    basicHeader user password ≠ some (Text.ofString "Bearer " ++ token) := by
  have hbasic : Text.ofString "Basic " = [0x42, 0x61, 0x73, 0x69, 0x63, 0x20] := by decide
  have hbearer : Text.ofString "Bearer " = [0x42, 0x65, 0x61, 0x72, 0x65, 0x72, 0x20] := by decide
  intro h
  obtain ⟨octets, -, h⟩ := Option.bind_eq_some_iff.mp h
  rw [hbasic, hbearer] at h
  exact absurd (List.cons.inj (List.cons.inj (Option.some.inj h)).2).1 (by decide)

/-- A question has an answer if it is asked and the reply holds a value that has one. -/
theorem inquire_result_eq_ok_iff {α : Type} {e : Endpoint} {path : Text} {header : Option Text}
    {lost : Text → Logged α} {next : Json → Logged α} {answer : Outgoing → Reply} {v : α} {f : Failure}
    (hlost : ∀ words, (lost words).result = .error f) :
    ((e.inquire path header lost next).run answer).result = .ok v ↔
      ∃ out value, e.request path header = .ok (.ok out) ∧ (answer out).json = .ok value ∧
        (next value).result = .ok v := by
  have hnever (words : Text) : (lost words).result ≠ .ok v := by
    rw [hlost]
    exact fun h => nomatch h
  unfold inquire
  rcases e.request path header with d | words | out
  · constructor
    · intro h
      cases h
    · rintro ⟨out, value, h, -⟩
      cases h
  · constructor
    · intro h
      exact absurd h (hnever _)
    · rintro ⟨out, value, h, -⟩
      cases h
  · simp only [Inquiry.run]
    -- a reply without a value is lost, or goes too deep; neither has a result
    rcases hjson : (answer out).json with fault | value
    · constructor
      · intro h
        cases fault
        case tooDeep => cases h
        all_goals exact absurd h (hnever _)
      · rintro ⟨out', value, h, hvalue, -⟩
        cases h
        rw [hjson] at hvalue
        cases hvalue
    · constructor
      · intro h
        exact ⟨out, value, rfl, hjson, h⟩
      · rintro ⟨out', value', h, hvalue, hv⟩
        cases h
        rw [hjson] at hvalue
        cases hvalue
        exact hv

/-- A question that is asked is asked once. -/
theorem requests_inquire {α : Type} {e : Endpoint} {path : Text} {header : Option Text}
    {lost : Text → Logged α} {next : Json → Logged α} {out : Outgoing}
    (h : e.request path header = .ok (.ok out)) :
    (e.inquire path header lost next).requests = [out] := by
  unfold inquire
  rw [h]
  rfl

/-! ### Decisions -/

/-- A reply that allows a certificate: one of success, an object whose state is one of two
words. -/
def Allows (reply : Reply) : Prop :=
  ∃ status body entries state, reply = .response status body ∧ isSuccess status = true ∧
    Json.readBytes body = .ok (.object entries) ∧ Table.get? "state" entries = some (.text state) ∧
    (state = "deployed" ∨ state = "not_deployed")

/-- The request for the status of the user who owns the token. -/
def statusRequest (e : Endpoint) (token : Text) : Except Defect (Except Text Outgoing) :=
  e.request "/user/status" (some (Text.ofString "Bearer " ++ token))

/-- A value that has a status is an object, and the state is that of the value under its name. -/
theorem status?_eq_some {value : Json} {s : UserStatus} (h : status? value = some s) :
    ∃ entries, value = .object entries ∧
      s.state = .ofJson ((Table.get? "state" entries).getD .null) := by
  cases value
  case object entries =>
    cases h
    exact ⟨entries, rfl, rfl⟩
  all_goals cases h

/-- A decision is made if and only if the request for the status could be written and its reply
holds an object; it is what the value under the name of the state means. -/
theorem authorize_eq_ok_iff {e : Endpoint} {token : Text} {answer : Outgoing → Reply}
    {d : Decision} :
    ((e.authorize token).run answer).result = .ok d ↔
      ∃ out entries, e.statusRequest token = .ok (.ok out) ∧
        (answer out).json = .ok (.object entries) ∧
        (UserState.ofJson ((Table.get? "state" entries).getD .null)).decision = d := by
  -- the status has to be there first, and then to be decided on
  unfold authorize status
  rw [Inquiry.run_map, Logged.andThen_result_eq_ok_iff]
  constructor
  · rintro ⟨s, hs, hd⟩
    obtain ⟨out, value, hrequest, hjson, hs⟩ := (inquire_result_eq_ok_iff fun _ => rfl).mp hs
    split at hs
    · next s' hstatus =>
      cases hs
      obtain ⟨entries, rfl, hstate⟩ := status?_eq_some hstatus
      refine ⟨out, entries, hrequest, hjson, ?_⟩
      rw [← hstate]
      exact Except.ok.inj hd
    · cases hs
  · rintro ⟨out, entries, hrequest, hjson, hd⟩
    -- every object has a status, whatever else stands in it
    refine ⟨_, (inquire_result_eq_ok_iff fun _ => rfl).mpr ⟨out, _, hrequest, hjson, rfl⟩, ?_⟩
    exact congrArg Except.ok hd

/-- A certificate is allowed if and only if the request for the status could be written and
its reply allows it. -/
theorem authorize_allow_iff {e : Endpoint} {token : Text} {answer : Outgoing → Reply} :
    ((e.authorize token).run answer).result = .ok .allow ↔
      ∃ out, e.statusRequest token = .ok (.ok out) ∧ Allows (answer out) := by
  rw [authorize_eq_ok_iff]
  constructor
  · rintro ⟨out, entries, hrequest, hjson, hallow⟩
    obtain ⟨status, body, hreply, hsuccess, hread⟩ := Reply.json_eq_ok_iff.mp hjson
    rcases hstate : Table.get? "state" entries with - | state
    · rw [hstate] at hallow
      cases hallow
    · rw [hstate, Option.getD_some, UserState.decision_ofJson_eq_allow_iff] at hallow
      rcases hallow with rfl | rfl
      · exact ⟨out, hrequest, status, body, entries, _, hreply, hsuccess, hread, hstate, .inl rfl⟩
      · exact ⟨out, hrequest, status, body, entries, _, hreply, hsuccess, hread, hstate, .inr rfl⟩
  · rintro ⟨out, hrequest, status, body, entries, state, hreply, hsuccess, hread, hstate, hword⟩
    refine ⟨out, entries, hrequest, Reply.json_eq_ok_iff.mpr ⟨status, body, hreply, hsuccess, hread⟩,
      ?_⟩
    rw [hstate, Option.getD_some, UserState.decision_ofJson_eq_allow_iff]
    rcases hword with rfl | rfl
    · exact .inl rfl
    · exact .inr rfl

/-- The request for the status is all that is asked. -/
theorem requests_authorize {e : Endpoint} {token : Text} {out : Outgoing}
    (h : e.statusRequest token = .ok (.ok out)) : (e.authorize token).requests = [out] := by
  unfold authorize
  rw [Inquiry.requests_map]
  exact requests_inquire h

end Endpoint

/-! ### A client -/

/-- A client that has no name but ASCII ones, and says of a fault what it can say of each. -/
def HttpClient.sample : HttpClient where
  idna _ := none
  urlFault _ := "'utf-8' codec can't encode character: surrogates not allowed"
  headerFault _ := "'ascii' codec can't encode character: ordinal not in range(128)"
  statusFault url status := Text.ofString "Error " ++ Decimal.ofNat status ++
    Text.ofString " for url " ++ url
  bodyFault _ := "Expecting value: line 1 column 1 (char 0)"

end SshAuthority
