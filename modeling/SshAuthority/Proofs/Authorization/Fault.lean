/-
SshAuthority/Proofs/Authorization/Fault.lean

How a question to an authorization service ends.

A question has a value, or it fails in a way that its caller has words for: no status, no
providers. Two things are not foreseen. The URL below the base may be none, which shows
only when it is read; and the values in a reply of success may nest deeper than they are
read. Each of these, and nothing else, ends in a defect (`Endpoint.Breaks`). The faults of
a URL are followed through its parts: a part that cannot be escaped is one that cannot be
sent, and that is foreseen; all others make the text no URL.

Main results: `ends_status` and `ends_info`.
-/
import SshAuthority.Proofs.Authorization.Client

namespace SshAuthority

/-! ### URLs that cannot be read -/

namespace Url

variable {d : Defect}

theorem quote_eq_error {safe : CodePoint → Bool} {t : Text} (h : quote safe t = .error d) :
    d = .unencodable := by
  unfold quote at h
  split at h
  · cases h
  · cases h
    rfl

theorem quoteOptional_eq_error {safe : CodePoint → Bool} {t : Option Text}
    (h : quoteOptional safe t = .error d) : d = .unencodable := by
  cases t with
  | none => cases h
  | some t => exact quote_eq_error (Except.map_eq_error_iff.mp h)

theorem port?_eq_error {scheme t : Text} (h : port? scheme t = .error d) : d = .invalidUrl := by
  unfold port? at h
  split at h
  · cases h
  · split at h
    · cases h
      rfl
    · cases h

end Url

theorem Host.normalize_eq_error {idna : Idna} {host : Text} {d : Defect}
    (h : normalize idna host = .error d) :
    d = .invalidUrl := by
  unfold normalize at h
  dsimp only at h
  repeat' split at h
  all_goals cases h
  all_goals rfl

/-- A text that is no URL is invalid, or a part of it cannot be written. -/
theorem Url.read_eq_error {idna : Host.Idna} {t : Text} {d : Defect} (h : read idna t = .error d) :
    d = .invalidUrl ∨ d = .unencodable := by
  unfold read at h
  split at h
  · cases h
    exact .inl rfl
  · unfold ofParts at h
    dsimp only at h
    -- the parts in the order in which they are read; the first fault is that of the text
    rcases Except.bind_eq_error_iff.mp h with h | ⟨userInfo, -, h⟩
    · exact .inr (quote_eq_error h)
    rcases Except.bind_eq_error_iff.mp h with h | ⟨host, -, h⟩
    · exact .inl (Host.normalize_eq_error h)
    rcases Except.bind_eq_error_iff.mp h with h | ⟨port, -, h⟩
    · exact .inl (port?_eq_error h)
    split at h
    · cases h
      exact .inl rfl
    rcases Except.bind_eq_error_iff.mp h with h | ⟨path, -, h⟩
    · exact .inr (quote_eq_error h)
    rcases Except.bind_eq_error_iff.mp h with h | ⟨query, -, h⟩
    · exact .inr (quoteOptional_eq_error h)
    rcases Except.bind_eq_error_iff.mp h with h | ⟨fragment, -, h⟩
    · exact .inr (quoteOptional_eq_error h)
    cases h

/-! ### Replies that cannot be read -/

/-- The values in a reply of success nest too deep. -/
def Reply.TooDeep (reply : Reply) : Prop :=
  ∃ status body, reply = .response status body ∧ isSuccess status = true ∧
    Json.readBytes body = .error .tooDeep

theorem Reply.json_eq_tooDeep_iff {reply : Reply} : reply.json = .error .tooDeep ↔ reply.TooDeep := by
  rcases reply with words | ⟨status, body⟩
  · constructor
    · intro h
      cases h
    · rintro ⟨status, body, h, -⟩
      cases h
  · unfold json
    dsimp only
    constructor
    · intro h
      split at h
      · next hsuccess => exact ⟨status, body, rfl, hsuccess, h⟩
      · cases h
    · rintro ⟨status', body', h, hsuccess, hread⟩
      cases h
      rw [if_pos hsuccess, hread]

/-! ### Questions -/

namespace Endpoint

variable {e : Endpoint} {path : Text} {header : Option Text} {answer : Outgoing → Reply}

/-- A question that ends in a defect: there is no URL to ask, or the values in the reply nest too
deep. -/
inductive Breaks (e : Endpoint) (path : Text) (header : Option Text) (answer : Outgoing → Reply) :
    Defect → Prop
  | url (h : Url.read e.client.idna (e.base ++ path) = .error .invalidUrl) :
    Breaks e path header answer .invalidUrl
  | reply {out : Outgoing} (hasks : e.request path header = .ok (.ok out))
    (hdeep : (answer out).TooDeep) : Breaks e path header answer .tooDeep

/-- There is no request exactly where the URL is invalid. -/
theorem request_eq_error_iff {d : Defect} :
    e.request path header = .error d ↔
      d = .invalidUrl ∧ Url.read e.client.idna (e.base ++ path) = .error .invalidUrl := by
  unfold request
  rcases hread : Url.read e.client.idna (e.base ++ path) with d' | url
  · rcases Url.read_eq_error hread with rfl | rfl
    · constructor
      · intro h
        cases h
        exact ⟨rfl, rfl⟩
      · rintro ⟨rfl, -⟩
        rfl
    · constructor
      · intro h
        cases h
      · rintro ⟨-, h⟩
        cases h
  · dsimp only
    constructor
    · intro h
      split at h <;> cases h
    · rintro ⟨-, h⟩
      cases h

/-- What breaks shows in the request, or else in the reply to it. -/
theorem breaks_iff {d : Defect} :
    e.Breaks path header answer d ↔
      e.request path header = .error d ∨
        d = .tooDeep ∧ ∃ out, e.request path header = .ok (.ok out) ∧ (answer out).TooDeep := by
  constructor
  · intro h
    cases h with
    | url hread => exact .inl (request_eq_error_iff.mpr ⟨rfl, hread⟩)
    | reply hasks hdeep => exact .inr ⟨rfl, _, hasks, hdeep⟩
  · rintro (h | ⟨rfl, out, hasks, hdeep⟩)
    · obtain ⟨rfl, hread⟩ := request_eq_error_iff.mp h
      exact .url hread
    · exact .reply hasks hdeep

/-- How a computation ends: in a value, in a failure that is foreseen, or, exactly where it breaks,
in a defect. -/
structure Ends {α : Type} (result : Except Failure α) (foreseen : Failure → Prop)
    (breaks : Defect → Prop) : Prop where
  whole : (∀ d, ¬breaks d) → (∃ value, result = .ok value) ∨ ∃ f, foreseen f ∧ result = .error f
  broken : ∀ d, breaks d → result = .error (.defect d)

/-- A question ends as what follows on the value in its reply, or in the failure for a question
that was lost, but where it breaks. -/
theorem ends_inquire {α : Type} {lost : Text → Logged α} {next : Json → Logged α} {f : Failure}
    {foreseen : Failure → Prop} (hlost : ∀ words, (lost words).result = .error f) (hf : foreseen f)
    (hnext : ∀ value, (∃ v, (next value).result = .ok v) ∨
      ∃ f, foreseen f ∧ (next value).result = .error f) :
    Ends ((e.inquire path header lost next).run answer).result foreseen
      (e.Breaks path header answer) := by
  unfold inquire
  rcases hrequest : e.request path header with d | words | out
  · refine ⟨fun hwhole => absurd (breaks_iff.mpr (.inl hrequest)) (hwhole d), fun d' hbreaks => ?_⟩
    rcases breaks_iff.mp hbreaks with h | ⟨-, out, h, -⟩ <;> rw [hrequest] at h <;> cases h
    rfl
  · -- a header or a URL that cannot be written: nothing is sent, and the question is lost
    refine ⟨fun _ => .inr ⟨f, hf, hlost _⟩, fun d hbreaks => ?_⟩
    rcases breaks_iff.mp hbreaks with h | ⟨-, out, h, -⟩ <;> rw [hrequest] at h <;> cases h
  · have hbreaks : ∀ d, e.Breaks path header answer d ↔
        d = .tooDeep ∧ (answer out).json = .error .tooDeep := by
      intro d
      rw [breaks_iff, hrequest, Reply.json_eq_tooDeep_iff]
      simp
    simp only [Inquiry.run]
    rcases hjson : (answer out).json with fault | value
    · by_cases hfault : fault = .tooDeep
      · subst hfault
        refine ⟨fun hwhole => absurd ((hbreaks _).mpr ⟨rfl, hjson⟩) (hwhole _), fun d hd => ?_⟩
        obtain ⟨rfl, -⟩ := (hbreaks d).mp hd
        rfl
      · -- whatever else is wrong with the reply, the question is lost
        refine ⟨fun _ => .inr ⟨f, hf, ?_⟩, fun d hd => ?_⟩
        · cases fault
          case tooDeep => exact absurd rfl hfault
          all_goals exact hlost _
        · rw [((hbreaks d).mp hd).2] at hjson
          exact absurd (Except.error.inj hjson).symm hfault
    · refine ⟨fun _ => hnext value, fun d hd => ?_⟩
      rw [((hbreaks d).mp hd).2] at hjson
      cases hjson

/-- The question for the status has one, or the user is not authorized. -/
theorem ends_status (e : Endpoint) (token : Text) (answer : Outgoing → Reply) :
    Ends ((e.status token).run answer).result (fun f => ∃ fault, f = .unauthorized fault)
      (e.Breaks "/user/status" (some (Text.ofString "Bearer " ++ token)) answer) := by
  refine ends_inquire (fun _ => rfl) ⟨.noStatus, rfl⟩ fun value => ?_
  split
  · next s _ => exact .inl ⟨s, rfl⟩
  · exact .inr ⟨_, ⟨.badStatus, rfl⟩, rfl⟩

/-- The question for the providers has them, or the endpoint is unreachable. -/
theorem ends_info (e : Endpoint) (answer : Outgoing → Reply) :
    Ends (e.info.run answer).result (fun f => ∃ fault, f = .unreachable fault)
      (e.Breaks "/info" none answer) := by
  refine ends_inquire (fun _ => rfl) ⟨.unreachable e.base, rfl⟩ fun value => ?_
  split
  · next list _ => exact .inl ⟨list, rfl⟩
  · exact .inr ⟨_, ⟨.malformed e.base, rfl⟩, rfl⟩

end Endpoint

end SshAuthority
