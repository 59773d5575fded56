/-
SshAuthority/Proofs/Service/Malformed.lean

Requests for certificates that ask for nothing: the body is no object with a key and a
token, or the key cannot be read.

Such a request is settled when it is taken in. No authorization service is asked, and the
outcome is there before a time, a serial number or a nonce is drawn, so nothing is signed.
What the caller is told depends on where the reading ends. Two kinds of bodies are not
answered as malformed: octets that cannot be decoded, and a key of a known form whose
numbers no key has.

Main results: `settled_of_not_asks`, with all three answers; `other_answers` shows that
the two exceptions are there.
-/
import SshAuthority.Proofs.Service.Issuance

namespace SshAuthority

/-! ### Reading the body -/

/-- The body is taken for JSON, and cannot be decoded: it is no text, nests too deep, or has a
number that is too long. -/
def Request.Undecodable (r : Request) : Prop :=
  r.contentType.any CertificateRequest.isJsonType = true ∧
    ∃ fault, Json.readBytes r.body = .error fault ∧ fault ≠ .malformed

/-- The body is a request, and the key in it is of a known form, but its numbers or its names are
those of no key. -/
def Request.NamesNoKey (r : Request) : Prop :=
  ∃ q fault, CertificateRequest.ofBody r.contentType r.body = .ok q ∧
    PublicKey.ofText q.publicKey.trim = .error fault ∧ fault ≠ .invalid

/-- The answer to a body that is no request. -/
def BodyFault.response : BodyFault → Response
  | .malformed => .malformed
  | .undecodable => .undecodable

theorem BodyFault.status_response (fault : BodyFault) : fault.response.status = 400 := by
  cases fault <;> rfl

namespace CertificateRequest

variable {contentType : Option Text} {body : Bytes}

/-- The fault of a body that is no request. -/
theorem ofBody_eq_undecodable_iff :
    ofBody contentType body = .error .undecodable ↔
      contentType.any isJsonType = true ∧
        ∃ fault, Json.readBytes body = .error fault ∧ fault ≠ .malformed := by
  unfold ofBody
  by_cases htype : contentType.any isJsonType = true
  · rcases body with - | ⟨x, body⟩
    · -- the empty body is malformed JSON, too
      have hempty : Json.readBytes [] = .error .malformed := rfl
      simp [hempty]
    · rw [if_neg (by simp [htype])]
      rcases hread : Json.readBytes (x :: body) with fault | value
      · cases fault <;> simp [htype]
      · dsimp only
        split <;> simp
  · rw [if_pos (by simp [htype])]
    simp [htype]

/-- A body that asks is a request with the key that it asks for. -/
theorem ofText_of_asks {r : Request} {q : CertificateRequest} {key : PublicKey} {token : Text}
    (hbody : ofBody r.contentType r.body = .ok q) (h : r.Asks key token) :
    PublicKey.ofText q.publicKey.trim = .ok key := by
  obtain ⟨entries, hread, hpubkey, -⟩ := of_ofBody hbody
  obtain ⟨entries', pubkey, hread', hpubkey', -, -, -, hkey⟩ := h
  rw [hread] at hread'
  cases hread'
  rw [hpubkey] at hpubkey'
  cases hpubkey'
  exact hkey

/-- A request with a key that can be read asks for it. -/
theorem asks_of_ofText {r : Request} {q : CertificateRequest} {key : PublicKey}
    (hbody : ofBody r.contentType r.body = .ok q)
    (hkey : PublicKey.ofText q.publicKey.trim = .ok key) : r.Asks key q.token := by
  obtain ⟨entries, hread, hpubkey, hpubkeyNe, htoken, htokenNe⟩ := of_ofBody hbody
  exact ⟨entries, q.publicKey, hread, hpubkey, hpubkeyNe, htoken, htokenNe, hkey⟩

end CertificateRequest

namespace Service

variable {s : Service} {r : Request} {now : Rat} {host : Text}

/-! ### Settled requests -/

/-- A body that is no request is settled with the answer to its fault. -/
theorem receive_of_ofBody_error {fault : BodyFault}
    (hroute : Route.ofPath? r.path = some (.certificate host)) (hmethod : r.method = "POST")
    (hbody : CertificateRequest.ofBody r.contentType r.body = .error fault) :
    (s.receive r now).2 = .done fun _ => ⟨fault.response, []⟩ := by
  have hmem : ¬r.method ∉ (Route.certificate host).methods :=
    Decidable.not_not.mpr (List.mem_singleton.mpr hmethod)
  unfold receive receiveCertificate
  rw [hroute]
  dsimp only
  rw [if_neg hmem, hbody]
  cases fault <;> rfl

/-- A request whose key cannot be read is settled with the failure that this is. -/
theorem receive_of_requestKey_error {q : CertificateRequest} {f : Failure}
    (h : s.Admitted r now host q) (hkey : Handler.requestKey q = .error f) :
    (s.receive r now).2 =
      .done fun _ => ⟨(Handler.reject r f).response, keep s.log (Handler.reject r f).records⟩ := by
  have hprepare : Handler.prepare s.config host q = .error f := by
    unfold Handler.prepare
    rw [hkey]
    rfl
  rw [receive_of_admitted h]
  unfold Handler.certificateQuery
  rw [hprepare]
  rfl

/-- The failure that a fault in the key of a request is. -/
theorem requestKey_of_ofText_error {q : CertificateRequest} {fault : KeyFault}
    (h : PublicKey.ofText q.publicKey.trim = .error fault) :
    Handler.requestKey q = .error
      (if fault = .invalid then .malformedRequest else .defect (KeyFile.defect fault)) := by
  unfold Handler.requestKey
  rw [h]
  cases fault <;> rfl

/-- A request for a certificate that asks for nothing is settled at once: no question goes out, and
the outcome is the same whatever the circumstances of signing would be. It is answered as malformed,
but for bodies that cannot be decoded and keys whose numbers are those of no key. -/
theorem settled_of_not_asks (hroute : Route.ofPath? r.path = some (.certificate host))
    (hmethod : r.method = "POST")
    (hadmits : s.windows.admits now (rateKey r) s.platform.quota = true)
    (h : ∀ key token, ¬r.Asks key token) :
    (s.receive r now).2.requests = [] ∧
    ∃ outcome : Handler.Outcome, (s.receive r now).2 = .done (fun _ => outcome) ∧
      (¬r.Undecodable → ¬r.NamesNoKey →
        outcome.response = .error 400 "Request body is malformed.") ∧
      (r.Undecodable →
        outcome.response = .protocolError 400 "There was an error parsing the body") ∧
      (r.NamesNoKey → outcome.response = .error 500 "Internal server error.") := by
  rcases hbody : CertificateRequest.ofBody r.contentType r.body with fault | q
  · -- the body is no request, so neither is there a key in it
    rw [receive_of_ofBody_error hroute hmethod hbody]
    have hno : ¬r.NamesNoKey := by
      rintro ⟨q, -, hq, -⟩
      rw [hbody] at hq
      cases hq
    have hundecodable : r.Undecodable ↔ fault = .undecodable := by
      show (_ ∧ _) ↔ _
      rw [← CertificateRequest.ofBody_eq_undecodable_iff, hbody, Except.error.injEq]
    refine ⟨rfl, _, rfl, fun hdecodable _ => ?_, fun hund => ?_, fun hnokey => absurd hnokey hno⟩
    · cases fault
      · rfl
      · exact absurd (hundecodable.mpr rfl) hdecodable
    · rw [hundecodable.mp hund]
      rfl
  · -- the body is a request, so it is the key that is none
    rcases hkey : PublicKey.ofText q.publicKey.trim with fault | key
    · have hadmitted : s.Admitted r now host q := ⟨hroute, hmethod, hbody, hadmits⟩
      rw [receive_of_requestKey_error hadmitted (requestKey_of_ofText_error hkey)]
      have hundecodable : ¬r.Undecodable := fun hund => by
        have := CertificateRequest.ofBody_eq_undecodable_iff.mpr hund
        rw [hbody] at this
        cases this
      refine ⟨rfl, _, rfl, fun _ hno => ?_, fun hund => absurd hund hundecodable, ?_⟩
      · have hinvalid : fault = .invalid :=
          Decidable.not_not.mp fun hne => hno ⟨q, fault, hbody, hkey, hne⟩
        rw [if_pos hinvalid]
        rfl
      · rintro ⟨q', fault', hbody', hkey', hne⟩
        rw [hbody] at hbody'
        cases hbody'
        rw [hkey] at hkey'
        cases hkey'
        rw [if_neg hne]
        rfl
    · exact absurd (CertificateRequest.asks_of_ofText hbody hkey) (h key q.token)

/-! ### Answers that do not say malformed -/

namespace Sample

/-- A request with another body. -/
def requestWith (body : Bytes) : Request := { request with body }

theorem path_requestWith (body : Bytes) : (requestWith body).path = request.path := by
  unfold requestWith Request.path
  rfl

/-- Where a request leads does not depend on its body. -/
theorem route_requestWith (body : Bytes) :
    Route.ofPath? (requestWith body).path = some (.certificate "login.example.org") := by
  rw [path_requestWith]
  exact (admitted plain).route

/-- The first request is admitted. -/
theorem admits_requestWith (body : Bytes) :
    (service plain).windows.admits 0 (rateKey (requestWith body)) .standard = true :=
  decide_eq_true (by decide : 1 ≤ Quota.standard.limit)

/-- An RSA key with an even exponent. -/
def evenKey : Bytes :=
  Bytes.ofString "\x7b\"pubkey\": \"ssh-rsa AAAAB3NzaC1yc2EAAAABAgAAAAEP\", \"token\": \"t\"\x7d"

/-- An octet that begins no character. -/
def strayOctet : Bytes := [0xFF]

theorem ofBody_evenKey : CertificateRequest.ofBody (requestWith evenKey).contentType evenKey =
    .ok ⟨"ssh-rsa AAAAB3NzaC1yc2EAAAABAgAAAAEP", "t"⟩ :=
  Except.toOption_eq_some_iff.mp (by decide +kernel)

theorem ofText_evenKey :
    PublicKey.ofText (Text.trim "ssh-rsa AAAAB3NzaC1yc2EAAAABAgAAAAEP") = .error .badNumbers :=
  Except.error?_eq_some_iff.mp (by decide +kernel)

theorem not_asks_evenKey (key : PublicKey) (token : Text) : ¬(requestWith evenKey).Asks key token := by
  intro h
  have hkey := CertificateRequest.ofText_of_asks ofBody_evenKey h
  rw [ofText_evenKey] at hkey
  cases hkey

theorem not_asks_strayOctet (key : PublicKey) (token : Text) :
    ¬(requestWith strayOctet).Asks key token := by
  rintro ⟨entries, pubkey, hread, -⟩
  have hfault : Json.readBytes strayOctet = .error .undecodable := rfl
  rw [show (requestWith strayOctet).body = strayOctet from rfl, hfault] at hread
  cases hread

end Sample

/-- Both exceptions are there, for requests that ask for nothing. -/
theorem other_answers :
    ((∀ key token, ¬(Sample.requestWith Sample.evenKey).Asks key token) ∧
      ((Sample.service Sample.plain).outcome (Sample.requestWith Sample.evenKey) 0 Sample.answer
        Issue.Sample.circumstances).response = .error 500 "Internal server error.") ∧
    (∀ key token, ¬(Sample.requestWith Sample.strayOctet).Asks key token) ∧
      ((Sample.service Sample.plain).outcome (Sample.requestWith Sample.strayOctet) 0 Sample.answer
        Issue.Sample.circumstances).response =
          .protocolError 400 "There was an error parsing the body" := by
  refine ⟨⟨Sample.not_asks_evenKey, ?_⟩, Sample.not_asks_strayOctet, ?_⟩
  · have hadmitted : (Sample.service Sample.plain).Admitted (Sample.requestWith Sample.evenKey) 0
        "login.example.org" ⟨"ssh-rsa AAAAB3NzaC1yc2EAAAABAgAAAAEP", "t"⟩ :=
      ⟨Sample.route_requestWith _, rfl, Sample.ofBody_evenKey, Sample.admits_requestWith _⟩
    unfold outcome
    rw [receive_of_requestKey_error hadmitted (requestKey_of_ofText_error Sample.ofText_evenKey)]
    rfl
  · have hbody : CertificateRequest.ofBody (Sample.requestWith Sample.strayOctet).contentType
        (Sample.requestWith Sample.strayOctet).body = .error .undecodable :=
      CertificateRequest.ofBody_eq_undecodable_iff.mpr
        ⟨by decide +kernel, .undecodable, rfl, by decide⟩
    unfold outcome
    rw [receive_of_ofBody_error (Sample.route_requestWith _) rfl hbody]
    rfl

/-- The request with the even exponent is settled. -/
theorem settled_sample :
    Route.ofPath? (Sample.requestWith Sample.evenKey).path =
        some (.certificate "login.example.org") ∧
      (Sample.requestWith Sample.evenKey).method = "POST" ∧
      (Sample.service Sample.plain).windows.admits 0
        (rateKey (Sample.requestWith Sample.evenKey))
        (Sample.service Sample.plain).platform.quota = true ∧
      (∀ key token, ¬(Sample.requestWith Sample.evenKey).Asks key token) ∧
      ((Sample.service Sample.plain).receive (Sample.requestWith Sample.evenKey) 0).2.requests = [] ∧
      ∃ outcome : Handler.Outcome,
        ((Sample.service Sample.plain).receive (Sample.requestWith Sample.evenKey) 0).2 =
          .done (fun _ => outcome) ∧
        outcome.response = .error 500 "Internal server error." := by
  obtain ⟨hrequests, outcome, houtcome, -, -, hnoKey⟩ :=
    settled_of_not_asks (Sample.route_requestWith Sample.evenKey) rfl
      (Sample.admits_requestWith Sample.evenKey) Sample.not_asks_evenKey
  have hnamesNoKey : (Sample.requestWith Sample.evenKey).NamesNoKey :=
    ⟨_, .badNumbers, Sample.ofBody_evenKey, Sample.ofText_evenKey, by decide⟩
  exact ⟨Sample.route_requestWith _, rfl, Sample.admits_requestWith _, Sample.not_asks_evenKey,
    hrequests, outcome, houtcome, hnoKey hnamesNoKey⟩

end Service

end SshAuthority
