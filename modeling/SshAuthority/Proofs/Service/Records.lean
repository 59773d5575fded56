/-
SshAuthority/Proofs/Service/Records.lean

What the log tells of requests for certificates.

Four kinds of records tell how a request ended: that a certificate was signed, that it was
issued, that the request was rejected, and that a defect came up (`Log.Event`). The client
of an authorization service writes none of them, so what a request leaves behind is what
its end writes: the two records of a certificate that is handed out, one after the other,
the one of a rejection or of a defect, or none, for a request that comes to no handler.
There is no other end (`ends_of_call`). All these records are at a level that a log set to
`info` keeps.

Main result: `records_agree`.
-/
import SshAuthority.Proofs.Service.Malformed
import SshAuthority.Proofs.Service.Rate

namespace SshAuthority

/-! ### Events -/

namespace Log

/-- What a record tells of the end of a request. -/
inductive Event where
  | signed
  | issued
  | rejected
  /-- Something that the service did not expect. -/
  | broken
  deriving DecidableEq

/-- How the messages on an event begin. -/
def Event.start : Event → Text
  | .signed => "Certificate signed"
  | .issued => "Certificate issued"
  | .rejected => "Request rejected"
  | .broken => "Unhandled error"

/-- The event that a record tells of, if it tells of one. -/
def Record.event? (r : Record) : Option Event :=
  [Event.signed, .issued, .rejected, .broken].find? fun e => Text.startsWith e.start r.message

/-- The events that records tell of, in their order. -/
def events (records : List Record) : List Event := records.filterMap Record.event?

theorem events_append (first second : List Record) :
    events (first ++ second) = events first ++ events second :=
  List.filterMap_append

theorem events_eq_nil_iff {records : List Record} :
    events records = [] ↔ ∀ r ∈ records, r.event? = none :=
  List.filterMap_eq_nil_iff

theorem mem_events {records : List Record} {e : Event} :
    e ∈ events records ↔ ∃ r ∈ records, r.event? = some e :=
  List.mem_filterMap

/-- Where records that tell of nothing come first, a log keeps the events of the others, if these are
at a level that it keeps. -/
theorem events_keep {log : Setting} {before after : List Record} (hlog : log.level ≤ Level.info)
    (hbefore : events before = []) (hafter : ∀ r ∈ after, Level.info ≤ r.level) :
    events (Service.keep log (before ++ after)) = events after := by
  have hnone : events (Service.keep log before) = [] :=
    events_eq_nil_iff.mpr fun r hr => events_eq_nil_iff.mp hbefore r (List.mem_filter.mp hr).1
  have hall : Service.keep log after = after :=
    List.filter_eq_self.mpr fun r hr => decide_eq_true (hlog.trans (hafter r hr))
  unfold Service.keep at hnone hall ⊢
  rw [List.filter_append, events_append, hnone, hall, List.nil_append]

/-- A record that tells of an event is one of the others. -/
theorem mem_of_event? {log : Setting} {before after : List Record} {r : Record} {e : Event}
    (hbefore : events before = []) (hr : r ∈ Service.keep log (before ++ after))
    (hevent : r.event? = some e) : r ∈ after := by
  rcases List.mem_append.mp (List.mem_filter.mp hr).1 with hr | hr
  · exact absurd ((events_eq_nil_iff.mp hbefore r hr).symm.trans hevent) (Option.some_ne_none e).symm
  · exact hr

end Log

/-! ### The records of an authorization service -/

namespace Endpoint

variable {answer : Outgoing → Reply}

/-- A question leaves no event behind if neither its end nor what follows on it does. -/
theorem events_inquire {α : Type} {e : Endpoint} {path : Text} {header : Option Text}
    {lost : Text → Logged α} {next : Json → Logged α}
    (hlost : ∀ words, Log.events (lost words).records = [])
    (hnext : ∀ value, Log.events (next value).records = []) :
    Log.events ((e.inquire path header lost next).run answer).records = [] := by
  unfold inquire
  rcases e.request path header with d | words | out
  · rfl
  · exact hlost _
  · simp only [Inquiry.run]
    rcases (answer out).json with fault | value
    · -- a reply that nests too deep is a defect, without a record
      cases fault
      case tooDeep => rfl
      all_goals exact hlost _
    · exact hnext value

theorem event?_decisionRecord (e : Endpoint) (s : UserStatus) : (e.decisionRecord s).event? = none := by
  obtain ⟨state, message⟩ := s
  cases state <;> rfl

/-- Nothing that is written on the way to a decision tells of an end. -/
theorem events_authorize (e : Endpoint) (token : Text) (answer : Outgoing → Reply) :
    Log.events ((e.authorize token).run answer).records = [] := by
  have hstatus : Log.events ((e.status token).run answer).records = [] := by
    refine events_inquire (fun _ => rfl) fun value => ?_
    split <;> rfl
  unfold authorize Logged.andThen
  rw [Inquiry.run_map]
  split
  · next s _ =>
    show Log.events (_ ++ [e.decisionRecord s]) = []
    rw [Log.events_append, hstatus]
    exact Log.events_eq_nil_iff.mpr fun r hr => by
      rw [List.mem_singleton.mp hr, event?_decisionRecord]
  · exact hstatus

end Endpoint

/-! ### The records of a handler -/

namespace Handler

/-- A query for a certificate ends with the two records of the certificate, or leaves no event
behind. -/
theorem events_certificateQuery (platform : Platform) (config : Config) (settings : Settings)
    (host : Text) (q : CertificateRequest) (answer : Outgoing → Reply)
    (circumstances : Issue.Circumstances) :
    let a := (certificateQuery platform config settings host q).run answer circumstances
    (∃ f, a.result = .error f ∧ Log.events a.records = []) ∨
      ∃ key info c before, a.result = .ok c ∧ config.resolve host = .ok info ∧
        Issue.issue platform.decoder info key q.token settings.forceCommand circumstances = .ok c ∧
        Log.events before = [] ∧
        a.records = before ++ [Issue.record info c, issuedRecord info host c] := by
  unfold certificateQuery
  rcases hprepare : prepare config host q with f | ⟨key, info⟩
  · exact .inl ⟨f, rfl, rfl⟩
  obtain ⟨-, hresolve⟩ := prepare_eq_ok_iff.mp hprepare
  dsimp only
  rw [Inquiry.run_map]
  have hquiet := Endpoint.events_authorize
    (Endpoint.ofUrl platform.client info.endpoint settings.timeout) q.token answer
  unfold Logged.andThen
  rcases (((Endpoint.ofUrl platform.client info.endpoint settings.timeout).authorize
    q.token).run answer).result with f | - | -
  · exact .inl ⟨f, rfl, hquiet⟩
  · rcases hissue : Issue.issue platform.decoder info key q.token settings.forceCommand circumstances
      with f | c
    · refine .inl ⟨f, ?_, ?_⟩
      · simp [issue, hissue, Logged.fail]
      · simp [issue, hissue, Logged.fail, hquiet]
    · refine .inr ⟨key, info, c, _, ?_, hresolve, hissue, hquiet, ?_⟩
      · simp [issue, hissue]
      · simp [issue, hissue]
  · refine .inl ⟨_, rfl, ?_⟩
    show Log.events (_ ++ [deniedRecord info host]) = []
    rw [Log.events_append, hquiet]
    rfl

end Handler

/-! ### Ends -/

/-- The outcome of a request whose certificate is handed out: the records of a signature and of an
issuance, in this order and no other, with the serial number that stands in the packet and the group
of the host. -/
structure Handler.Outcome.Issues (o : Outcome) (config : Config) (host : Text)
    (certificate : SignedCertificate) (info : HostInfo) (f : CertificateFields KeyFields) : Prop where
  responds : o.response = .certificate certificate
  resolves : config.resolve host = .ok info
  found : Certificate.packet? certificate.text = some certificate.blob
  read : ∃ rest, CertificateFields.read certificate.blob = some (f, rest)
  events : Log.events o.records = [.signed, .issued]
  tells : ∀ record ∈ o.records, record.event? = some .signed ∨ record.event? = some .issued →
    record.extras.serial = some (.int f.serial) ∧ record.extras.group = some (.text info.group)
  host : ∀ record ∈ o.records, record.event? = some .issued → record.extras.host = some (.text host)

/-- The outcome of a request that fails with an error of the service: one record tells of the
rejection, with the class of the error, and is an error itself if the response is one of the
service. -/
structure Handler.Outcome.Rejects (o : Outcome) (response : Response) (reason : Text) : Prop where
  responds : o.response = response
  events : Log.events o.records = [.rejected]
  tells : ∀ record ∈ o.records, record.event? = some .rejected →
    record.extras.reason = some (.text reason) ∧
      (record.level = Log.Level.error ↔ 500 ≤ response.status)

namespace Service

variable {s : Service} {a : Arrival} {answer : Outgoing → Reply}
  {circumstances : Issue.Circumstances} {host : Text} {q : CertificateRequest}

/-- A request for a certificate comes to its handler, which fails. -/
def FailsWith (s : Service) (a : Arrival) (answer : Outgoing → Reply)
    (circumstances : Issue.Circumstances) (f : Failure) : Prop :=
  ∃ host q, a.request.call? = some (host, q) ∧ s.passes a = true ∧
    ((Handler.certificateQuery s.platform s.config s.settings host q).run answer
      circumstances).result = .error f

/-- The outcome of a call, as the log keeps it. -/
theorem run_pending_certificate (s : Service) (r : Request) (host : Text) (q : CertificateRequest)
    (answer : Outgoing → Reply) (circumstances : Issue.Circumstances) :
    let o := Handler.conclude r (fun c => .certificate c.certificate)
      ((Handler.certificateQuery s.platform s.config s.settings host q).run answer circumstances)
    (s.pending r (.certificate host q)).run answer circumstances =
      { o with records := keep s.log o.records } := by
  unfold pending Pending.logged
  rw [Inquiry.run_map, Inquiry.run_map]

/-- A request that fails with an error of the service has the record of its rejection, and one that
fails with a defect the record of that. -/
theorem rejects_of_error {log : Log.Setting} {α : Type} (r : Request) (respond : α → Response)
    {b : Logged α} {f : Failure} (hlog : log.level ≤ Log.Level.info) (hresult : b.result = .error f)
    (hquiet : Log.events b.records = []) :
    let o := Handler.conclude r respond b
    (∀ response reason, f.answer? = some (response, reason) →
      Handler.Outcome.Rejects { o with records := keep log o.records } response reason) ∧
    (f.answer? = none → o.response = .internalError ∧
      Log.events (keep log o.records) = [.broken]) := by
  unfold Handler.conclude Handler.reject
  rw [hresult]
  dsimp only
  constructor
  · intro response reason hanswer
    rw [hanswer]
    dsimp only
    refine ⟨rfl, ?_, fun record hrecord hevent => ?_⟩
    · refine (Log.events_keep hlog hquiet fun record hrecord => ?_).trans rfl
      rw [List.mem_singleton.mp hrecord]
      unfold Handler.rejectionRecord
      dsimp only
      split <;> decide
    · rw [List.mem_singleton.mp (Log.mem_of_event? hquiet hrecord hevent)]
      refine ⟨rfl, ?_⟩
      unfold Handler.rejectionRecord
      dsimp only
      split
      · next h => exact ⟨fun _ => h, fun _ => rfl⟩
      · next h => exact ⟨fun h' => absurd h' (by decide), fun h' => absurd h' h⟩
  · intro hanswer
    rw [hanswer]
    dsimp only
    refine ⟨rfl, (Log.events_keep hlog hquiet fun record hrecord => ?_).trans rfl⟩
    rw [List.mem_singleton.mp hrecord]
    exact (by decide : Log.Level.info ≤ Log.Level.error)

/-- A call that gets past the limit ends in one of three ways: with a certificate, with an error of
the service, or with a defect. -/
theorem ends_of_call (r : Request) (host : Text) (q : CertificateRequest)
    (answer : Outgoing → Reply) (circumstances : Issue.Circumstances)
    (hlog : s.log.level ≤ Log.Level.info) :
    let b := (Handler.certificateQuery s.platform s.config s.settings host q).run answer circumstances
    let o := (s.pending r (.certificate host q)).run answer circumstances
    (∃ c info f, b.result = .ok c ∧ o.Issues s.config host c.certificate info f) ∨
    (∃ f response reason, b.result = .error f ∧ f.answer? = some (response, reason) ∧
      o.Rejects response reason) ∨
    ∃ f, b.result = .error f ∧ f.answer? = none ∧ o.response = .internalError ∧
      Log.events o.records = [.broken] := by
  rw [run_pending_certificate]
  dsimp only
  rcases Handler.events_certificateQuery s.platform s.config s.settings host q answer circumstances with
    ⟨f, hresult, hquiet⟩ | ⟨key, info, c, before, hresult, hresolve, hissue, hquiet, hrecords⟩
  · obtain ⟨hown, hdefect⟩ := rejects_of_error r
      (fun c : IssuedCertificate => Response.certificate c.certificate) hlog hresult hquiet
    rcases hanswer : f.answer? with - | ⟨response, reason⟩
    · exact .inr (.inr ⟨f, hresult, hanswer, hdefect hanswer⟩)
    · exact .inr (.inl ⟨f, response, reason, hresult, hanswer, hown response reason hanswer⟩)
  · -- the serial number of both records is that of the draft, which the packet holds
    obtain ⟨-, f, hlayout⟩ := Issue.layout_of_issueAt hissue
    have hserial : (c.serial : Int) = f.serial := hlayout.serial.1.symm
    refine .inl ⟨c, info, f, hresult, ?_⟩
    unfold Handler.conclude
    rw [hresult]
    dsimp only
    rw [hrecords]
    refine ⟨rfl, hresolve, hlayout.found, ⟨_, hlayout.read⟩, ?_, ?_, ?_⟩
    · refine (Log.events_keep hlog hquiet fun record hrecord => ?_).trans rfl
      rcases List.mem_pair.mp hrecord with rfl | rfl <;> exact le_rfl
    · intro record hrecord hevent
      have hmem : record ∈ [Issue.record info c, Handler.issuedRecord info host c] := by
        rcases hevent with hevent | hevent <;> exact Log.mem_of_event? hquiet hrecord hevent
      rw [← hserial]
      rcases List.mem_pair.mp hmem with rfl | rfl <;> exact ⟨rfl, rfl⟩
    · intro record hrecord hevent
      rcases List.mem_pair.mp (Log.mem_of_event? hquiet hrecord hevent) with rfl | rfl
      · cases hevent
      · rfl

/-- What comes of a request for a certificate: nothing that is on record, for a body that is none and
for a call too many, or what follows on a call. -/
theorem receive_of_certificate (s : Service)
    (hroute : Route.ofPath? a.request.path = some (.certificate host))
    (hmethod : a.request.method = "POST") :
    ((∀ answer circumstances,
        let o := (s.receive a.request a.time).2.run answer circumstances
        o.records = [] ∧ o.response.status ≠ 201) ∧
      ∀ answer circumstances f, ¬s.FailsWith a answer circumstances f) ∨
    ∃ q, a.request.call? = some (host, q) ∧ s.passes a = true ∧
      (s.receive a.request a.time).2 = s.pending a.request (.certificate host q) := by
  rcases hbody : CertificateRequest.ofBody a.request.contentType a.request.body with fault | q
  · refine .inl ⟨fun answer circumstances => ?_, ?_⟩
    · rw [receive_of_ofBody_error hroute hmethod hbody]
      exact ⟨rfl, fun h => absurd (fault.status_response.symm.trans h) (by decide)⟩
    · rintro answer circumstances f ⟨host', q, hcall, -⟩
      cases hbody.symm.trans (Request.of_call? hcall).2.2
  · have hcall : a.request.call? = some (host, q) := by
      unfold Request.call?
      rw [hroute]
      dsimp only
      rw [if_pos hmethod, hbody]
      rfl
    obtain ⟨-, hpass, hrefused⟩ := receive_of_call s hcall
    rcases hpasses : s.passes a with - | -
    · refine .inl ⟨fun answer circumstances => ?_, ?_⟩
      · rw [(hrefused hpasses).outcome]
        exact ⟨rfl, (by decide : (429 : Nat) ≠ 201)⟩
      · rintro answer circumstances f ⟨host', q', -, hyes, -⟩
        cases hpasses.symm.trans hyes
    · exact .inr ⟨q, hcall, rfl, hpass hpasses⟩

/-- A request for a certificate at a log that keeps what is of note. There is a record of an issuance
if and only if a certificate is handed out, and then just after one of the signature, both with the
serial number in the packet, the group, and the one with the host that was asked for. With an error
of the service there is one record of a rejection, with the class of the error, and no such record
without. -/
theorem records_agree (s : Service) (a : Arrival) (answer : Outgoing → Reply)
    (circumstances : Issue.Circumstances) {host : Text} (hlog : s.log.level ≤ Log.Level.info)
    (hroute : Route.ofPath? a.request.path = some (.certificate host))
    (hmethod : a.request.method = "POST") :
    let o := (s.receive a.request a.time).2.run answer circumstances
    (o.response.status = 201 ↔ ∃ record ∈ o.records, record.event? = some .issued) ∧
    (o.response.status = 201 → ∃ certificate info f, o.Issues s.config host certificate info f) ∧
    (∀ f response reason, s.FailsWith a answer circumstances f →
      f.answer? = some (response, reason) → o.Rejects response reason) ∧
    ((∃ record ∈ o.records, record.event? = some .rejected) →
      ∃ f response reason, s.FailsWith a answer circumstances f ∧
        f.answer? = some (response, reason)) := by
  rcases receive_of_certificate s hroute hmethod with
    ⟨hnone, hfails⟩ | ⟨q, hcall, hpasses, hreceive⟩
  · -- settled before any call: no record is written, and nothing fails
    obtain ⟨hrecords, hstatus⟩ := hnone answer circumstances
    dsimp only
    rw [hrecords]
    refine ⟨⟨fun h => absurd h hstatus, ?_⟩, fun h => absurd h hstatus,
      fun f _ _ hf => absurd hf (hfails _ _ f), ?_⟩ <;>
    · rintro ⟨record, hrecord, -⟩
      exact absurd hrecord List.not_mem_nil
  · dsimp only
    rw [hreceive]
    -- from here on records count only by what they stand for
    simp only [← Log.mem_events]
    have hfails : ∀ f, s.FailsWith a answer circumstances f ↔
        ((Handler.certificateQuery s.platform s.config s.settings host q).run answer circumstances).result =
          .error f := by
      intro f
      constructor
      · rintro ⟨host', q', hcall', -, hresult⟩
        cases hcall.symm.trans hcall'
        exact hresult
      · exact fun hresult => ⟨host, q, hcall, hpasses, hresult⟩
    simp only [hfails]
    rcases ends_of_call a.request host q answer circumstances hlog with
      ⟨c, info, f, hresult, hissues⟩ | ⟨f, response, reason, hresult, hanswer, hrejects⟩ |
      ⟨f, hresult, hanswer, hresponse, hevents⟩
    · rw [hissues.events, hissues.responds, hresult]
      refine ⟨⟨fun _ => by decide, fun _ => rfl⟩, fun _ => ⟨_, info, f, hissues⟩, ?_, ?_⟩
      · intro f _ _ h
        cases h
      · exact fun h => absurd h (by decide)
    · -- an error of the service has a status of 400 or more
      have hstatus : response.status ≠ 201 := fun heq =>
        absurd (Failure.le_status_of_answer? hanswer) (by rw [heq]; decide)
      rw [hrejects.events, hrejects.responds, hresult]
      refine ⟨⟨fun h => absurd h hstatus, fun h => absurd h (by decide)⟩, fun h => absurd h hstatus,
        ?_, fun _ => ⟨f, response, reason, rfl, hanswer⟩⟩
      intro f' response' reason' hf hanswer'
      cases hf
      cases hanswer.symm.trans hanswer'
      exact hrejects
    · have hstatus : Response.internalError.status ≠ 201 := by decide
      rw [hevents, hresponse, hresult]
      refine ⟨⟨fun h => absurd h hstatus, fun h => absurd h (by decide)⟩, fun h => absurd h hstatus,
        ?_, fun h => absurd h (by decide)⟩
      intro f' response' reason' hf hanswer'
      cases hf
      cases hanswer.symm.trans hanswer'

namespace Sample

open Certificate.Sample (subject)

/-- A request for a host that is in no group. -/
def otherHost : Arrival := ⟨{ request with target := "/elsewhere.example.org/certificate" }, 0⟩

theorem failsWith_otherHost : (service plain).FailsWith otherHost answer
    Issue.Sample.circumstances (.unknownHost "elsewhere.example.org") := by
  refine ⟨"elsewhere.example.org", ⟨Bytes.toLatin subject.line, "t"⟩, by decide +kernel,
    by decide +kernel, ?_⟩
  have hresolve : (service plain).config.resolve? "elsewhere.example.org" = none := by
    decide +kernel
  unfold Handler.certificateQuery Handler.prepare Config.resolve
  rw [grant_plain.imports, hresolve]
  rfl

end Sample

/-- The certificate of the user leaves its two records, and a request for a host that is in no group
the one of its rejection. -/
theorem records_sample :
    (Sample.service Sample.plain).log.level ≤ Log.Level.info ∧
    Route.ofPath? Sample.request.path = some (.certificate "login.example.org") ∧
    Sample.request.method = "POST" ∧
    (∃ certificate info f, ((Sample.service Sample.plain).outcome Sample.request 0 Sample.answer
      Issue.Sample.circumstances).Issues (Sample.service Sample.plain).config "login.example.org"
      certificate info f) ∧
    Route.ofPath? Sample.otherHost.request.path = some (.certificate "elsewhere.example.org") ∧
    ((Sample.service Sample.plain).outcome Sample.otherHost.request 0 Sample.answer
      Issue.Sample.circumstances).Rejects (.error 400 "Unknown host.") "unknown_host" := by
  have hlevel : (Sample.service Sample.plain).log.level ≤ Log.Level.info := le_rfl
  have hroute := (Sample.admitted Sample.plain).route
  have hother : Route.ofPath? Sample.otherHost.request.path =
      some (.certificate "elsewhere.example.org") := by decide +kernel
  obtain ⟨-, hissues, -⟩ := records_agree (Sample.service Sample.plain) (Sample.call 0)
    Sample.answer Issue.Sample.circumstances hlevel hroute rfl
  obtain ⟨-, -, hrejects, -⟩ := records_agree (Sample.service Sample.plain) Sample.otherHost
    Sample.answer Issue.Sample.circumstances hlevel hother rfl
  exact ⟨hlevel, hroute, rfl, hissues Sample.status_plain, hother,
    hrejects _ _ _ Sample.failsWith_otherHost rfl⟩

end Service

end SshAuthority
