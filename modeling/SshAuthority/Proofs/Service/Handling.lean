/-
SshAuthority/Proofs/Service/Handling.lean

The handling of a request, from one wait to the next.

A handler runs in segments. Between two of them it waits, for the reply of an
authorization service or for a signature, and the service may change meanwhile; each
segment is therefore given the service as it is when the segment begins, and what a
handler keeps over a wait stands in the stage that it has reached (`Stage`). A request is
first accepted, which counts it, and only then does its handler begin.

Main results: segments that follow each other under one service are the handling of the
request as a whole (`completed_started`), and what is asked first is all that is asked
(`asks_begin`).
-/
import SshAuthority.Service.Basic

namespace SshAuthority

/-- A quota that admits a call admits the first one in a window. -/
theorem RateWindows.admits_nil {windows : RateWindows} {now : Rat} {key : RateKey} {quota : Quota}
    (h : windows.admits now key quota = true) : RateWindows.admits [] now key quota = true := by
  have hcount : 1 ≤ (windows.next now key quota).count := by
    unfold next
    split
    · exact Nat.succ_le_succ (Nat.zero_le _)
    · exact Nat.le_refl 1
  exact decide_eq_true (Nat.le_trans hcount (of_decide_eq_true h))

namespace Service

/-! ### Acceptance -/

/-- What the handler of an accepted request is called with. -/
inductive Call where
  | schema
  | index
  | health
  | host (name : Text)
  | certificate (host : Text) (q : CertificateRequest)

/-- Accepts a request, and counts it if it is one for a certificate. A request that leads
nowhere, has a body that is none, or comes too often is answered without a handler. -/
def accept (s : Service) (r : Request) (now : Rat) : Service × Option Call :=
  match Route.ofPath? r.path with
  | none => (s, none)
  | some route =>
    if r.method ∉ route.methods then (s, none)
    else match route with
      | .schema => (s, some .schema)
      | .index => (s, some .index)
      | .health => (s, some .health)
      | .host name => (s, some (.host name))
      | .certificate host =>
        match CertificateRequest.ofBody r.contentType r.body with
        | .error _ => (s, none)
        | .ok q =>
          ({ s with windows := s.windows.hit now (rateKey r) s.platform.quota },
            if s.windows.admits now (rateKey r) s.platform.quota then some (.certificate host q)
            else none)

/-- What follows on a call. -/
def pending (s : Service) (r : Request) : Call → Pending
  | .schema => (s.query r .schema).logged s.log
  | .index => (s.query r .index).logged s.log
  | .health => (s.query r .health).logged s.log
  | .host name => (s.query r (.host name)).logged s.log
  | .certificate host q =>
    Pending.logged s.log ((Handler.certificateQuery s.platform s.config s.settings host q).map
      fun next circumstances =>
        Handler.conclude r (fun c => .certificate c.certificate) (next circumstances))

variable {s s' : Service} {r : Request} {now : Rat} {call : Call}

/-- A request is accepted by where it leads, by what method and, for a certificate, by its body
and by the calls counted before. -/
theorem accept_eq_some_iff :
    (s.accept r now).2 = some call ↔
      ∃ route, Route.ofPath? r.path = some route ∧ r.method ∈ route.methods ∧
        match route with
        | .schema => call = .schema
        | .index => call = .index
        | .health => call = .health
        | .host name => call = .host name
        | .certificate host => ∃ q, CertificateRequest.ofBody r.contentType r.body = .ok q ∧
            s.windows.admits now (rateKey r) s.platform.quota = true ∧ call = .certificate host q := by
  unfold accept
  rcases Route.ofPath? r.path with - | route
  · simp
  · dsimp only
    by_cases hmethod : r.method ∈ route.methods
    · rw [if_neg (Decidable.not_not.mpr hmethod)]
      cases route
      case certificate host =>
        dsimp only
        constructor
        · intro h
          rcases hbody : CertificateRequest.ofBody r.contentType r.body with fault | q
          · rw [hbody] at h
            cases h
          · rw [hbody] at h
            dsimp only at h
            split at h
            · next hadmits =>
              exact ⟨_, rfl, hmethod, q, rfl, hadmits, (Option.some.inj h).symm⟩
            · cases h
        · rintro ⟨route, hroute, -, hcall⟩
          cases hroute
          obtain ⟨q, hbody, hadmits, rfl⟩ := hcall
          rw [hbody]
          dsimp only
          rw [if_pos hadmits]
      all_goals
        constructor
        · intro h
          cases h
          exact ⟨_, rfl, hmethod, rfl⟩
        · rintro ⟨route, hroute, -, hcall⟩
          cases hroute
          cases hcall
          rfl
    · rw [if_pos hmethod]
      simp [hmethod]

/-- Accepting a request changes nothing but the calls counted. -/
theorem exists_accept_fst_eq (s : Service) (r : Request) (now : Rat) :
    ∃ windows, (s.accept r now).1 = { s with windows } := by
  unfold accept
  rcases Route.ofPath? r.path with - | route
  · exact ⟨s.windows, rfl⟩
  · dsimp only
    by_cases hmethod : r.method ∉ route.methods
    · rw [if_pos hmethod]
      exact ⟨s.windows, rfl⟩
    · rw [if_neg hmethod]
      cases route
      case certificate host =>
        dsimp only
        rcases CertificateRequest.ofBody r.contentType r.body with fault | q
        · exact ⟨s.windows, rfl⟩
        · exact ⟨s.windows.hit now (rateKey r) s.platform.quota, rfl⟩
      all_goals exact ⟨s.windows, rfl⟩

/-- What follows on an accepted request is what follows on its call. -/
theorem receive_of_accept (h : (s.accept r now).2 = some call) :
    (s.receive r now).2 = s.pending r call := by
  obtain ⟨route, hroute, hmethod, hcall⟩ := accept_eq_some_iff.mp h
  unfold receive receiveCertificate
  rw [hroute]
  dsimp only
  rw [if_neg (Decidable.not_not.mpr hmethod)]
  cases route
  case certificate host =>
    obtain ⟨q, hbody, hadmits, rfl⟩ := hcall
    dsimp only
    rw [hbody]
    dsimp only
    rw [if_pos hadmits]
    rfl
  all_goals
    subst hcall
    rfl

/-- A request that was accepted is accepted where none came before, whatever else differs. -/
theorem accept_of_windows_nil (h : (s.accept r now).2 = some call)
    (hquota : s'.platform.quota = s.platform.quota) (hs : s'.windows = []) :
    (s'.accept r now).2 = some call := by
  obtain ⟨route, hroute, hmethod, hcall⟩ := accept_eq_some_iff.mp h
  refine accept_eq_some_iff.mpr ⟨route, hroute, hmethod, ?_⟩
  cases route
  case certificate host =>
    obtain ⟨q, hbody, hadmits, hcall⟩ := hcall
    refine ⟨q, hbody, ?_, hcall⟩
    -- with no calls counted, this one is the first in its window
    rw [hquota, hs]
    exact RateWindows.admits_nil hadmits
  all_goals exact hcall

/-! ### Segments -/

/-- What the handler of a request for a certificate keeps over its waits. -/
structure Frame where
  host : Text
  key : PublicKey
  info : HostInfo
  token : Text
  command : Text

/-- How far a handler has come. While it waits for a reply, `next` is what the client of the
authorization service makes of it. -/
inductive Stage where
  | started (call : Call)
  | askingHost (info : HostInfo) (out : Outgoing) (next : Reply → Logged (List Text))
  | askingStatus (frame : Frame) (out : Outgoing) (next : Reply → Logged Decision)
  /-- Waiting for the signature; the records were written before. -/
  | signing (frame : Frame) (records : List Log.Record)
  | finished (outcome : Handler.Outcome)

/-- The questions that a handler waits for. -/
def Stage.asks : Stage → List Outgoing
  | .askingHost _ out _ | .askingStatus _ out _ => [out]
  | _ => []

/-- The end of a handler, as the log keeps it. -/
def finish {α : Type} (s : Service) (r : Request) (respond : α → Response) (a : Logged α) : Stage :=
  let outcome := Handler.conclude r respond a
  .finished { outcome with records := keep s.log outcome.records }

/-- The end of a query for a host. -/
def afterHost (s : Service) (r : Request) (a : Logged (Text × List Text)) : Stage :=
  s.finish r (fun (publicKey, providers) => .host publicKey providers) a

/-- What follows on the providers of a host, which the service may not have been told. -/
def afterProviders (s : Service) (r : Request) (info : HostInfo) (a : Logged (List Text)) : Stage :=
  s.afterHost r (a.andThen (Handler.hostAnswer info))

/-- The end of a request for a certificate. -/
def afterCertificate (s : Service) (r : Request) (a : Logged IssuedCertificate) : Stage :=
  s.finish r (fun c => .certificate c.certificate) a

/-- What follows on the decision of an authorization service: only a user who is allowed comes
to the signature. -/
def afterDecision (s : Service) (r : Request) (frame : Frame) (a : Logged Decision) : Stage :=
  match a.result with
  | .ok .allow => .signing frame a.records
  | .ok .deny => s.afterCertificate r ⟨.error (.unauthorized .denied),
      a.records ++ [Handler.deniedRecord frame.info frame.host]⟩
  | .error f => s.afterCertificate r ⟨.error f, a.records⟩

/-- The first segment: it reads the configuration and goes on to the question. -/
def begin (s : Service) (r : Request) : Call → Stage
  | .schema => .finished ⟨.schema s.platform.schema, []⟩
  | .index => .finished ⟨.index, []⟩
  | .health => .finished ⟨.health s.config.groups.length, []⟩
  | .host name =>
    match s.config.resolve name with
    | .error f => s.afterHost r (.fail f)
    | .ok info =>
      match (Endpoint.ofUrl s.platform.client info.endpoint s.settings.timeout).info with
      | .done a => s.afterProviders r info a
      | .ask out next => .askingHost info out next
  | .certificate host q =>
    match Handler.prepare s.config host q with
    | .error f => s.afterCertificate r (.fail f)
    | .ok (key, info) =>
      let frame : Frame := ⟨host, key, info, q.token, s.settings.forceCommand⟩
      match (Endpoint.ofUrl s.platform.client info.endpoint s.settings.timeout).authorize q.token with
      | .done a => s.afterDecision r frame a
      | .ask out next => .askingStatus frame out next

/-- The segment of a started handler. -/
def Stage.begin (s : Service) (r : Request) : Stage → Stage
  | .started call => s.begin r call
  | stage => stage

/-- The segment after a reply. -/
def Stage.resume (s : Service) (r : Request) (reply : Reply) : Stage → Stage
  | .askingHost info _ next => s.afterProviders r info (next reply)
  | .askingStatus frame _ next => s.afterDecision r frame (next reply)
  | stage => stage

/-- The segment of the signature and after it. -/
def Stage.sign (s : Service) (r : Request) (circumstances : Issue.Circumstances) : Stage → Stage
  | .signing frame records =>
    let a := Handler.issue s.platform.decoder frame.info frame.host frame.key frame.token
      frame.command circumstances .allow
    s.afterCertificate r ⟨a.result, records ++ a.records⟩
  | stage => stage

/-- The segment after the reply that a question has, if there is one. -/
def Stage.answered (s : Service) (r : Request) (answer : Outgoing → Reply) (stage : Stage) : Stage :=
  match stage.asks with
  | out :: _ => stage.resume s r (answer out)
  | [] => stage

/-- All segments that are left, under one service. -/
def Stage.completed (s : Service) (r : Request) (answer : Outgoing → Reply)
    (circumstances : Issue.Circumstances) (stage : Stage) : Stage :=
  ((stage.begin s r).answered s r answer).sign s r circumstances

/-! ### Segments and the whole -/

variable {answer : Outgoing → Reply} {circumstances : Issue.Circumstances}

/-- What a query for a certificate comes to, once the decision is there. -/
theorem sign_afterDecision (frame : Frame) (a : Logged Decision) :
    (s.afterDecision r frame a).sign s r circumstances =
      s.afterCertificate r (a.andThen (Handler.issue s.platform.decoder frame.info frame.host
        frame.key frame.token frame.command circumstances)) := by
  unfold afterDecision Logged.andThen
  rcases a.result with f | - | -
  · rfl
  · rfl
  · rfl

/-- After the decision nothing is asked. -/
theorem asks_afterDecision (frame : Frame) (a : Logged Decision) :
    (s.afterDecision r frame a).asks = [] := by
  unfold afterDecision
  rcases a.result with f | - | - <;> rfl

/-- A stage that asks nothing waits for no reply. -/
theorem Stage.answered_of_asks_nil {stage : Stage} (h : stage.asks = []) :
    stage.answered s r answer = stage := by
  unfold answered
  rw [h]

/-- A stage that asks goes on with the answer. -/
theorem Stage.answered_of_asks {stage : Stage} {out : Outgoing} (h : stage.asks = [out]) :
    stage.answered s r answer = stage.resume s r (answer out) := by
  unfold answered
  rw [h]

/-- The handling of a request as a whole is its segments, one after the other. -/
theorem completed_started (call : Call) :
    (Stage.started call).completed s r answer circumstances =
      .finished ((s.pending r call).run answer circumstances) := by
  unfold Stage.completed Stage.begin
  dsimp only
  cases call with
  | schema | index | health => rfl
  | host name =>
    unfold Service.begin pending query Handler.hostQuery
    dsimp only
    rcases s.config.resolve name with f | info
    · rfl
    · dsimp only
      rcases (Endpoint.ofUrl s.platform.client info.endpoint s.settings.timeout).info with
        a | ⟨out, next⟩ <;> rfl
  | certificate host q =>
    unfold Service.begin pending Handler.certificateQuery
    dsimp only
    rcases Handler.prepare s.config host q with f | ⟨key, info⟩
    · rfl
    · dsimp only
      rcases (Endpoint.ofUrl s.platform.client info.endpoint s.settings.timeout).authorize
        q.token with a | ⟨out, next⟩
      · -- without a question the decision is there at once, and the signature comes next
        dsimp only
        rw [Stage.answered_of_asks_nil (asks_afterDecision _ a), sign_afterDecision]
        rfl
      · show (s.afterDecision r _ (next (answer out))).sign s r circumstances = _
        rw [sign_afterDecision]
        rfl

/-- What is asked by the first segment is all that is asked. -/
theorem asks_begin (call : Call) : (s.begin r call).asks = (s.pending r call).requests := by
  cases call with
  | schema | index | health => rfl
  | host name =>
    unfold Service.begin pending query Handler.hostQuery
    dsimp only
    rcases s.config.resolve name with f | info
    · rfl
    · dsimp only
      rcases (Endpoint.ofUrl s.platform.client info.endpoint s.settings.timeout).info with
        a | ⟨out, next⟩ <;> rfl
  | certificate host q =>
    unfold Service.begin pending Handler.certificateQuery
    dsimp only
    rcases Handler.prepare s.config host q with f | ⟨key, info⟩
    · rfl
    · dsimp only
      rcases (Endpoint.ofUrl s.platform.client info.endpoint s.settings.timeout).authorize
        q.token with a | ⟨out, next⟩
      · exact asks_afterDecision _ a
      · rfl

/-! ### What segments read of the service -/

/-- The first segment reads the settings, the configuration and what the log is set to. -/
theorem begin_congr (hplatform : s.platform = s'.platform) (hsettings : s.settings = s'.settings)
    (hlog : s.log = s'.log) (hconfig : s.config = s'.config) (call : Call) :
    s.begin r call = s'.begin r call := by
  obtain ⟨platform, settings, log, config, windows⟩ := s
  obtain ⟨platform', settings', log', config', windows'⟩ := s'
  cases hplatform
  cases hsettings
  cases hlog
  cases hconfig
  cases call <;> rfl

/-- The segments after it read only what the log is set to and, for a signature, what the service
stands on. -/
theorem Stage.resume_congr (hlog : s.log = s'.log) (reply : Reply) (stage : Stage) :
    stage.resume s r reply = stage.resume s' r reply := by
  obtain ⟨platform, settings, log, config, windows⟩ := s
  obtain ⟨platform', settings', log', config', windows'⟩ := s'
  cases hlog
  cases stage <;> rfl

theorem Stage.sign_congr (hplatform : s.platform = s'.platform) (hlog : s.log = s'.log)
    (stage : Stage) : stage.sign s r circumstances = stage.sign s' r circumstances := by
  obtain ⟨platform, settings, log, config, windows⟩ := s
  obtain ⟨platform', settings', log', config', windows'⟩ := s'
  cases hplatform
  cases hlog
  cases stage <;> rfl

/-- Whether a handler has not begun. -/
def Stage.isStarted : Stage → Bool
  | .started _ => true
  | _ => false

theorem isStarted_afterDecision (frame : Frame) (a : Logged Decision) :
    (s.afterDecision r frame a).isStarted = false := by
  unfold afterDecision
  rcases a.result with f | - | - <;> rfl

/-- A handler does not begin twice. -/
theorem isStarted_begin (call : Call) : (s.begin r call).isStarted = false := by
  cases call with
  | schema | index | health => rfl
  | host name =>
    unfold Service.begin
    dsimp only
    rcases s.config.resolve name with f | info
    · rfl
    · dsimp only
      rcases (Endpoint.ofUrl s.platform.client info.endpoint s.settings.timeout).info with
        a | ⟨out, next⟩ <;> rfl
  | certificate host q =>
    unfold Service.begin
    dsimp only
    rcases Handler.prepare s.config host q with f | ⟨key, info⟩
    · rfl
    · dsimp only
      rcases (Endpoint.ofUrl s.platform.client info.endpoint s.settings.timeout).authorize
        q.token with a | ⟨out, next⟩
      · exact isStarted_afterDecision _ a
      · rfl

/-- A handler that has had its reply neither begins nor asks. -/
theorem Stage.resume_of_asks {stage : Stage} {out : Outgoing} {reply : Reply}
    (h : stage.asks = [out]) :
    (stage.resume s r reply).isStarted = false ∧ (stage.resume s r reply).asks = [] := by
  cases stage
  case askingHost info out next => exact ⟨rfl, rfl⟩
  case askingStatus frame out next => exact ⟨isStarted_afterDecision _ _, asks_afterDecision _ _⟩
  all_goals cases h

/-- For a handler that has begun, the segments that are left are those after the first. -/
theorem Stage.completed_of_begun {stage : Stage} (h : stage.isStarted = false) :
    stage.completed s r answer circumstances =
      (stage.answered s r answer).sign s r circumstances := by
  unfold completed
  cases stage
  case started call => cases h
  all_goals rfl

end Service

end SshAuthority
