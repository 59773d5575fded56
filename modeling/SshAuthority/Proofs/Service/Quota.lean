/-
SshAuthority/Proofs/Service/Quota.lean

Whose calls count against whom.

A client's calls for certificates are answered as if nothing else had come: with all other
arrivals deleted from the sequence, those of other clients, those on other routes and those
with a body that is no request, what follows on each call is the same, the refusals
included. A service that has taken in all arrivals and one that has taken in those alone
have for each key of the client the same window open at any time (`Agrees`); an arrival
that is deleted leaves these windows alone, one that stays is answered from them and
changes them alike. None of this rests on the times of the arrivals.

What is answered with the status of a refusal is a call, and one that does not get past the
limit (`status_eq_refused_iff`). In a window the calls of a key that do are the first ones,
so after a refusal all of them are refused.

Main result: `answers_isolated`.
-/
import SshAuthority.Proofs.Service.Malformed
import SshAuthority.Proofs.Service.Rate

namespace SshAuthority

/-! ### Statuses -/

/-- The status of a refusal is that of no failure. -/
theorem Failure.status_ne_refused {f : Failure} {response : Response} {reason : Text}
    (h : f.answer? = some (response, reason)) : response.status ≠ 429 := by
  cases f <;> cases h <;> decide

namespace Handler

/-- Where no value is answered with the status of a refusal, no result is. -/
theorem conclude_status_ne_refused {α : Type} {r : Request} {respond : α → Response}
    (hrespond : ∀ v, (respond v).status ≠ 429) (a : Logged α) :
    (conclude r respond a).response.status ≠ 429 := by
  unfold conclude
  rcases a.result with f | v
  · show (reject r f).response.status ≠ 429
    unfold reject
    split
    · next h => exact Failure.status_ne_refused h
    · exact (by decide : (500 : Nat) ≠ 429)
  · exact hrespond v

end Handler

namespace Request

/-- A request for a certificate, whatever its body. -/
def IsForCertificate (r : Request) : Prop :=
  r.method = "POST" ∧ ∃ host, Route.ofPath? r.path = some (.certificate host)

/-- What is no request for a certificate is no call. -/
theorem call?_eq_none {r : Request} (h : ¬r.IsForCertificate) : r.call? = none := by
  rcases hcall : r.call? with - | ⟨host, q⟩
  · rfl
  · obtain ⟨hroute, hmethod, -⟩ := of_call? hcall
    exact absurd ⟨hmethod, host, hroute⟩ h

end Request

/-! ### Windows after a call -/

namespace RateWindows

variable {windows windows' : RateWindows} {key : RateKey}

/-- After a call of a key, its window is the one that the call was counted in. -/
theorem find?_hit_self (windows : RateWindows) (now t : Rat) (key : RateKey) (quota : Quota) :
    (windows.hit now key quota).find? t key =
      if t < (windows.next now key quota).expires then some (windows.next now key quota)
      else none := by
  unfold hit find?
  by_cases hopen : t < (windows.next now key quota).expires
  · rw [if_pos hopen, List.find?_cons_of_pos (by simp [next_key, hopen])]
  · rw [if_neg hopen, List.find?_cons_of_neg (by simp [hopen]), List.find?_filter]
    -- behind the new window there are only those of other keys
    refine List.find?_eq_none.mpr fun w _ => ?_
    by_cases hkey : w.key = key <;> simp [hkey]

/-- The windows that are open for the keys of a kind are the same at any time. -/
def Agrees (kind : RateKey → Bool) (windows windows' : RateWindows) : Prop :=
  ∀ key, kind key = true → ∀ t, windows.find? t key = windows'.find? t key

variable {kind : RateKey → Bool}

/-- A call of a key of the kind is counted in the same window. -/
theorem Agrees.next (h : Agrees kind windows windows') (hkind : kind key = true) (now : Rat)
    (quota : Quota) : windows.next now key quota = windows'.next now key quota := by
  unfold RateWindows.next
  rw [h key hkind now]

/-- A call changes both alike. -/
theorem Agrees.hit (h : Agrees kind windows windows') (now : Rat) (key : RateKey) (quota : Quota) :
    Agrees kind (windows.hit now key quota) (windows'.hit now key quota) := by
  intro k hk t
  by_cases hkey : key = k
  · subst hkey
    rw [find?_hit_self, find?_hit_self, h.next hk]
  · rw [find?_hit_of_ne hkey, find?_hit_of_ne hkey]
    exact h k hk t

/-- A call of another key changes nothing for the kind. -/
theorem Agrees.hit_left (h : Agrees kind windows windows') (hkind : kind key = false) (now : Rat)
    (quota : Quota) : Agrees kind (windows.hit now key quota) windows' := by
  intro k hk t
  have hne : key ≠ k := fun heq => absurd (hkind.symm.trans (heq ▸ hk)) (by decide)
  rw [find?_hit_of_ne hne]
  exact h k hk t

end RateWindows

namespace Service

variable {s s' : Service} {a : Arrival} {answer : Outgoing → Reply}
  {circumstances : Issue.Circumstances}

/-! ### Refusals -/

/-- There is one way to be refused. -/
theorem Refused.unique {p p' : Pending} (h : Refused p) (h' : Refused p') : p = p' := by
  rcases p with next | ⟨out, next⟩
  · rcases p' with next' | ⟨out', next'⟩
    · have hnext : next = next' := by
        funext circumstances
        exact (h.outcome (fun _ => .lost []) circumstances).trans
          (h'.outcome (fun _ => .lost []) circumstances).symm
      rw [hnext]
    · exact absurd h'.requests (List.cons_ne_nil _ _)
  · exact absurd h.requests (List.cons_ne_nil _ _)

/-- What follows on a call for a certificate that gets past the limit is no refusal. -/
theorem pending_certificate_status_ne (s : Service) (r : Request) (host : Text)
    (q : CertificateRequest) :
    ((s.pending r (.certificate host q)).run answer circumstances).response.status ≠ 429 := by
  unfold pending
  rw [run_logged_response, Inquiry.run_map]
  refine Handler.conclude_status_ne_refused (fun c => ?_) _
  exact (by decide : (201 : Nat) ≠ 429)

theorem query_status_ne_refused (s : Service) (r : Request) (route : Route) :
    ((s.query r route).run answer circumstances).response.status ≠ 429 := by
  cases route
  case schema | index | health => exact (by decide : (200 : Nat) ≠ 429)
  case host name =>
    unfold query
    rw [Inquiry.run_map]
    refine Handler.conclude_status_ne_refused (fun v => ?_) _
    exact (by decide : (200 : Nat) ≠ 429)
  case certificate host => exact (by decide : (404 : Nat) ≠ 429)

/-- What is no call is not refused: it leads elsewhere, comes by another method, or has a body that
is no request. -/
theorem status_ne_refused_of_call?_eq_none (h : a.request.call? = none) :
    ((s.receive a.request a.time).2.run answer circumstances).response.status ≠ 429 := by
  unfold Request.call? at h
  unfold receive
  rcases hroute : Route.ofPath? a.request.path with - | route
  · show (strayResponse a.request).status ≠ 429
    unfold strayResponse
    dsimp only
    split
    · exact (by decide : (307 : Nat) ≠ 429)
    · exact (by decide : (404 : Nat) ≠ 429)
  · rw [hroute] at h
    dsimp only at h ⊢
    split
    · exact (by decide : (405 : Nat) ≠ 429)
    · next hmethod =>
      cases route
      case certificate host =>
        dsimp only at h ⊢
        rw [if_pos (List.mem_singleton.mp (Decidable.not_not.mp hmethod))] at h
        rw [run_logged_response]
        unfold receiveCertificate
        rcases hbody : CertificateRequest.ofBody a.request.contentType a.request.body with fault | q
        · cases fault <;> exact (by decide : (400 : Nat) ≠ 429)
        · rw [hbody] at h
          cases h
      all_goals
        dsimp only
        rw [run_logged_response]
        exact query_status_ne_refused s a.request _

/-- Refused are the calls that do not get past the limit, whatever is answered to questions and
whatever the circumstances of signing are. -/
theorem status_eq_refused_iff :
    ((s.receive a.request a.time).2.run answer circumstances).response.status = 429 ↔
      a.key?.isSome ∧ s.passes a = false := by
  unfold Arrival.key?
  rw [Option.isSome_map]
  rcases hcall : a.request.call? with - | ⟨host, q⟩
  · simp [status_ne_refused_of_call?_eq_none hcall]
  · obtain ⟨-, hpass, hrefused⟩ := receive_of_call s hcall
    constructor
    · intro hstatus
      refine ⟨rfl, Bool.eq_false_iff.mpr fun hpasses => ?_⟩
      rw [hpass hpasses] at hstatus
      exact pending_certificate_status_ne s a.request host q hstatus
    · rintro ⟨-, hno⟩
      rw [(hrefused hno).outcome]
      rfl

/-! ### Sequences -/

/-- What follows on each arrival of a sequence. -/
def answers (s : Service) : List Arrival → List (Arrival × Pending)
  | [] => []
  | a :: rest =>
    (a, (s.receive a.request a.time).2) ::
      answers (s.receive a.request a.time).1 rest

theorem answers_cons (s : Service) (a : Arrival) (rest : List Arrival) :
    s.answers (a :: rest) =
      (a, (s.receive a.request a.time).2) ::
        (s.receive a.request a.time).1.answers rest :=
  rfl

/-- Two services that differ in the calls counted for keys of other kinds, if at all. -/
def Agrees (kind : RateKey → Bool) (s s' : Service) : Prop :=
  ∃ windows, s' = { s with windows } ∧ RateWindows.Agrees kind s.windows windows

/-- A call of a key of the kind: both take it in alike, and the same follows on it. -/
theorem Agrees.receive {kind : RateKey → Bool} {key : RateKey} (h : Agrees kind s s')
    (hkey : a.key? = some key) (hkind : kind key = true) :
    (s.receive a.request a.time).2 = (s'.receive a.request a.time).2 ∧
      Agrees kind (s.receive a.request a.time).1 (s'.receive a.request a.time).1 := by
  obtain ⟨windows, rfl, hwindows⟩ := h
  have hpasses : s.passes a = ({ s with windows } : Service).passes a := by
    unfold passes RateWindows.admits
    rw [hkey]
    dsimp only [Option.any_some]
    rw [hwindows.next hkind]
  constructor
  · obtain ⟨⟨host, q⟩, hcall, -⟩ := Option.map_eq_some_iff.mp hkey
    obtain ⟨-, hpass, hrefused⟩ := receive_of_call s hcall
    obtain ⟨-, hpass', hrefused'⟩ := receive_of_call { s with windows } hcall
    rcases hp : s.passes a with - | -
    · exact (hrefused hp).unique (hrefused' (hpasses.symm.trans hp))
    · rw [hpass hp, hpass' (hpasses.symm.trans hp)]
      exact (pending_windows s windows a.request _).symm
  · rw [receive_fst, receive_fst, hkey]
    exact ⟨_, rfl, hwindows.hit a.time key s.platform.quota⟩

/-- Any other arrival: what the one service takes in makes no difference to the kind. -/
theorem Agrees.receive_left {kind : RateKey → Bool} (h : Agrees kind s s')
    (hkind : a.key?.any kind = false) : Agrees kind (s.receive a.request a.time).1 s' := by
  obtain ⟨windows, rfl, hwindows⟩ := h
  rw [receive_fst]
  rcases hkey : a.key? with - | key
  · exact ⟨windows, rfl, hwindows⟩
  · rw [hkey] at hkind
    exact ⟨windows, rfl, hwindows.hit_left hkind a.time s.platform.quota⟩

/-- What follows on the calls of a kind does not depend on any other arrival. -/
theorem Agrees.filter_answers {kind : RateKey → Bool} (h : Agrees kind s s')
    (arrivals : List Arrival) :
    (s.answers arrivals).filter (fun x => x.1.key?.any kind) =
      s'.answers (arrivals.filter fun a => a.key?.any kind) := by
  induction arrivals generalizing s s' with
  | nil => rfl
  | cons a rest ih =>
    rw [answers_cons]
    rcases hkind : a.key?.any kind with - | -
    · rw [List.filter_cons_of_neg (by simp [hkind]), List.filter_cons_of_neg (by simp [hkind])]
      exact ih (h.receive_left hkind)
    · obtain ⟨key, hkey, hkind'⟩ := (Option.any_eq_true _ _).mp hkind
      obtain ⟨hanswer, hrest⟩ := h.receive hkey hkind'
      rw [List.filter_cons_of_pos (by simp [hkind]), List.filter_cons_of_pos (by simp [hkind]),
        answers_cons, ih hrest, hanswer]

/-- In a window, a key that was refused is refused again. -/
theorem passes_eq_false_of_refused {mid : List Arrival} {b : Arrival} {key : RateKey}
    (ha : a.key? = some key) (hb : b.key? = some key)
    (hwithin : s.Within a.time key (mid ++ [b])) (hno : s.passes a = false) :
    (s.receiveAll (a :: mid)).passes b = false := by
  obtain ⟨hle, hlt⟩ := hwithin b (List.mem_append_right _ (List.mem_singleton_self b)) hb
  have hself : s.windows.Within a.time key s.platform.quota a.time := ⟨le_rfl, hle.trans_lt hlt⟩
  have hall : s.Within a.time key ((a :: mid) ++ [b]) := by
    intro c hc hkey
    rcases List.mem_cons.mp hc with rfl | hc
    · exact hself
    · exact hwithin c hc hkey
  have hbefore : s.Within a.time key (a :: mid) := fun c hc =>
    hall c (List.mem_append_left _ hc)
  have hcall := within_receiveAll hall b (List.mem_singleton_self b) hb
  -- the quota is used up already, and calls only add to what is used
  have hused : ¬s.windows.used a.time key < s.platform.quota.limit := fun hlt =>
    Bool.eq_false_iff.mp hno ((passes_iff ha hself).mpr hlt)
  refine Bool.eq_false_iff.mpr fun hpasses => hused ?_
  have hmore := (passes_iff hb hcall).mp hpasses
  rw [used_receiveAll hbefore, platform_receiveAll] at hmore
  exact (Nat.le_add_right _ _).trans_lt hmore

/-! ### Clients -/

/-- Whether an arrival is a call of a client: a request for a certificate from its address, with a
body that is one. -/
def isCallOf (client : Text) (a : Arrival) : Bool :=
  (rateKey a.request).client = client && a.request.call?.isSome

theorem isCallOf_eq (client : Text) (a : Arrival) :
    isCallOf client a = a.key?.any fun key => key.client = client := by
  unfold isCallOf Arrival.key?
  rcases a.request.call? with - | call <;> simp

/-- A sequence of arrivals from any number of clients on any routes. With all deleted but the calls
of one client, the same follows on each of these. What is no request for a certificate is never
refused, and one with a body that is no request has the status of that. And after a refusal all
calls of the client on the path are refused that come in the window. -/
theorem answers_isolated (s : Service) (arrivals : List Arrival) :
    (∀ client, (s.answers arrivals).filter (fun x => isCallOf client x.1) =
      s.answers (arrivals.filter (isCallOf client))) ∧
    ∀ before a after, arrivals = before ++ a :: after →
      let t := s.receiveAll before
      (¬a.request.IsForCertificate → ∀ answer circumstances,
        ((t.receive a.request a.time).2.run answer circumstances).response.status ≠ 429) ∧
      (a.request.IsForCertificate →
        (∀ q, CertificateRequest.ofBody a.request.contentType a.request.body ≠ .ok q) →
        ∀ answer circumstances,
          ((t.receive a.request a.time).2.run answer circumstances).response.status = 400) ∧
      ∀ key mid b last, a.key? = some key → after = mid ++ b :: last → b.key? = some key →
        t.Within a.time key (mid ++ [b]) →
        (∃ answer circumstances,
          ((t.receive a.request a.time).2.run answer circumstances).response.status = 429) →
        ∀ answer circumstances,
          (((s.receiveAll (before ++ a :: mid)).receive b.request b.time).2.run answer
            circumstances).response.status = 429 := by
  refine ⟨fun client => ?_, ?_⟩
  · -- the windows of a client are moved by its own calls only
    have hsame : Agrees (fun key => decide (key.client = client)) s s :=
      ⟨s.windows, rfl, fun _ _ _ => rfl⟩
    rw [show isCallOf client = _ from funext (isCallOf_eq client)]
    exact hsame.filter_answers arrivals
  rintro before a after -
  refine ⟨fun hno answer circumstances => ?_, fun hfor hbody answer circumstances => ?_, ?_⟩
  · exact status_ne_refused_of_call?_eq_none (Request.call?_eq_none hno)
  · obtain ⟨hmethod, host, hroute⟩ := hfor
    rcases hread : CertificateRequest.ofBody a.request.contentType a.request.body with fault | q
    · rw [receive_of_ofBody_error hroute hmethod hread]
      exact fault.status_response
    · exact absurd hread (hbody q)
  · rintro key mid b last ha - hb hwithin ⟨answer, circumstances, hstatus⟩ answer' circumstances'
    -- a refusal says that the window is full, and it stays so as long as it lasts
    have hno := (status_eq_refused_iff.mp hstatus).2
    have hb' := passes_eq_false_of_refused ha hb hwithin hno
    refine status_eq_refused_iff.mpr ⟨by rw [hb]; rfl, ?_⟩
    unfold receiveAll at hb' ⊢
    rw [List.foldl_append]
    exact hb'

namespace Sample

/-- The same request from another client, and one that reads only. -/
def neighbourCall (time : Rat) : Arrival := ⟨{ request with client := "192.0.2.2" }, time⟩

def indexRequest : Request := { request with method := "GET", target := "/" }

/-- What comes before the first refusal, and what comes after it. -/
def earlier : List Arrival := [call 0, neighbourCall 1]

def later : List Arrival := [⟨indexRequest, 2⟩, ⟨requestWith strayOctet, 3⟩]

/-- The calls of a client, with others between them. -/
def traffic : List Arrival := earlier ++ call 1 :: (later ++ [call 59])

/-- The service when the client calls for the second time. -/
def called : Service := strict.receiveAll earlier

theorem within_later :
    called.Within 1 ⟨"192.0.2.1", "/login.example.org/certificate"⟩ (later ++ [call 59]) := by
  have hcloses : called.windows.closes 1 ⟨"192.0.2.1", "/login.example.org/certificate"⟩
      called.platform.quota = 60 := by
    decide +kernel
  intro a ha _
  unfold RateWindows.Within
  rw [hcloses]
  simp only [later, List.cons_append, List.nil_append, List.mem_cons, List.not_mem_nil, or_false]
    at ha
  rcases ha with rfl | rfl | rfl <;> decide +kernel

theorem not_isForCertificate_index : ¬indexRequest.IsForCertificate := by
  rintro ⟨hmethod, -⟩
  exact absurd hmethod (by decide)

theorem filter_traffic : traffic.filter (isCallOf "192.0.2.1") = [call 0, call 1, call 59] := by
  have hcall : ∀ time, isCallOf "192.0.2.1" (call time) = true := by
    intro time
    rw [isCallOf_eq, key?_call]
    rfl
  have hneighbour : isCallOf "192.0.2.1" (neighbourCall 1) = false := by decide +kernel
  have hindex : isCallOf "192.0.2.1" ⟨indexRequest, 2⟩ = false := by decide +kernel
  have hmalformed : isCallOf "192.0.2.1" ⟨requestWith strayOctet, 3⟩ = false := by decide +kernel
  simp [traffic, earlier, later, hcall, hneighbour, hindex, hmalformed]

end Sample

/-- With a quota of one call a minute the second call of a client is refused and so is the third,
with or without what comes between them from elsewhere; none of that is refused. -/
theorem answers_isolated_sample :
    Sample.called.Within 1 ⟨"192.0.2.1", "/login.example.org/certificate"⟩
      (Sample.later ++ [Sample.call 59]) ∧
    (Sample.strict.answers Sample.traffic).filter (fun x => isCallOf "192.0.2.1" x.1) =
      Sample.strict.answers [Sample.call 0, Sample.call 1, Sample.call 59] ∧
    ((Sample.called.receive Sample.request 1).2.run Sample.answer
      Issue.Sample.circumstances).response.status = 429 ∧
    (((Sample.strict.receiveAll (Sample.earlier ++ [Sample.call 1])).receive
      Sample.indexRequest 2).2.run Sample.answer
      Issue.Sample.circumstances).response.status ≠ 429 ∧
    (((Sample.strict.receiveAll (Sample.earlier ++ Sample.call 1 :: Sample.later)).receive
      Sample.request 59).2.run Sample.answer
      Issue.Sample.circumstances).response.status = 429 := by
  obtain ⟨hfilter, hanswers⟩ := answers_isolated Sample.strict Sample.traffic
  obtain ⟨hindex, -⟩ := hanswers (Sample.earlier ++ [Sample.call 1]) ⟨Sample.indexRequest, 2⟩
    [⟨Sample.requestWith Sample.strayOctet, 3⟩, Sample.call 59] rfl
  obtain ⟨-, -, hagain⟩ := hanswers Sample.earlier (Sample.call 1)
    (Sample.later ++ [Sample.call 59]) rfl
  have hrefused : ((Sample.called.receive (Sample.call 1).request (Sample.call 1).time).2.run
      Sample.answer Issue.Sample.circumstances).response.status = 429 := by
    refine status_eq_refused_iff.mpr ⟨?_, by decide +kernel⟩
    rw [Sample.key?_call]
    rfl
  refine ⟨Sample.within_later, ?_, hrefused, hindex Sample.not_isForCertificate_index _ _, ?_⟩
  · rw [← Sample.filter_traffic]
    exact hfilter "192.0.2.1"
  · exact hagain _ Sample.later (Sample.call 59) [] (Sample.key?_call 1) rfl (Sample.key?_call 59)
      Sample.within_later ⟨_, _, hrefused⟩ _ _

end Service

end SshAuthority
