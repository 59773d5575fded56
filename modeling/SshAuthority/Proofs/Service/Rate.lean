/-
SshAuthority/Proofs/Service/Rate.lean

How many requests for certificates get past the rate limit.

Calls are counted for a client and a path together, and the path names the host. For one
such key the limit holds: of its calls in one window those get past it that are the first,
as many as the quota has left, and all others are refused, whatever other clients do and
whatever is asked on other paths. What carries this is what one call does to the count of a
key from a point of time on (`used`): a call of the key raises it by one and leaves the end
of the window where it is or, if it opens the window, puts it off; a call of another key
changes neither. The calls need not come in the order of their times.

For a client there is no limit but that of its paths together: with one path more it gets
as much again (`limit_exceeded`).

Main result: `limit_of_receiveAll`.
-/
import Mathlib.Algebra.BigOperators.Group.Finset.Basic
import Mathlib.Algebra.Order.BigOperators.Group.Finset
import Mathlib.Algebra.Order.Ring.Unbundled.Rat
import Mathlib.Data.List.Find
import SshAuthority.Proofs.Service.Issuance

namespace SshAuthority

/-! ### Windows -/

namespace RateWindows

variable {windows : RateWindows} {start now : Rat} {key other : RateKey} {quota : Quota}

/-- The calls counted in the window that is open. -/
def used (windows : RateWindows) (start : Rat) (key : RateKey) : Nat :=
  match windows.find? start key with
  | some w => w.count
  | none => 0

/-- The end of the window that is open or, if there is none, of one that opens now. -/
def closes (windows : RateWindows) (start : Rat) (key : RateKey) (quota : Quota) : Rat :=
  match windows.find? start key with
  | some w => w.expires
  | none => start + quota.period

/-- A time in the window that is open from `start` on, or would be. -/
def Within (windows : RateWindows) (start : Rat) (key : RateKey) (quota : Quota) (now : Rat) : Prop :=
  start ≤ now ∧ now < windows.closes start key quota

/-- A window that is open is one of the key, and not over. -/
theorem of_find?_eq_some {w : RateWindow} (h : windows.find? now key = some w) :
    w.key = key ∧ now < w.expires := by
  have hopen := List.find?_some (p := fun w : RateWindow => w.key = key && now < w.expires) h
  simpa using hopen

/-- Where no window is open, none is later. -/
theorem find?_eq_none_of_le (h : windows.find? start key = none) (hle : start ≤ now) :
    windows.find? now key = none := by
  refine List.find?_eq_none.mpr fun w hw hopen => List.find?_eq_none.mp h w hw ?_
  simp only [Bool.and_eq_true, decide_eq_true_eq] at hopen ⊢
  exact ⟨hopen.1, hle.trans_lt hopen.2⟩

/-- A window that is open stays so up to its end. -/
theorem find?_eq_some_of_lt {w : RateWindow} (h : windows.find? start key = some w)
    (hle : start ≤ now) (hlt : now < w.expires) : windows.find? now key = some w := by
  obtain ⟨hopen, before, after, rfl, hbefore⟩ := List.find?_eq_some_iff_append.mp h
  refine List.find?_eq_some_iff_append.mpr ⟨?_, before, after, rfl, fun v hv => ?_⟩
  · simpa [(of_find?_eq_some h).1] using hlt
  · -- a window in front that is open now was open at the start
    have hclosed := hbefore v hv
    simp only [Bool.not_eq_true', Bool.and_eq_false_iff, decide_eq_false_iff_not] at hclosed ⊢
    exact hclosed.imp_right fun hover hopen => hover (hle.trans_lt hopen)

theorem next_key (windows : RateWindows) (now : Rat) (key : RateKey) (quota : Quota) :
    (windows.next now key quota).key = key := by
  unfold next
  split
  · next w hfind => exact (of_find?_eq_some hfind).1
  · rfl

/-- The window after a call holds one call more and ends no earlier. -/
theorem next_of_within (h : windows.Within start key quota now) :
    (windows.next now key quota).count = windows.used start key + 1 ∧
      windows.closes start key quota ≤ (windows.next now key quota).expires := by
  obtain ⟨hle, hlt⟩ := h
  unfold next used
  unfold closes at hlt ⊢
  rcases hfind : windows.find? start key with - | w
  · rw [find?_eq_none_of_le hfind hle]
    exact ⟨rfl, Rat.add_le_add_right.mpr hle⟩
  · rw [hfind] at hlt
    rw [find?_eq_some_of_lt hfind hle hlt]
    exact ⟨rfl, le_rfl⟩

/-- A call is admitted as long as the quota is not used up. -/
theorem admits_iff (h : windows.Within start key quota now) :
    windows.admits now key quota = true ↔ windows.used start key < quota.limit := by
  unfold admits
  rw [decide_eq_true_eq, (next_of_within h).1]
  exact Nat.succ_le_iff

/-- After a call the window that it counts in is the one that is open. -/
theorem find?_hit (h : windows.Within start key quota now) :
    (windows.hit now key quota).find? start key = some (windows.next now key quota) := by
  have hopen : start < (windows.next now key quota).expires :=
    (h.1.trans_lt h.2).trans_le (next_of_within h).2
  refine List.find?_cons_of_pos ?_
  simp only [Bool.and_eq_true, decide_eq_true_eq]
  exact ⟨next_key windows now key quota, hopen⟩

/-- A call of another key leaves the window alone. -/
theorem find?_hit_of_ne (hne : other ≠ key) :
    (windows.hit now other quota).find? start key = windows.find? start key := by
  unfold hit find?
  rw [List.find?_cons_of_neg (by simp [next_key, hne]), List.find?_filter]
  refine List.find?_congr fun w _ => ?_
  by_cases hkey : w.key = key
  · simp [hkey, hne.symm]
  · simp [hkey]

/-- One call more is counted for its key, and the window does not end earlier for it. -/
theorem used_hit (h : windows.Within start key quota now) :
    (windows.hit now key quota).used start key = windows.used start key + 1 ∧
      windows.closes start key quota ≤ (windows.hit now key quota).closes start key quota := by
  obtain ⟨hcount, hcloses⟩ := next_of_within h
  unfold used at hcount ⊢
  unfold closes at hcloses ⊢
  rw [find?_hit h]
  exact ⟨hcount, hcloses⟩

/-- For other keys nothing changes. -/
theorem used_hit_of_ne (hne : other ≠ key) :
    (windows.hit now other quota).used start key = windows.used start key ∧
      (windows.hit now other quota).closes start key quota = windows.closes start key quota := by
  unfold used closes
  rw [find?_hit_of_ne hne]
  exact ⟨rfl, rfl⟩

end RateWindows

/-! ### Arrivals -/

/-- What is asked for by a request for a certificate with a body that is one. -/
def Request.call? (r : Request) : Option (Text × CertificateRequest) :=
  match Route.ofPath? r.path with
  | some (.certificate host) =>
    if r.method = "POST" then
      (CertificateRequest.ofBody r.contentType r.body).toOption.map fun q => (host, q)
    else none
  | _ => none

/-- A request at a point of time. -/
structure Arrival where
  request : Request
  time : Rat

/-- The key that an arrival counts for, if it counts. -/
def Arrival.key? (a : Arrival) : Option RateKey :=
  a.request.call?.map fun _ => Service.rateKey a.request

/-- The keys of the arrivals that count, one for each. -/
def Arrival.keys (arrivals : List Arrival) : List RateKey := arrivals.filterMap Arrival.key?

theorem Request.of_call? {r : Request} {host : Text} {q : CertificateRequest}
    (h : r.call? = some (host, q)) :
    Route.ofPath? r.path = some (.certificate host) ∧ r.method = "POST" ∧
      CertificateRequest.ofBody r.contentType r.body = .ok q := by
  unfold call? at h
  split at h
  · next host' hroute =>
    split at h
    · next hmethod =>
      obtain ⟨q', hq, heq⟩ := Option.map_eq_some_iff.mp h
      cases heq
      exact ⟨hroute, hmethod, Except.toOption_eq_some_iff.mp hq⟩
    · cases h
  · cases h

namespace Service

variable {s : Service} {a : Arrival} {start : Rat} {key : RateKey} {arrivals : List Arrival}

/-- Whether an arrival is a call that gets past the limit. -/
def passes (s : Service) (a : Arrival) : Bool :=
  a.key?.any fun key => s.windows.admits a.time key s.platform.quota

/-- What waits for nothing, and is the same in all circumstances: the answer to a client that asks
too often. Nothing is asked for it and nothing signed. -/
structure Refused (p : Pending) : Prop where
  requests : p.requests = []
  outcome : ∀ answer circumstances,
    p.run answer circumstances = ⟨.error 429 "Rate limit exceeded.", []⟩

theorem refused_logged_settled (log : Log.Setting) :
    Refused (Pending.logged log (settled .rateLimited)) :=
  ⟨rfl, fun _ _ => rfl⟩

/-- Taking in a call counts it, and goes on to the query for its certificate if it gets past the
limit; else it is refused. -/
theorem receive_of_call (s : Service) {host : Text} {q : CertificateRequest}
    (h : a.request.call? = some (host, q)) :
    (s.receive a.request a.time).1 =
        { s with windows := s.windows.hit a.time (rateKey a.request) s.platform.quota } ∧
      (s.passes a = true →
        (s.receive a.request a.time).2 = s.pending a.request (.certificate host q)) ∧
      (s.passes a = false → Refused (s.receive a.request a.time).2) := by
  obtain ⟨hroute, hmethod, hbody⟩ := Request.of_call? h
  have hmem : ¬a.request.method ∉ (Route.certificate host).methods :=
    Decidable.not_not.mpr (List.mem_singleton.mpr hmethod)
  unfold passes Arrival.key?
  rw [h]
  unfold receive receiveCertificate
  rw [hroute]
  dsimp only
  rw [if_neg hmem, hbody]
  dsimp only [Option.map_some, Option.any_some]
  split
  · next hadmits => exact ⟨rfl, fun _ => rfl, fun hno => absurd hadmits (by rw [hno]; decide)⟩
  · next hno => exact ⟨rfl, fun hadmits => absurd hadmits hno, fun _ => refused_logged_settled _⟩

/-- Taking in anything else counts nothing. -/
theorem receive_of_call?_eq_none (h : a.request.call? = none) :
    (s.receive a.request a.time).1 = s := by
  unfold Request.call? at h
  unfold receive receiveCertificate
  rcases hroute : Route.ofPath? a.request.path with - | route
  · rfl
  · rw [hroute] at h
    dsimp only at h ⊢
    split
    · rfl
    · next hmethod =>
      cases route
      case certificate host =>
        dsimp only at h ⊢
        rw [if_pos (List.mem_singleton.mp (Decidable.not_not.mp hmethod))] at h
        rcases hbody : CertificateRequest.ofBody a.request.contentType a.request.body with fault | q
        · cases fault <;> rfl
        · rw [hbody] at h
          cases h
      all_goals rfl

/-- The step: an arrival counts for its key, and changes nothing else. -/
theorem receive_fst (s : Service) (a : Arrival) :
    (s.receive a.request a.time).1 =
      match a.key? with
      | some key => { s with windows := s.windows.hit a.time key s.platform.quota }
      | none => s := by
  unfold Arrival.key?
  rcases hcall : a.request.call? with - | ⟨host, q⟩
  · exact receive_of_call?_eq_none hcall
  · exact (receive_of_call s hcall).1

/-- So it stands on the same. -/
@[simp]
theorem platform_receive (s : Service) (a : Arrival) :
    (s.receive a.request a.time).1.platform = s.platform := by
  rw [receive_fst]
  rcases a.key? with - | key <;> rfl

/-! ### Sequences of arrivals -/

/-- The service after a sequence of arrivals. -/
def receiveAll (s : Service) (arrivals : List Arrival) : Service :=
  arrivals.foldl (fun s a => (s.receive a.request a.time).1) s

/-- The calls of a sequence that get past the limit. -/
def passed (s : Service) : List Arrival → List Arrival
  | [] => []
  | a :: rest =>
    let later := passed (s.receive a.request a.time).1 rest
    if s.passes a then a :: later else later

/-- A sequence of arrivals changes nothing but the calls counted. -/
theorem exists_receiveAll_eq (s : Service) (arrivals : List Arrival) :
    ∃ windows, s.receiveAll arrivals = { s with windows } := by
  induction arrivals generalizing s with
  | nil => exact ⟨s.windows, rfl⟩
  | cons a rest ih =>
    obtain ⟨windows, hwindows⟩ := ih (s.receive a.request a.time).1
    refine ⟨windows, hwindows.trans ?_⟩
    rw [receive_fst]
    rcases a.key? with - | key <;> rfl

@[simp]
theorem platform_receiveAll (s : Service) (arrivals : List Arrival) :
    (s.receiveAll arrivals).platform = s.platform := by
  obtain ⟨windows, hwindows⟩ := exists_receiveAll_eq s arrivals
  rw [hwindows]

/-- What follows on a call does not depend on the calls counted. -/
theorem pending_windows (s : Service) (windows : RateWindows) (r : Request) (call : Call) :
    ({ s with windows } : Service).pending r call = s.pending r call := by
  cases call <;> rfl

/-- All calls of a key come in the window that is open from `start` on. -/
def Within (s : Service) (start : Rat) (key : RateKey) (arrivals : List Arrival) : Prop :=
  ∀ a ∈ arrivals, a.key? = some key → s.windows.Within start key s.platform.quota a.time

/-- Where all windows of a client are over, what comes within a period comes within a window. -/
theorem within_of_closed {client : Text}
    (hclosed : ∀ w ∈ s.windows, w.key.client = client → w.expires ≤ start)
    (htimes : ∀ a ∈ arrivals, start ≤ a.time ∧ a.time < start + s.platform.quota.period)
    (hclient : key.client = client) : s.Within start key arrivals := by
  have hnone : s.windows.find? start key = none := by
    refine List.find?_eq_none.mpr fun w hw hopen => ?_
    simp only [Bool.and_eq_true, decide_eq_true_eq] at hopen
    exact (hclosed w hw (hopen.1 ▸ hclient)).not_gt hopen.2
  intro a ha _
  unfold RateWindows.Within RateWindows.closes
  rw [hnone]
  exact htimes a ha

/-- One arrival: what is counted for a key goes up by one if it is a call of the key, and the calls
after it still come in the window. -/
theorem used_receive {rest : List Arrival} (h : s.Within start key (a :: rest)) :
    let next := (s.receive a.request a.time).1
    next.windows.used start key =
        s.windows.used start key + (if a.key? = some key then 1 else 0) ∧
      next.Within start key rest := by
  have hrest : s.Within start key rest := fun b hb => h b (List.mem_cons_of_mem a hb)
  dsimp only
  rw [receive_fst]
  rcases hkey : a.key? with - | other
  · exact ⟨rfl, hrest⟩
  · by_cases heq : other = key
    · subst heq
      obtain ⟨hused, hcloses⟩ := RateWindows.used_hit (h a List.mem_cons_self hkey)
      rw [if_pos rfl]
      exact ⟨hused, fun b hb hcall => ⟨(hrest b hb hcall).1, (hrest b hb hcall).2.trans_le hcloses⟩⟩
    · obtain ⟨hused, hcloses⟩ :
          (s.windows.hit a.time other s.platform.quota).used start key = s.windows.used start key ∧
            (s.windows.hit a.time other s.platform.quota).closes start key s.platform.quota =
              s.windows.closes start key s.platform.quota := RateWindows.used_hit_of_ne heq
      rw [if_neg fun hsome => heq (Option.some.inj hsome)]
      refine ⟨hused, fun b hb hcall => ?_⟩
      unfold RateWindows.Within
      dsimp only
      rw [hcloses]
      exact hrest b hb hcall

/-- The calls of a key in a sequence, one arrival after the other. -/
theorem count_keys_cons (a : Arrival) (rest : List Arrival) (key : RateKey) :
    (Arrival.keys (a :: rest)).count key =
      (Arrival.keys rest).count key + if a.key? = some key then 1 else 0 := by
  unfold Arrival.keys
  rcases hkey : a.key? with - | other
  · rw [List.filterMap_cons_none hkey]
    rfl
  · rw [List.filterMap_cons_some hkey, List.count_cons]
    simp

/-- After a sequence of arrivals, each call of a key counts. -/
theorem used_receiveAll (h : s.Within start key arrivals) :
    (s.receiveAll arrivals).windows.used start key =
      s.windows.used start key + (Arrival.keys arrivals).count key := by
  induction arrivals generalizing s with
  | nil => rfl
  | cons a rest ih =>
    obtain ⟨hused, hrest⟩ := used_receive h
    have hall := ih hrest
    rw [hused] at hall
    rw [count_keys_cons, Nat.add_comm _ (ite _ _ _), ← Nat.add_assoc]
    exact hall

/-- Calls that come in a window after others still do once the others have been taken in. -/
theorem within_receiveAll {before after : List Arrival}
    (h : s.Within start key (before ++ after)) :
    (s.receiveAll before).Within start key after := by
  induction before generalizing s with
  | nil => exact h
  | cons a rest ih => exact ih (used_receive h).2

/-- A call gets past the limit as long as the quota of its key is not used up. -/
theorem passes_iff (hkey : a.key? = some key) (h : s.windows.Within start key s.platform.quota a.time) :
    s.passes a = true ↔ s.windows.used start key < s.platform.quota.limit := by
  unfold passes
  rw [hkey]
  exact RateWindows.admits_iff h

/-- Of the calls of a key in its window, as many get past the limit as the quota has left. -/
theorem count_passed (h : s.Within start key arrivals) :
    (Arrival.keys (s.passed arrivals)).count key =
      min ((Arrival.keys arrivals).count key) (s.platform.quota.limit - s.windows.used start key) := by
  induction arrivals generalizing s with
  | nil => exact (Nat.zero_min _).symm
  | cons a rest ih =>
    obtain ⟨hused, hrest⟩ := used_receive h
    have hlater := ih hrest
    rw [hused, platform_receive] at hlater
    unfold passed
    dsimp only
    rw [count_keys_cons]
    by_cases hkey : a.key? = some key
    · have hpasses := passes_iff hkey (h a List.mem_cons_self hkey)
      rw [if_pos hkey] at hlater ⊢
      split
      · next hpass =>
        have hlt := hpasses.mp hpass
        rw [count_keys_cons, if_pos hkey, hlater]
        omega
      · next hno =>
        have hge : ¬s.windows.used start key < s.platform.quota.limit := fun hlt => hno (hpasses.mpr hlt)
        rw [hlater]
        omega
    · rw [if_neg hkey] at hlater ⊢
      split
      · rw [count_keys_cons, if_neg hkey]
        exact hlater
      · exact hlater

theorem passed_sublist (s : Service) (arrivals : List Arrival) :
    (s.passed arrivals).Sublist arrivals := by
  induction arrivals generalizing s with
  | nil => exact .slnil
  | cons a rest ih =>
    unfold passed
    dsimp only
    split
    · exact (ih _).cons_cons a
    · exact (ih _).cons a

/-! ### Clients -/

/-- The keys of the calls that come from a client. -/
def clientKeys (client : Text) (arrivals : List Arrival) : List RateKey :=
  (Arrival.keys arrivals).filter (·.client = client)

/-- All that gets past the limit for a client, path by path. -/
theorem length_passed_le {client : Text}
    (h : ∀ key, key.client = client → s.Within start key arrivals) :
    (clientKeys client (s.passed arrivals)).length ≤
      s.platform.quota.limit * (clientKeys client arrivals).toFinset.card := by
  set keys := clientKeys client (s.passed arrivals)
  have hsubset : keys.toFinset ⊆ (clientKeys client arrivals).toFinset := by
    intro key hkey
    have hsub := ((passed_sublist s arrivals).filterMap Arrival.key?).filter
      (·.client = client)
    exact List.mem_toFinset.mpr (hsub.mem (List.mem_toFinset.mp hkey))
  have hcount : ∀ key ∈ keys.toFinset, keys.count key ≤ s.platform.quota.limit := by
    intro key hkey
    have hclient : key.client = client :=
      of_decide_eq_true (List.mem_filter.mp (List.mem_toFinset.mp hkey)).2
    calc keys.count key
        = (Arrival.keys (s.passed arrivals)).count key :=
          List.count_filter (decide_eq_true hclient)
      _ = min ((Arrival.keys arrivals).count key) (s.platform.quota.limit - s.windows.used start key) :=
          count_passed (h key hclient)
      _ ≤ s.platform.quota.limit := (Nat.min_le_right _ _).trans (Nat.sub_le _ _)
  calc keys.length
      = ∑ key ∈ keys.toFinset, keys.count key := (List.sum_toFinset_count_eq_length keys).symm
    _ ≤ keys.toFinset.card * s.platform.quota.limit := Finset.sum_le_card_nsmul _ _ _ hcount
    _ ≤ (clientKeys client arrivals).toFinset.card * s.platform.quota.limit :=
        Nat.mul_le_mul_right _ (Finset.card_le_card hsubset)
    _ = s.platform.quota.limit * (clientKeys client arrivals).toFinset.card := Nat.mul_comm _ _

/-- A sequence of arrivals in which the calls of a client on each path come within one window. Of
the calls on a path as many get past the limit as the quota has left, and these are the first of
them; every other one is refused. So for the client there is the limit of each path that it asks
on. -/
theorem limit_of_receiveAll (s : Service) (start : Rat) (client : Text)
    (arrivals : List Arrival)
    (h : ∀ key, key.client = client → s.Within start key arrivals) :
    (∀ key, key.client = client → (Arrival.keys (s.passed arrivals)).count key =
      min ((Arrival.keys arrivals).count key) (s.platform.quota.limit - s.windows.used start key)) ∧
    (clientKeys client (s.passed arrivals)).length ≤
      s.platform.quota.limit * (clientKeys client arrivals).toFinset.card ∧
    ∀ before a after key, arrivals = before ++ a :: after → a.key? = some key →
      key.client = client →
      let t := s.receiveAll before
      (t.passes a = true ↔
        s.windows.used start key + (Arrival.keys before).count key < s.platform.quota.limit) ∧
      (t.passes a = true → ∃ host q, a.request.call? = some (host, q) ∧
        (t.receive a.request a.time).2 = s.pending a.request (.certificate host q)) ∧
      (t.passes a = false → Refused (t.receive a.request a.time).2) := by
  refine ⟨fun key hclient => count_passed (h key hclient), length_passed_le h, ?_⟩
  rintro before a after key rfl hkey hclient
  dsimp only
  have hbefore : s.Within start key before := fun b hb =>
    h key hclient b (List.mem_append_left _ hb)
  have hcall := within_receiveAll (h key hclient) a List.mem_cons_self hkey
  obtain ⟨⟨host, q⟩, hq, -⟩ := Option.map_eq_some_iff.mp hkey
  obtain ⟨-, hpass, hrefused⟩ := receive_of_call (s.receiveAll before) hq
  refine ⟨?_, fun hpasses => ⟨host, q, hq, (hpass hpasses).trans ?_⟩, hrefused⟩
  · rw [passes_iff hkey hcall, used_receiveAll hbefore, platform_receiveAll]
  · -- what follows on a call does not depend on the calls counted
    obtain ⟨windows, hwindows⟩ := exists_receiveAll_eq s before
    rw [hwindows, pending_windows]

/-! ### One path and two -/

namespace Sample

open Certificate.Sample (subject)
open Issue.Sample (circumstances issued)

/-- A group with all hosts of a domain. -/
def domain : HostGroup :=
  { Issue.Sample.group plain with hosts := [("*.example.org", plain)] }

/-- The service with this group. -/
def wide : Service := { service plain with config := ⟨[domain]⟩ }

/-- The request for a certificate at one host, and at another one of the domain. -/
def call (time : Rat) : Arrival := ⟨request, time⟩

def otherCall (time : Rat) : Arrival :=
  ⟨{ request with target := "/node.example.org/certificate" }, time⟩

/-- As many calls on one path as the quota admits, and one on another. -/
def rush : List Arrival := List.replicate 30 (call 0) ++ [otherCall 0]

/-- The service after the calls on the one path. -/
def rushed : Service := wide.receiveAll (List.replicate 30 (call 0))

theorem key?_call (time : Rat) :
    (call time).key? = some ⟨"192.0.2.1", "/login.example.org/certificate"⟩ :=
  (by decide +kernel : (call 0).key? = some ⟨"192.0.2.1", "/login.example.org/certificate"⟩)

theorem key?_otherCall (time : Rat) :
    (otherCall time).key? = some ⟨"192.0.2.1", "/node.example.org/certificate"⟩ :=
  (by decide +kernel : (otherCall 0).key? = some ⟨"192.0.2.1", "/node.example.org/certificate"⟩)

theorem of_mem_rush {a : Arrival} (h : a ∈ rush) :
    a.key?.map (·.client) = some request.client ∧ a.time = 0 := by
  rcases List.mem_append.mp h with h | h
  · obtain rfl := List.eq_of_mem_replicate h
    exact ⟨congrArg _ (key?_call 0), rfl⟩
  · obtain rfl := List.mem_singleton.mp h
    exact ⟨congrArg _ (key?_otherCall 0), rfl⟩

theorem admitted_otherCall : rushed.Admitted (otherCall 0).request 0 "node.example.org"
    ⟨Bytes.toLatin subject.line, "t"⟩ where
  route := by decide +kernel
  method := rfl
  body := (admitted plain).body
  admits := by decide +kernel

theorem grant_otherCall : Grant rushed.platform rushed.config rushed.settings "node.example.org"
    ⟨Bytes.toLatin subject.line, "t"⟩ answer circumstances subject
    (domain.info "*.example.org" plain) (outgoing plain "Bearer t") issued := by
  obtain ⟨windows, hrushed⟩ := exists_receiveAll_eq wide (List.replicate 30 (call 0))
  have hresolves : wide.config.resolve? "node.example.org" =
      some (domain.info "*.example.org" plain) := by decide +kernel
  rw [rushed, hrushed]
  exact {
    imports := grant_plain.imports
    resolves := by rw [Config.resolve, hresolves]
    asks := grant_plain.asks
    allows := allows _
    issues := Issue.Sample.issueAt_eq plain }

/-- The service with a quota of one call a minute. -/
def strict : Service := { service plain with platform := { platform with quota := ⟨1, 60⟩ } }

/-- Three calls within a minute, the first two on one path. -/
def calls : List Arrival := [call 0, call 59, otherCall 59]

theorem within_calls (key : RateKey) (h : key.client = request.client) :
    strict.Within 0 key calls := by
  refine within_of_closed (fun w hw => by cases hw) (fun a ha => ?_) h
  simp only [calls, List.mem_cons, List.not_mem_nil, or_false] at ha
  rcases ha with rfl | rfl | rfl <;> decide +kernel

end Sample

/-- With a quota of one call a minute, the second call on a path is refused, and that on another
path is not. -/
theorem limit_of_calls :
    (∀ key, key.client = Sample.request.client → Sample.strict.Within 0 key Sample.calls) ∧
    Refused ((Sample.strict.receiveAll [Sample.call 0]).receive Sample.request 59).2 ∧
    (clientKeys Sample.request.client (Sample.strict.passed Sample.calls)).length ≤ 2 := by
  obtain ⟨-, hlength, hcalls⟩ :=
    limit_of_receiveAll Sample.strict 0 Sample.request.client Sample.calls Sample.within_calls
  obtain ⟨hpasses, -, hrefused⟩ := hcalls [Sample.call 0] (Sample.call 59) [Sample.otherCall 59] _ rfl
    (Sample.key?_call 59) rfl
  refine ⟨Sample.within_calls, hrefused (Bool.eq_false_iff.mpr fun hpass => ?_), ?_⟩
  · -- the one call that the quota admits was the first
    have hused := hpasses.mp hpass
    revert hused
    decide +kernel
  · refine hlength.trans ?_
    decide +kernel

/-- A client at whose calls no window is open gets a certificate with a call more than the quota
admits, all of them at one point of time. -/
theorem limit_exceeded :
    Sample.wide.windows = [] ∧
    (∀ a ∈ Sample.rush, a.key?.map (·.client) = some Sample.request.client ∧ a.time = 0) ∧
    (clientKeys Sample.request.client (Sample.wide.passed Sample.rush)).length =
      Sample.wide.platform.quota.limit + 1 ∧
    (Sample.rushed.receive (Sample.otherCall 0).request 0).2.requests =
      [Sample.outgoing Sample.plain "Bearer t"] ∧
    (Sample.rushed.outcome (Sample.otherCall 0).request 0 Sample.answer
      Issue.Sample.circumstances).response.status = 201 := by
  refine ⟨rfl, fun a ha => Sample.of_mem_rush ha, ?_, ?_, ?_⟩
  · decide +kernel
  · exact (response_of_grant Sample.admitted_otherCall Sample.grant_otherCall).2
  · exact status_eq_created_iff.mpr
      ⟨_, _, _, _, _, _, Sample.admitted_otherCall, Sample.grant_otherCall⟩

end Service

end SshAuthority
