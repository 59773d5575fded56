/-
SshAuthority/Proofs/Service/Isolation.lean

Requests in flight while the configuration changes.

The service and the handlers that have begun are one system. It moves by events: a request
arrives, a handler begins, its question is answered, its certificate is signed, or the
configuration is loaded anew from whatever the files then hold. Events come in any order,
and any number of handlers may wait at a time. A task remembers, for the statement only,
what its handler was given: the configuration at its beginning, the reply, and the
circumstances of signing.

What carries the proof is that the segments that a handler has left, run under the service
as it was when the handler began, come to what the request alone comes to (`Task.Sound`).
The segments after the first read nothing of the service that a reload can change.

Main results: `sound_of_step` and, by induction, `sound_of_run`; `isolation_of_run`, with
what a run and a reload do to the configuration.
-/
import SshAuthority.Proofs.Service.Handling
import SshAuthority.Proofs.Service.Issuance

namespace SshAuthority

/-! ### Reloading -/

namespace Service

/-- The configuration that files hold, loaded with no key loaded before. -/
def loaded? (settings : Settings) (files : FileTree) : Option Config :=
  ((Config.load files settings.configPath).run.run {}).1.toOption

/-- A reload puts the configuration that the files hold in force, if they hold one, and says
so; else it leaves the service as it was. -/
theorem reload_cases (s : Service) (files : FileTree) :
    (∃ config, loaded? s.settings files = some config ∧ (s.reload files).1 = { s with config } ∧
      (s.reload files).2.1 = .ok true) ∨
    (loaded? s.settings files = none ∧ (s.reload files).1 = s ∧ (s.reload files).2.1 ≠ .ok true) := by
  unfold reload loaded?
  rcases (Config.load files s.settings.configPath).run.run {} with ⟨f | config, loading⟩
  · refine .inr ⟨rfl, ?_⟩
    cases f
    all_goals exact ⟨rfl, fun h => nomatch h⟩
  · exact .inl ⟨config, rfl, rfl, rfl⟩

/-- A service that has started has the configuration that the files hold in force, and has
counted no calls. -/
theorem of_start {platform : Platform} {env : Environment} {files : FileTree} {s : Service}
    {records : List Log.Record} (h : start platform env files = .ok (s, records)) :
    loaded? s.settings files = some s.config ∧ s.windows = [] := by
  obtain ⟨⟨settings, log⟩, -, h⟩ := Except.bind_eq_ok_iff.mp h
  obtain ⟨config, hloaded, h⟩ := Except.bind_eq_ok_iff.mp h
  obtain ⟨rfl, -⟩ := Prod.mk.inj (Except.pure_eq_ok_iff.mp h)
  exact ⟨Except.toOption_eq_some_iff.mpr hloaded, rfl⟩

end Service

/-! ### The system -/

/-- A request that was admitted, and what its handler has done and was given. -/
structure Task where
  request : Request
  arrival : Rat
  call : Service.Call
  stage : Service.Stage
  /-- The configuration when the handler began. -/
  snapshot : Option Config := none
  /-- All that the handler has asked. -/
  asked : List Outgoing := []
  reply : Option Reply := none
  circumstances : Option Issue.Circumstances := none

/-- The service with the tasks that it was given. -/
structure System where
  service : Service
  tasks : List Task

/-- What happens to the system; tasks are named by their place. -/
inductive Event where
  | arrive (r : Request) (now : Rat)
  | begin (i : Nat)
  | answer (i : Nat) (reply : Reply)
  | sign (i : Nat) (circumstances : Issue.Circumstances)
  | reload (files : FileTree)

/-- The configuration that an event loads: a reload, if the files hold one. -/
def Event.loaded? (settings : Settings) : Event → Option Config
  | .reload files => Service.loaded? settings files
  | _ => none

/-- The task of a call. -/
def Task.ofCall (r : Request) (now : Rat) (call : Service.Call) : Task :=
  { request := r, arrival := now, call, stage := .started call }

/-- The task at another stage, where it may ask. -/
def Task.moveTo (t : Task) (stage : Service.Stage) : Task :=
  { t with stage, asked := t.asked ++ stage.asks }

/-- After the first segment. -/
def Task.begin (t : Task) (s : Service) : Task :=
  { t.moveTo (t.stage.begin s t.request) with snapshot := some s.config }

/-- After the segment of a reply. -/
def Task.resume (t : Task) (s : Service) (reply : Reply) : Task :=
  { t.moveTo (t.stage.resume s t.request reply) with reply := some reply }

/-- After the segment of a signature. -/
def Task.sign (t : Task) (s : Service) (circumstances : Issue.Circumstances) : Task :=
  { t.moveTo (t.stage.sign s t.request circumstances) with circumstances := some circumstances }

namespace System

variable {sys sys' : System} {e : Event}

/-- The system with a task replaced. -/
def put (sys : System) (i : Nat) (t : Task) : System := { sys with tasks := sys.tasks.set i t }

/-- The system after an event, if the event can happen: a handler begins once, is answered when
it asks, and is signed for when it waits for that. -/
def step (sys : System) : Event → Option System
  | .arrive r now =>
    let (service, call) := sys.service.accept r now
    some ⟨service, sys.tasks ++ (call.map (Task.ofCall r now)).toList⟩
  | .begin i => do
    let t ← sys.tasks[i]?
    match t.stage with
    | .started _ => some (sys.put i (t.begin sys.service))
    | _ => none
  | .answer i reply => do
    let t ← sys.tasks[i]?
    match t.stage with
    | .askingHost _ _ _ | .askingStatus _ _ _ => some (sys.put i (t.resume sys.service reply))
    | _ => none
  | .sign i circumstances => do
    let t ← sys.tasks[i]?
    match t.stage with
    | .signing _ _ => some (sys.put i (t.sign sys.service circumstances))
    | _ => none
  | .reload files => some { sys with service := (sys.service.reload files).1 }

/-- The system after events, if each can happen in its turn. -/
def run (sys : System) : List Event → Option System
  | [] => some sys
  | e :: events => (sys.step e).bind (·.run events)

/-- What an event can do, and when. -/
theorem step_cases (h : sys.step e = some sys') :
    (∃ r now, e = .arrive r now ∧ sys' = ⟨(sys.service.accept r now).1,
      sys.tasks ++ ((sys.service.accept r now).2.map (Task.ofCall r now)).toList⟩) ∨
    (∃ i t call, e = .begin i ∧ sys.tasks[i]? = some t ∧ t.stage = .started call ∧
      sys' = sys.put i (t.begin sys.service)) ∨
    (∃ i reply t out, e = .answer i reply ∧ sys.tasks[i]? = some t ∧ t.stage.asks = [out] ∧
      sys' = sys.put i (t.resume sys.service reply)) ∨
    (∃ i circumstances t frame records, e = .sign i circumstances ∧ sys.tasks[i]? = some t ∧
      t.stage = .signing frame records ∧ sys' = sys.put i (t.sign sys.service circumstances)) ∨
    (∃ files, e = .reload files ∧ sys' = { sys with service := (sys.service.reload files).1 }) := by
  cases e with
  | arrive r now => exact .inl ⟨r, now, rfl, (Option.some.inj h).symm⟩
  | begin i =>
    obtain ⟨t, ht, h⟩ := Option.bind_eq_some_iff.mp h
    split at h
    · next call hstage =>
      exact .inr (.inl ⟨i, t, call, rfl, ht, hstage, (Option.some.inj h).symm⟩)
    · cases h
  | answer i reply =>
    obtain ⟨t, ht, h⟩ := Option.bind_eq_some_iff.mp h
    refine .inr (.inr (.inl ?_))
    split at h
    · next info out next hstage =>
      exact ⟨i, reply, t, out, rfl, ht, by rw [hstage]; rfl, (Option.some.inj h).symm⟩
    · next frame out next hstage =>
      exact ⟨i, reply, t, out, rfl, ht, by rw [hstage]; rfl, (Option.some.inj h).symm⟩
    · cases h
  | sign i circumstances =>
    obtain ⟨t, ht, h⟩ := Option.bind_eq_some_iff.mp h
    split at h
    · next frame records hstage =>
      exact .inr (.inr (.inr (.inl
        ⟨i, circumstances, t, frame, records, rfl, ht, hstage, (Option.some.inj h).symm⟩)))
    · cases h
  | reload files => exact .inr (.inr (.inr (.inr ⟨files, rfl, (Option.some.inj h).symm⟩)))

end System

/-! ### What a task comes to -/

/-- The service with a configuration, to which no request has come. -/
def Service.alone (s : Service) (config : Config) : Service := { s with config, windows := [] }

/-- Services that were started in the same way and stand on the same. -/
structure Service.Kin (s s' : Service) : Prop where
  platform : s.platform = s'.platform
  settings : s.settings = s'.settings
  log : s.log = s'.log

/-- Replies and circumstances are those that the handler was given, as far as it was given any. -/
def Task.Fits (t : Task) (answer : Outgoing → Reply) (circumstances : Issue.Circumstances) : Prop :=
  (∀ reply, t.reply = some reply → ∀ out ∈ t.asked, answer out = reply) ∧
    ∀ c, t.circumstances = some c → circumstances = c

/-- A handler that was given nothing yet can be given anything. -/
theorem Task.Fits.of_none {t : Task} {answer : Outgoing → Reply}
    {circumstances : Issue.Circumstances} (hreply : t.reply = none)
    (hcircumstances : t.circumstances = none) : t.Fits answer circumstances := by
  refine ⟨fun reply h => ?_, fun c h => ?_⟩
  · rw [hreply] at h
    cases h
  · rw [hcircumstances] at h
    cases h

/-- A task of a service: its request is one for the call; until its handler begins nothing has
happened; and then what is left of it comes to what follows on the call alone, under the
configuration that the handler has begun with. -/
structure Task.Sound (s : Service) (t : Task) : Prop where
  admitted : ∀ s' : Service, s'.platform = s.platform → s'.windows = [] →
    (s'.accept t.request t.arrival).2 = some t.call
  unbegun : t.stage.isStarted = true → t = .ofCall t.request t.arrival t.call
  begun : t.stage.isStarted = false → ∃ config, t.snapshot = some config ∧
    t.asked = ((s.alone config).pending t.request t.call).requests ∧
    ∀ answer circumstances, t.Fits answer circumstances →
      t.stage.completed (s.alone config) t.request answer circumstances =
        .finished (((s.alone config).pending t.request t.call).run answer circumstances)
  asking : t.stage.asks = [] ∨ t.stage.asks = t.asked ∧ t.reply = none
  unsigned : t.circumstances = none ∨ ∃ outcome, t.stage = .finished outcome

namespace Task.Sound

variable {s s' : Service} {t : Task}

/-- A handler that was called is sound. -/
theorem ofCall {r : Request} {now : Rat} {call : Service.Call} (hkin : s'.Kin s)
    (h : (s'.accept r now).2 = some call) : (Task.ofCall r now call).Sound s where
  admitted s'' hplatform hwindows :=
    Service.accept_of_windows_nil h (by rw [hplatform, hkin.platform]) hwindows
  unbegun _ := rfl
  begun h := by cases h
  asking := .inl rfl
  unsigned := .inl rfl

/-- The first segment takes the configuration that is in force. -/
theorem begin {call : Service.Call} (h : t.Sound s) (hkin : s'.Kin s)
    (hstage : t.stage = .started call) : (t.begin s').Sound s := by
  -- nothing has happened to the task yet, so its first segment is that of the call
  have ht : t = .ofCall t.request t.arrival t.call := h.unbegun (by rw [hstage]; rfl)
  have hnext : (t.begin s').stage = (s.alone s'.config).begin t.request t.call := by
    rw [ht]
    show s'.begin t.request t.call = (s.alone s'.config).begin t.request t.call
    have hplatform : s'.platform = (s.alone s'.config).platform := hkin.platform
    have hsettings : s'.settings = (s.alone s'.config).settings := hkin.settings
    have hlog : s'.log = (s.alone s'.config).log := hkin.log
    exact Service.begin_congr hplatform hsettings hlog rfl t.call
  have hbegun : (t.begin s').stage.isStarted = false := by
    rw [hnext]
    exact Service.isStarted_begin t.call
  have hasked : (t.begin s').asked = (t.begin s').stage.asks := by
    rw [ht]
    exact List.nil_append _
  have hreply : t.reply = none := by rw [ht]; rfl
  have hcircumstances : t.circumstances = none := by rw [ht]; rfl
  refine ⟨h.admitted, fun h => ?_, fun _ => ⟨s'.config, rfl, ?_, ?_⟩, .inr ⟨hasked.symm, hreply⟩,
    .inl hcircumstances⟩
  · rw [hbegun] at h
    cases h
  · rw [hasked, hnext]
    exact Service.asks_begin t.call
  · intro answer circumstances _
    rw [Service.Stage.completed_of_begun hbegun, hnext]
    exact Service.completed_started t.call

/-- The segment of a reply leads on to what the request comes to with this reply. -/
theorem resume {out : Outgoing} {reply : Reply} (h : t.Sound s) (hkin : s'.Kin s)
    (hasks : t.stage.asks = [out]) : (t.resume s' reply).Sound s := by
  obtain ⟨hbegun', hasks'⟩ : (t.stage.resume s' t.request reply).isStarted = false ∧
      (t.stage.resume s' t.request reply).asks = [] :=
    Service.Stage.resume_of_asks hasks
  have hbegun : t.stage.isStarted = false := by
    rcases hstage : t.stage with call | - | - | - | -
    · rw [hstage] at hasks
      cases hasks
    all_goals rfl
  obtain ⟨hasked, hreply⟩ : t.stage.asks = t.asked ∧ t.reply = none := by
    refine h.asking.resolve_left fun hnil => ?_
    rw [hasks] at hnil
    cases hnil
  have hunsigned : t.circumstances = none := by
    refine h.unsigned.resolve_right fun ⟨outcome, hstage⟩ => ?_
    rw [hstage] at hasks
    cases hasks
  have hasked' : (t.resume s' reply).asked = t.asked := by
    show t.asked ++ (t.stage.resume s' t.request reply).asks = t.asked
    rw [hasks', List.append_nil]
  refine ⟨h.admitted, fun h => ?_, fun _ => ?_, .inl hasks', .inl hunsigned⟩
  · have : false = true := hbegun'.symm.trans h
    cases this
  · obtain ⟨config, hsnapshot, hrequests, hcompleted⟩ := h.begun hbegun
    refine ⟨config, hsnapshot, hasked'.trans hrequests, fun answer circumstances hfits => ?_⟩
    -- the reply is the answer to the question, so the segment is the one that was left
    have hanswer : answer out = reply :=
      hfits.1 reply rfl out (by rw [hasked', ← hasked, hasks]; exact List.mem_singleton.mpr rfl)
    have hleft := hcompleted answer circumstances (Fits.of_none hreply hunsigned)
    have hlog : s'.log = (s.alone config).log := hkin.log
    rw [Service.Stage.completed_of_begun hbegun, Service.Stage.answered_of_asks hasks, hanswer,
      ← Service.Stage.resume_congr hlog] at hleft
    show (t.stage.resume s' t.request reply).completed (s.alone config) t.request answer
      circumstances = _
    rw [Service.Stage.completed_of_begun hbegun', Service.Stage.answered_of_asks_nil hasks']
    exact hleft

/-- The segment of a signature ends with what the request comes to. -/
theorem sign {frame : Service.Frame} {records : List Log.Record} {c : Issue.Circumstances}
    (h : t.Sound s) (hkin : s'.Kin s) (hstage : t.stage = .signing frame records) :
    (t.sign s' c).Sound s := by
  have hbegun : t.stage.isStarted = false := by rw [hstage]; rfl
  have hasks : t.stage.asks = [] := by rw [hstage]; rfl
  obtain ⟨outcome, hfinished⟩ :
      ∃ outcome, t.stage.sign s' t.request c = .finished outcome := by
    rw [hstage]
    exact ⟨_, rfl⟩
  have hstage' : (t.sign s' c).stage = .finished outcome := hfinished
  have hasked' : (t.sign s' c).asked = t.asked := by
    show t.asked ++ (t.stage.sign s' t.request c).asks = t.asked
    rw [hfinished]
    exact List.append_nil _
  refine ⟨h.admitted, fun h => ?_, fun _ => ?_, .inl (by rw [hstage']; rfl),
    .inr ⟨outcome, hstage'⟩⟩
  · rw [hstage'] at h
    cases h
  · obtain ⟨config, hsnapshot, hrequests, hcompleted⟩ := h.begun hbegun
    refine ⟨config, hsnapshot, hasked'.trans hrequests, fun answer circumstances hfits => ?_⟩
    -- nothing was signed before, so the given circumstances are the only ones
    have hc : circumstances = c := hfits.2 c rfl
    have hunsigned : t.circumstances = none := by
      refine h.unsigned.resolve_right fun ⟨outcome, hfinished⟩ => ?_
      rw [hstage] at hfinished
      cases hfinished
    have hfits' : t.Fits answer circumstances := by
      refine ⟨fun reply hreply out hout => hfits.1 reply hreply out ?_, fun c h => ?_⟩
      · rw [hasked']
        exact hout
      · rw [hunsigned] at h
        cases h
    have hleft := hcompleted answer circumstances hfits'
    have hplatform : s'.platform = (s.alone config).platform := hkin.platform
    have hlog : s'.log = (s.alone config).log := hkin.log
    rw [Service.Stage.completed_of_begun hbegun, Service.Stage.answered_of_asks_nil hasks, hc,
      ← Service.Stage.sign_congr hplatform hlog, hfinished] at hleft
    show (t.sign s' c).stage.completed (s.alone config) t.request answer circumstances = _
    rw [hstage', hc]
    exact hleft

/-- What a handler has ended with is what its request comes to alone. -/
theorem eq_of_finished {outcome : Handler.Outcome} (h : t.Sound s)
    (hstage : t.stage = .finished outcome) :
    ∃ config, t.snapshot = some config ∧
      t.asked = ((s.alone config).receive t.request t.arrival).2.requests ∧
      ∀ answer circumstances, t.Fits answer circumstances →
        outcome = ((s.alone config).receive t.request t.arrival).2.run answer circumstances := by
  obtain ⟨config, hsnapshot, hrequests, hcompleted⟩ := h.begun (by rw [hstage]; rfl)
  refine ⟨config, hsnapshot, ?_, fun answer circumstances hfits => ?_⟩
  · rw [hrequests, Service.receive_of_accept (h.admitted (s.alone config) rfl rfl)]
  · rw [Service.receive_of_accept (h.admitted (s.alone config) rfl rfl)]
    have := hcompleted answer circumstances hfits
    rw [hstage] at this
    exact Service.Stage.finished.inj this

end Task.Sound

/-! ### What a system comes to -/

namespace System

variable {s : Service} {sys sys' : System} {e : Event} {events : List Event}

/-- A system that comes from a service: the service is kin to it, and the tasks are sound. -/
structure Sound (s : Service) (sys : System) : Prop where
  kin : sys.service.Kin s
  tasks : ∀ t ∈ sys.tasks, t.Sound s

/-- A sound system stays so when a task is replaced by a sound one. -/
theorem Sound.put {i : Nat} {t : Task} (h : sys.Sound s) (ht : t.Sound s) :
    (sys.put i t).Sound s where
  kin := h.kin
  tasks t' ht' := by
    rcases List.mem_or_eq_of_mem_set ht' with hold | rfl
    · exact h.tasks t' hold
    · exact ht

/-- No event makes a task come to something else. -/
theorem sound_of_step (h : sys.Sound s) (hstep : sys.step e = some sys') : sys'.Sound s := by
  rcases step_cases hstep with ⟨r, now, -, rfl⟩ | ⟨i, t, call, -, ht, hstage, rfl⟩ |
    ⟨i, reply, t, out, -, ht, hasks, rfl⟩ | ⟨i, c, t, frame, records, -, ht, hstage, rfl⟩ |
    ⟨files, -, rfl⟩
  · refine ⟨?_, fun t ht => ?_⟩
    · obtain ⟨windows, hservice⟩ := sys.service.exists_accept_fst_eq r now
      rw [hservice]
      exact ⟨h.kin.platform, h.kin.settings, h.kin.log⟩
    · rcases List.mem_append.mp ht with hold | hnew
      · exact h.tasks t hold
      · obtain ⟨call, hcall, rfl⟩ := Option.map_eq_some_iff.mp (Option.mem_toList.mp hnew)
        exact Task.Sound.ofCall h.kin hcall
  · exact h.put ((h.tasks t (List.mem_of_getElem? ht)).begin h.kin hstage)
  · exact h.put ((h.tasks t (List.mem_of_getElem? ht)).resume h.kin hasks)
  · exact h.put ((h.tasks t (List.mem_of_getElem? ht)).sign h.kin hstage)
  · refine ⟨?_, h.tasks⟩
    rcases Service.reload_cases sys.service files with ⟨config, -, hservice, -⟩ | ⟨-, hservice, -⟩
    · show (sys.service.reload files).1.Kin s
      rw [hservice]
      exact ⟨h.kin.platform, h.kin.settings, h.kin.log⟩
    · show (sys.service.reload files).1.Kin s
      rw [hservice]
      exact h.kin

theorem sound_of_run (h : sys.Sound s) (hrun : sys.run events = some sys') : sys'.Sound s := by
  induction events generalizing sys with
  | nil =>
    cases hrun
    exact h
  | cons e events ih =>
    obtain ⟨mid, hstep, hrest⟩ := Option.bind_eq_some_iff.mp hrun
    exact ih (sound_of_step h hstep) hrest

/-! ### The configuration in force -/

/-- The configuration in force is the last that was loaded. -/
theorem config_of_step (h : sys.Sound s) (hstep : sys.step e = some sys') :
    sys'.service.config = (e.loaded? s.settings).getD sys.service.config := by
  rcases step_cases hstep with ⟨r, now, rfl, rfl⟩ | ⟨i, t, call, rfl, -, -, rfl⟩ |
    ⟨i, reply, t, out, rfl, -, -, rfl⟩ | ⟨i, c, t, frame, records, rfl, -, -, rfl⟩ |
    ⟨files, rfl, rfl⟩
  · -- an arrival changes only the calls counted
    obtain ⟨windows, hservice⟩ := sys.service.exists_accept_fst_eq r now
    show (sys.service.accept r now).1.config = sys.service.config
    rw [hservice]
  · rfl
  · rfl
  · rfl
  · show (sys.service.reload files).1.config =
      (Service.loaded? s.settings files).getD sys.service.config
    rw [← h.kin.settings]
    rcases Service.reload_cases sys.service files with
      ⟨config, hloaded, hservice, -⟩ | ⟨hloaded, hservice, -⟩
    · rw [hservice, hloaded]
      rfl
    · rw [hservice, hloaded]
      rfl

theorem config_of_run (h : sys.Sound s) (hrun : sys.run events = some sys') :
    (sys.service.config :: events.filterMap (Event.loaded? s.settings)).getLast? =
      some sys'.service.config := by
  induction events generalizing sys with
  | nil =>
    cases hrun
    rfl
  | cons e events ih =>
    obtain ⟨mid, hstep, hrest⟩ := Option.bind_eq_some_iff.mp hrun
    -- what the event loads, if anything, takes the place of the configuration before
    rw [← ih (sound_of_step h hstep) hrest, config_of_step h hstep]
    rcases hloaded : e.loaded? s.settings with - | config
    · rw [List.filterMap_cons_none hloaded]
      rfl
    · rw [List.filterMap_cons_some hloaded]
      exact List.getLast?_cons_cons

/-! ### When handlers began -/

/-- A place holds the task that was put there, or what it held before. -/
theorem tasks_put {i j : Nat} {t t' : Task} (h : (sys.put i t).tasks[j]? = some t') :
    j = i ∧ t' = t ∨ sys.tasks[j]? = some t' := by
  rcases Decidable.em (i = j) with rfl | hne
  · refine .inl ⟨rfl, ?_⟩
    obtain ⟨hlt, hget⟩ := List.getElem?_eq_some_iff.mp h
    rw [← hget]
    exact List.getElem_set_self hlt
  · refine .inr ?_
    rw [← h]
    exact (List.getElem?_set_ne hne).symm

variable {i : Nat} {t : Task} {config : Config}

/-- A task takes its configuration when its handler begins, from the service as it then is. -/
theorem snapshot_of_step (hstep : sys.step e = some sys') (ht : sys'.tasks[i]? = some t)
    (hsnapshot : t.snapshot = some config) :
    (∃ t', sys.tasks[i]? = some t' ∧ t'.snapshot = some config) ∨
      e = .begin i ∧ sys.service.config = config := by
  rcases step_cases hstep with ⟨r, now, rfl, rfl⟩ | ⟨j, t', call, rfl, ht', -, rfl⟩ |
    ⟨j, reply, t', out, rfl, ht', -, rfl⟩ | ⟨j, c, t', frame, records, rfl, ht', -, rfl⟩ |
    ⟨files, rfl, rfl⟩
  · rw [List.getElem?_append] at ht
    split at ht
    · exact .inl ⟨t, ht, hsnapshot⟩
    · have hnew := Option.mem_toList.mp (List.mem_of_getElem? ht)
      obtain ⟨call, -, rfl⟩ := Option.map_eq_some_iff.mp hnew
      cases hsnapshot
  · rcases tasks_put ht with ⟨rfl, rfl⟩ | hold
    · exact .inr ⟨rfl, Option.some.inj hsnapshot⟩
    · exact .inl ⟨t, hold, hsnapshot⟩
  · rcases tasks_put ht with ⟨rfl, rfl⟩ | hold
    · exact .inl ⟨t', ht', hsnapshot⟩
    · exact .inl ⟨t, hold, hsnapshot⟩
  · rcases tasks_put ht with ⟨rfl, rfl⟩ | hold
    · exact .inl ⟨t', ht', hsnapshot⟩
    · exact .inl ⟨t, hold, hsnapshot⟩
  · exact .inl ⟨t, ht, hsnapshot⟩

/-- A handler that has begun in the course of events has taken the configuration that was in
force at that event. -/
theorem begin_of_snapshot (hrun : sys.run events = some sys') (ht : sys'.tasks[i]? = some t)
    (hsnapshot : t.snapshot = some config) :
    (∃ t', sys.tasks[i]? = some t' ∧ t'.snapshot = some config) ∨
      ∃ front back mid, events = front ++ .begin i :: back ∧ sys.run front = some mid ∧
        mid.service.config = config := by
  induction events generalizing sys with
  | nil =>
    cases hrun
    exact .inl ⟨t, ht, hsnapshot⟩
  | cons e events ih =>
    obtain ⟨next, hstep, hrest⟩ := Option.bind_eq_some_iff.mp hrun
    -- either the task has begun in the rest of the events, or before them: then in this one
    rcases ih hrest with ⟨t', ht', hsnapshot'⟩ | ⟨front, back, mid, rfl, hfront, hconfig⟩
    · rcases snapshot_of_step hstep ht' hsnapshot' with hbefore | ⟨rfl, hconfig⟩
      · exact .inl hbefore
      · exact .inr ⟨[], events, sys, rfl, rfl, hconfig⟩
    · refine .inr ⟨e :: front, back, mid, rfl, ?_, hconfig⟩
      exact Option.bind_eq_some_iff.mpr ⟨next, hstep, hfront⟩

/-- No handler is stuck: it has ended, or its next event can happen. -/
theorem isSome_step (ht : sys.tasks[i]? = some t) :
    (∃ outcome, t.stage = .finished outcome) ∨ (sys.step (.begin i)).isSome ∨
      (∀ reply, (sys.step (.answer i reply)).isSome) ∨
      ∀ circumstances, (sys.step (.sign i circumstances)).isSome := by
  rcases hstage : t.stage with call | ⟨info, out, next⟩ | ⟨frame, out, next⟩ | ⟨frame, records⟩ |
    outcome
  · exact .inr (.inl (by simp [step, ht, hstage]))
  · exact .inr (.inr (.inl fun reply => by simp [step, ht, hstage]))
  · exact .inr (.inr (.inl fun reply => by simp [step, ht, hstage]))
  · exact .inr (.inr (.inr fun circumstances => by simp [step, ht, hstage]))
  · exact .inl ⟨outcome, rfl⟩

end System

/-- Requests do not see reloads. In every run of a service that has started, the configuration
in force is the last that could be loaded; a reload that does not say so changes nothing, and one
that does puts in force what the files hold, whatever was in force before; and a handler that has
ended has asked and answered what the service asks and answers to its request alone, under the
configuration that was in force when the handler began. -/
theorem System.isolation_of_run {platform : Platform} {env : Environment} {files : FileTree}
    {s : Service} {records : List Log.Record} {events : List Event} {sys : System}
    (hstart : Service.start platform env files = .ok (s, records))
    (hrun : (System.mk s []).run events = some sys) :
    (Service.loaded? s.settings files = some s.config ∧
      (s.config :: events.filterMap (Event.loaded? s.settings)).getLast? =
        some sys.service.config) ∧
    (∀ files', (sys.service.reload files').2.1 ≠ .ok true →
      (sys.service.reload files').1 = sys.service) ∧
    (∀ files', (sys.service.reload files').2.1 = .ok true →
      Service.loaded? s.settings files' = some (sys.service.reload files').1.config) ∧
    ∀ i t outcome, sys.tasks[i]? = some t → t.stage = .finished outcome →
      ∃ front back mid, events = front ++ .begin i :: back ∧
        (System.mk s []).run front = some mid ∧
        let alone := ((s.alone mid.service.config).receive t.request t.arrival).2
        t.asked = alone.requests ∧
        ∀ answer circumstances, t.Fits answer circumstances →
          outcome = alone.run answer circumstances := by
  -- what a step preserves holds at the start, and so after the run
  have hinit : (System.mk s []).Sound s := ⟨⟨rfl, rfl, rfl⟩, fun t ht => nomatch ht⟩
  have hsound : sys.Sound s := sound_of_run hinit hrun
  refine ⟨⟨(Service.of_start hstart).1, config_of_run hinit hrun⟩, fun files' hfail => ?_,
    fun files' hok => ?_, fun i t outcome ht hstage => ?_⟩
  · rcases Service.reload_cases sys.service files' with ⟨config, -, -, hok⟩ | ⟨-, hservice, -⟩
    · exact absurd hok hfail
    · exact hservice
  · rcases Service.reload_cases sys.service files' with
      ⟨config, hloaded, hservice, -⟩ | ⟨-, -, hfail⟩
    · rw [hservice, ← hsound.kin.settings]
      exact hloaded
    · exact absurd hok hfail
  · -- a finished handler has a snapshot, and so a moment at which it began
    obtain ⟨config, hsnapshot, hasked, halone⟩ :=
      (hsound.tasks t (List.mem_of_getElem? ht)).eq_of_finished hstage
    rcases begin_of_snapshot hrun ht hsnapshot with
      ⟨t', ht', -⟩ | ⟨front, back, mid, hevents, hfront, rfl⟩
    · cases ht'
    · exact ⟨front, back, mid, hevents, hfront, hasked, halone⟩

/-! ### A request between reloads -/

namespace Service.Sample

/-- The variables that are set, and the files with a configuration. -/
def environment : Environment := [("OINIT_CA_CONFIG", "config.ini")]

def tree (text : Text) : FileTree :=
  files.put "config.ini" (.file ((Utf8.encode? text).getD []))

/-- While the handler of a request waits for the reply, a reload fails; while it waits for the
signature, another endpoint is put in force. -/
def events : List Event :=
  [.arrive request 0, .begin 0, .reload (tree "[site"), .answer 0 (answer (outgoing plain [])),
    .reload (tree (text withUser)), .sign 0 Issue.Sample.circumstances]

/-- The outcome of a handler that has ended. -/
def ended? (t : Task) : Option Handler.Outcome :=
  match t.stage with
  | .finished outcome => some outcome
  | _ => none

theorem isSome_ended : ((Service.start platform environment (tree (text plain))).toOption.bind fun s =>
    ((System.mk s.1 []).run events).bind fun sys => sys.tasks[0]?.bind ended?).isSome = true := by
  decide +kernel

end Service.Sample

theorem System.isolation_sample :
    ∃ s records sys t outcome,
      Service.start Service.Sample.platform Service.Sample.environment (Service.Sample.tree
        (Service.Sample.text Service.Sample.plain)) = .ok (s, records) ∧
      (System.mk s []).run Service.Sample.events = some sys ∧
      sys.tasks[0]? = some t ∧ t.stage = .finished outcome ∧
      ∃ front back mid, Service.Sample.events = front ++ .begin 0 :: back ∧
        (System.mk s []).run front = some mid ∧
        let alone := ((s.alone mid.service.config).receive t.request t.arrival).2
        t.asked = alone.requests ∧
        ∀ answer circumstances, t.Fits answer circumstances →
          outcome = alone.run answer circumstances := by
  obtain ⟨outcome, h⟩ := Option.isSome_iff_exists.mp Service.Sample.isSome_ended
  obtain ⟨⟨s, records⟩, hstart, h⟩ := Option.bind_eq_some_iff.mp h
  obtain ⟨sys, hrun, h⟩ := Option.bind_eq_some_iff.mp h
  obtain ⟨t, ht, h⟩ := Option.bind_eq_some_iff.mp h
  have hstart := Except.toOption_eq_some_iff.mp hstart
  have hstage : t.stage = .finished outcome := by
    unfold Service.Sample.ended? at h
    split at h
    · next hstage =>
      cases h
      exact hstage
    · cases h
  exact ⟨s, records, sys, t, outcome, hstart, hrun, ht, hstage,
    (isolation_of_run hstart hrun).2.2.2 0 t outcome ht hstage⟩

end SshAuthority
