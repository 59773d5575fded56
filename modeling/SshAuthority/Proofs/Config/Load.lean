/-
SshAuthority/Proofs/Config/Load.lean

What holds of every configuration that is loaded.

Loading reads and extends a state, but what a group is like does not depend on it. So a
step of loading is described by what it yields whenever it yields something (`Yields`),
from any state; the description of a step follows from those of its parts.

Main result: the groups of a configuration are sound (`sound_of_parse`): in each pair the
halves belong together, and no endpoint ends in a slash.
-/
import SshAuthority.Config.Load
import SshAuthority.Proofs.Text.Blank

namespace SshAuthority

namespace Load

variable {α β : Type} {P : α → Prop} {Q : β → Prop}

/-! ### What steps yield -/

/-- The run of two steps is that of the second from where the first has ended, if it has. -/
theorem run_bind (m : Load α) (next : α → Load β) (s : Loading) :
    (m >>= next).run.run s =
      match m.run.run s with
      | (.ok a, s') => (next a).run.run s'
      | (.error f, s') => (.error f, s') := by
  show (match m.run.run s with | (x, s') => (ExceptT.bindCont next x).run s') = _
  rcases m.run.run s with ⟨f | a, s'⟩ <;> rfl

/-- Whatever the step yields, from whatever state, is so. -/
def Yields (m : Load α) (P : α → Prop) : Prop := ∀ s a, (m.run.run s).1 = .ok a → P a

namespace Yields

theorem pure {a : α} (h : P a) : Yields (pure a : Load α) P := by
  intro s b hb
  cases hb
  exact h

theorem throw (f : Failure) : Yields (throw f : Load α) P := by
  intro s a h
  cases h

/-- A computation without state, as a step. -/
theorem lift {x : Except Failure α} (h : ∀ a, x = .ok a → P a) : Yields (liftM x : Load α) P := by
  intro s a ha
  exact h a ha

/-- Of any step something is known of what it yields, at least that it is something. -/
theorem trivial (m : Load α) : Yields m fun _ => True := fun _ _ _ => True.intro

theorem bind {m : Load α} {next : α → Load β} (hm : Yields m P)
    (hnext : ∀ a, P a → Yields (next a) Q) : Yields (m >>= next) Q := by
  intro s b hb
  rw [run_bind] at hb
  rcases h : m.run.run s with ⟨f | a, s'⟩
  · rw [h] at hb
    cases hb
  · rw [h] at hb
    exact hnext a (hm s a (by rw [h])) s' b hb

/-- What is so of each result is so of all. -/
theorem mapM {next : α → Load β} (h : ∀ a, Yields (next a) Q) (l : List α) :
    Yields (l.mapM next) fun bs => ∀ b ∈ bs, Q b := by
  induction l with
  | nil => exact .pure fun b hb => absurd hb List.not_mem_nil
  | cons a l ih =>
    rw [List.mapM_cons]
    refine (h a).bind fun b hb => ih.bind fun bs hbs => .pure fun c hc => ?_
    rcases List.mem_cons.mp hc with rfl | hc
    · exact hb
    · exact hbs c hc

end Yields

/-- The halves of a pair belong together. -/
theorem pair_yields (files : FileTree) (privatePath publicPath : Text) :
    Yields (pair files privatePath publicPath)
      fun p => p.privateKey.value.blob = p.publicKey.value.blob := by
  refine (Yields.trivial _).bind fun privateKey _ => (Yields.trivial _).bind fun publicKey _ => ?_
  split
  · next h => exact .pure h
  · exact .throw _

end Load

/-- A group as it comes of a configuration. -/
structure HostGroup.Sound (g : HostGroup) : Prop where
  hostKeys : g.hostKeys.privateKey.value.blob = g.hostKeys.publicKey.value.blob
  userKeys : g.userKeys.privateKey.value.blob = g.userKeys.publicKey.value.blob
  endpoints : ∀ e ∈ g.hosts, Text.dropRight (· = 0x2F) e.2 = e.2

namespace Config

/-! ### Groups -/

/-- An endpoint does not end in a slash. -/
theorem dropRight_of_endpoint? {value url : Text} (h : endpoint? value = some url) :
    Text.dropRight (· = 0x2F) url = url := by
  unfold endpoint? at h
  dsimp only at h
  split at h
  · cases h
    exact Text.dropRight_dropRight _ _
  · cases h

/-- Each endpoint is that of an option which is no setting. -/
theorem exists_option_of_endpoints {group : Text} {options hosts : Table Text}
    (h : endpoints group options = .ok hosts) :
    ∀ e ∈ hosts, e.1 ∉ settingNames ∧
      ∃ value, (e.1, value) ∈ options ∧ endpoint? value = some e.2 := by
  induction options generalizing hosts with
  | nil =>
    cases h
    exact fun e he => absurd he List.not_mem_nil
  | cons option rest ih =>
    have hrest {hosts : Table Text} (h : endpoints group rest = .ok hosts) (e : Text × Text)
        (he : e ∈ hosts) : e.1 ∉ settingNames ∧
          ∃ value, (e.1, value) ∈ option :: rest ∧ endpoint? value = some e.2 := by
      obtain ⟨hname, value, hmem, hvalue⟩ := ih h e he
      exact ⟨hname, value, List.mem_cons_of_mem _ hmem, hvalue⟩
    obtain ⟨pattern, value⟩ := option
    rw [endpoints] at h
    split at h
    · exact hrest h
    · next hname =>
      split at h
      · cases h
      · next url hurl =>
        obtain ⟨tail, htail, rfl⟩ := Except.map_eq_ok_iff.mp h
        refine List.forall_mem_cons.mpr ⟨⟨fun hmem => hname ?_, value, ?_, hurl⟩, hrest htail⟩
        · exact List.contains_iff_mem.mpr hmem
        · exact List.mem_cons_self

theorem dropRight_of_endpoints {group : Text} {options hosts : Table Text}
    (h : endpoints group options = .ok hosts) :
    ∀ e ∈ hosts, Text.dropRight (· = 0x2F) e.2 = e.2 := by
  intro e he
  obtain ⟨-, value, -, hvalue⟩ := exists_option_of_endpoints h e he
  exact dropRight_of_endpoint? hvalue

/-- The endpoints of an outline are those of the section's options. -/
theorem endpoints_of_outline {d : Ini.Document} {name : Text} {settings : GroupSettings}
    {duration : Int} {hosts : Table Text} (h : outline d name = .ok (settings, duration, hosts)) :
    endpoints name (d.options name) = .ok hosts := by
  unfold outline at h
  dsimp only at h
  split at h
  · cases h
  · obtain ⟨duration', -, h⟩ := Except.bind_eq_ok_iff.mp h
    obtain ⟨hosts', hhosts, h⟩ := Except.bind_eq_ok_iff.mp h
    cases h
    exact hhosts

/-- The group of a section is sound. -/
theorem group_yields (files : FileTree) (d : Ini.Document) (name : Text) :
    Load.Yields (group files d name) HostGroup.Sound := by
  -- of the outline only the endpoints matter, of the keys only that they belong together
  refine Load.Yields.bind (P := fun x => endpoints name (d.options name) = .ok x.2.2) ?_ ?_
  · exact .lift fun x h => endpoints_of_outline (Except.mapError_eq_ok_iff.mp h)
  · rintro ⟨settings, duration, hosts⟩ hhosts
    refine (Load.pair_yields _ _ _).bind fun hostKeys hhost => ?_
    refine (Load.pair_yields _ _ _).bind fun userKeys huser => ?_
    refine (Load.Yields.trivial _).bind fun validity _ => ?_
    refine (Load.Yields.trivial _).bind fun _ _ => .pure ?_
    exact ⟨hhost, huser, dropRight_of_endpoints hhosts⟩

/-- The groups of a configuration are sound. -/
theorem parse_yields (files : FileTree) (text : Text) :
    Load.Yields (parse files text) fun c => ∀ g ∈ c.groups, g.Sound := by
  unfold parse
  split
  · exact .throw _
  · exact (Load.Yields.mapM (group_yields files _) _).bind fun groups h => .pure h

/-- The groups of a configuration that a text makes are sound, whatever was loaded before. -/
theorem sound_of_parse {files : FileTree} {text : Text} {s : Loading} {c : Config}
    (h : ((parse files text).run.run s).1 = .ok c) : ∀ g ∈ c.groups, g.Sound :=
  parse_yields files text s c h

end Config

end SshAuthority
