/-
SshAuthority/Proofs/Config/Sharing.lean

Which groups of a configuration have a key in common.

A group names four key files, each by a path of its own or of the defaults. All groups are
loaded with one cache, so a path that comes again gives the handle that it gave before, and
one that has not come yet gives a handle with a new number. What carries the proof is that a
step of loading leaves what is held and keeps the numbers apart (`Load.Fills`), so that at the
end every handle of every group is still the one that is held for its role and path
(`Loading.Serves`). There two handles are one if and only if their paths are.

Main results: `fills_group` and, from it, `shared_iff_of_parse`.
-/
import SshAuthority.Proofs.Config.KeyCache

namespace SshAuthority

/-! ### Slots -/

/-- What the key pairs of a group vouch for. -/
inductive KeySlot where
  | hosts
  | users
  deriving DecidableEq

/-- The setting that names the file of a half. -/
def KeySlot.settingName : KeySlot → KeyHalf → Text
  | .hosts, .privateHalf => "host-ca-privkey"
  | .hosts, .publicHalf => "host-ca-pubkey"
  | .users, .privateHalf => "user-ca-privkey"
  | .users, .publicHalf => "user-ca-pubkey"

/-- The pair in a slot. -/
def HostGroup.keys (g : HostGroup) : KeySlot → KeyPair
  | .hosts => g.hostKeys
  | .users => g.userKeys

/-- The handle of a half. -/
def KeyPair.handle (p : KeyPair) : (half : KeyHalf) → Handle half.Key
  | .privateHalf => p.privateKey
  | .publicHalf => p.publicKey

/-- The path in force for a half of the pair in a slot: the section's own value of the setting or
else that of the defaults, without blanks around it. -/
def Config.keyPath (d : Ini.Document) (name : Text) (slot : KeySlot) (half : KeyHalf) : Text :=
  match Table.get? (slot.settingName half) (d.options name) with
  | some value => value.trim
  | none => ((Table.get? (slot.settingName half) (d.options Ini.initialName)).getD []).trim

namespace Loading

/-- What is held in one state is held in the other. -/
def Keeps (s s' : Loading) : Prop :=
  ∀ half path key, s.held half path = some key → s'.held half path = some key

/-- The handles of a group are those held for its paths. -/
def Serves (s : Loading) (d : Ini.Document) (g : HostGroup) : Prop :=
  ∀ slot half, s.held half (Config.keyPath d g.name slot half) = some ((g.keys slot).handle half)

variable {s s' : Loading} {d : Ini.Document} {g g' : HostGroup}

theorem Serves.keeps (h : s.Serves d g) (hkeeps : s.Keeps s') : s'.Serves d g :=
  fun slot half => hkeeps _ _ _ (h slot half)

/-- Handles of one half are one if and only if their paths are. -/
theorem Serves.id_eq_iff (hs : s.Regular) (h : s.Serves d g) (h' : s.Serves d g')
    (slot slot' : KeySlot) (half : KeyHalf) :
    ((g.keys slot).handle half).id = ((g'.keys slot').handle half).id ↔
      Config.keyPath d g.name slot half = Config.keyPath d g'.name slot' half := by
  constructor
  · intro hid
    exact (hs.distinct _ _ _ _ _ _ (h slot half) (h' slot' half) hid).2
  · intro hpath
    have hheld := h slot half
    rw [hpath, h' slot' half] at hheld
    rw [Option.some.inj hheld]

/-- Handles of different halves are never one. -/
theorem Serves.id_ne (hs : s.Regular) (h : s.Serves d g) (h' : s.Serves d g')
    (slot slot' : KeySlot) :
    (g.keys slot).privateKey.id ≠ (g'.keys slot').publicKey.id := by
  intro hid
  have hheld := h slot .privateHalf
  have hheld' := h' slot' .publicHalf
  exact absurd (hs.distinct _ _ _ _ _ _ hheld hheld' hid).1 (by decide)

end Loading

/-! ### Steps -/

namespace Load

open Loading

variable {α β : Type} {P : α → Loading → Prop} {Q : β → Loading → Prop}

/-- From a regular state the step comes to one, leaves what is held, and what it yields is so
there. -/
def Fills (m : Load α) (P : α → Loading → Prop) : Prop :=
  ∀ s, s.Regular → (m.run.run s).2.Regular ∧ s.Keeps (m.run.run s).2 ∧
    ∀ a, (m.run.run s).1 = .ok a → P a (m.run.run s).2

/-- What is so stays so, as long as what is held stays held. -/
def Stable (P : α → Loading → Prop) : Prop := ∀ a s s', s.Keeps s' → P a s → P a s'

namespace Fills

theorem pure {a : α} (h : ∀ s, P a s) : Fills (pure a) P := by
  intro s hs
  refine ⟨hs, fun _ _ _ hheld => hheld, fun b hb => ?_⟩
  cases hb
  exact h s

/-- A computation without state, as a step. -/
theorem lift {x : Except Failure α} (h : ∀ a, x = .ok a → ∀ s, P a s) :
    Fills (liftM x : Load α) P :=
  fun s hs => ⟨hs, fun _ _ _ hheld => hheld, fun a ha => h a ha s⟩

/-- A record changes nothing that is held. -/
theorem record (level : Log.Level) (logger message : Text) :
    Fills (record level logger message) fun _ _ => True := by
  intro s hs
  have hheld (half : KeyHalf) (path : Text) :
      ((Load.record level logger message).run.run s).2.held half path = s.held half path := by
    cases half <;> rfl
  refine ⟨?_, fun half path key h => ?_, fun _ _ => True.intro⟩
  · constructor
    · intro half path key h
      rw [hheld] at h
      exact hs.fresh half path key h
    · intro half path key half' path' key' h h'
      rw [hheld] at h h'
      exact hs.distinct half path key half' path' key' h h'
    · intro half path key h
      rw [hheld] at h
      exact hs.supported half path key h
  · rw [hheld]
    exact h

theorem pair (files : FileTree) (privatePath publicPath : Text) :
    Fills (pair files privatePath publicPath) fun p s =>
      s.held .privateHalf privatePath = some p.privateKey ∧
        s.held .publicHalf publicPath = some p.publicKey := by
  intro s hs
  refine ⟨regular_of_pair hs files privatePath publicPath,
    (grows_of_pair files privatePath publicPath s).kept, fun p hp => ?_⟩
  obtain ⟨hprivate, hpublic, -⟩ := held_of_pair (Prod.ext hp rfl)
  exact ⟨hprivate, hpublic⟩

theorem bind {m : Load α} {next : α → Load β} (hm : Fills m P) (hP : Stable P)
    (hnext : ∀ a, Fills (next a) fun b s => P a s → Q b s) : Fills (m >>= next) Q := by
  intro s hs
  obtain ⟨hregular, hkeeps, hyields⟩ := hm s hs
  rw [run_bind]
  rcases hrun : m.run.run s with ⟨f | a, s'⟩ <;> rw [hrun] at hregular hkeeps hyields
  · exact ⟨hregular, hkeeps, fun b hb => by cases hb⟩
  · obtain ⟨hregular', hkeeps', hyields'⟩ := hnext a s' hregular
    refine ⟨hregular', fun half path key h => hkeeps' _ _ _ (hkeeps _ _ _ h), fun b hb => ?_⟩
    exact hyields' b hb (hP a _ _ hkeeps' (hyields a rfl))

/-- What each step comes to is so at the end of all. -/
theorem mapM {next : α → Load β} (h : ∀ a, Fills (next a) Q) (hQ : Stable Q) (l : List α) :
    Fills (l.mapM next) fun bs s => ∀ b ∈ bs, Q b s := by
  induction l with
  | nil => exact .pure fun s b hb => absurd hb List.not_mem_nil
  | cons a l ih =>
    rw [List.mapM_cons]
    refine (h a).bind hQ fun b => ih.bind (fun bs s s' hkeeps hbs c hc => hQ c s s' hkeeps (hbs c hc))
      fun bs => .pure fun s hbs hb => ?_
    exact List.forall_mem_cons.mpr ⟨hb, hbs⟩

end Fills

end Load

/-! ### Groups -/

namespace Config

variable {files : FileTree} {d : Ini.Document} {name text : Text} {c : Config}

/-- The settings of a group that name files are the paths in force. -/
theorem setting_settingName (d : Ini.Document) (name : Text) (slot : KeySlot) (half : KeyHalf) :
    setting d name (slot.settingName half) = keyPath d name slot half := by
  unfold setting keyPath
  dsimp only
  rcases Table.get? (slot.settingName half) (d.options name) with - | value
  · exact Text.trim_trim _
  · rfl

/-- Loading a group puts its handles in the places of its paths. -/
theorem fills_group (files : FileTree) (d : Ini.Document) (name : Text) :
    Load.Fills (group files d name) fun g s => s.Serves d g := by
  have hpath := setting_settingName d name
  refine Load.Fills.bind (P := fun (x : GroupSettings × Int × Table Text) _ =>
    x.1 = GroupSettings.ofLookup (setting d name)) ?_ (fun _ _ _ _ h => h) ?_
  · exact .lift fun x hx _ => (outline_eq_ok_iff.mp (Except.mapError_eq_ok_iff.mp hx)).2.1
  rintro ⟨settings, duration, hosts⟩
  refine (Load.Fills.pair files _ _).bind
    (fun p s s' hkeeps h => ⟨hkeeps _ _ _ h.1, hkeeps _ _ _ h.2⟩) fun hostKeys => ?_
  refine (Load.Fills.pair files _ _).bind
    (fun p s s' hkeeps h => ⟨hkeeps _ _ _ h.1, hkeeps _ _ _ h.2⟩) fun userKeys => ?_
  refine Load.Fills.bind (P := fun _ _ => True) (.lift fun _ _ _ => trivial) (fun _ _ _ _ h => h)
    fun validity => ?_
  refine (Load.Fills.record _ _ _).bind (fun _ _ _ _ h => h) fun _ => .pure ?_
  -- each half of each pair is held where the pair was loaded from
  rintro s - - ⟨huserPrivate, huserPublic⟩ ⟨hhostPrivate, hhostPublic⟩ hsettings
  obtain rfl : settings = _ := hsettings
  intro slot half
  rw [← hpath]
  rcases slot <;> rcases half
  · exact hhostPrivate
  · exact hhostPublic
  · exact huserPrivate
  · exact huserPublic

/-- In the end all groups of a configuration have the handles that are held for their paths. -/
theorem exists_serves_of_parse (h : ((parse files text).run.run {}).1 = .ok c)
    (hread : Ini.read text = .ok d) :
    ∃ s : Loading, s.Regular ∧ ∀ g ∈ c.groups, s.Serves d g := by
  have hfills : Load.Fills (parse files text) fun c s => ∀ g ∈ c.groups, s.Serves d g := by
    have hserves : Load.Stable fun g s => Loading.Serves s d g := fun g s s' hkeeps h => h.keeps hkeeps
    unfold parse
    rw [hread]
    exact (Load.Fills.mapM (fills_group files d) hserves _).bind
      (fun groups s s' hkeeps h g hg => hserves g s s' hkeeps (h g hg))
      fun groups => .pure fun s h => h
  obtain ⟨hregular, -, hserves⟩ := hfills {} Loading.regular_start
  exact ⟨_, hregular, hserves c h⟩

/-- The key of a handle is that of the file at the path in force. -/
theorem Builds.key {g : HostGroup} (h : Builds files d g.plain) (slot : KeySlot) (half : KeyHalf) :
    KeyFile.key half files (keyPath d g.name slot half) = .ok ((g.keys slot).handle half).value := by
  rw [← setting_settingName]
  rcases slot <;> rcases half
  · exact h.hostKeys.privateKey
  · exact h.hostKeys.publicKey
  · exact h.userKeys.privateKey
  · exact h.userKeys.publicKey

/-- In every configuration that comes of a text, two handles of a half, in any slots of any groups,
are one if and only if the paths in force are one text, and no handle of a private key is one of a
public key. Each handle has the key of the file at its path. So a group with a path of its own has
another handle than each group for which another path is in force, that of the defaults or not. -/
theorem shared_iff_of_parse (h : ((parse files text).run.run {}).1 = .ok c) :
    ∃ d, Ini.read text = .ok d ∧ c.names = d.names.filter (· ≠ Ini.initialName) ∧
      (∀ g ∈ c.groups, ∀ g' ∈ c.groups, ∀ slot slot',
        (∀ half, ((g.keys slot).handle half).id = ((g'.keys slot').handle half).id ↔
          keyPath d g.name slot half = keyPath d g'.name slot' half) ∧
        (g.keys slot).privateKey.id ≠ (g'.keys slot').publicKey.id) ∧
      (∀ g ∈ c.groups, ∀ slot half, KeyFile.key half files (keyPath d g.name slot half) =
        .ok ((g.keys slot).handle half).value) ∧
      ∀ g ∈ c.groups, ∀ g' ∈ c.groups, ∀ slot slot' half value,
        Table.get? (slot.settingName half) (d.options g.name) = some value →
        value.trim ≠ keyPath d g'.name slot' half →
          ((g.keys slot).handle half).id ≠ ((g'.keys slot').handle half).id := by
  obtain ⟨d, hread, hnames, hbuilds⟩ := exists_document_of_parse h
  obtain ⟨s, hregular, hserves⟩ := exists_serves_of_parse h hread
  have hiff : ∀ g ∈ c.groups, ∀ g' ∈ c.groups, ∀ slot slot' half, _ := fun g hg g' hg' =>
    Loading.Serves.id_eq_iff hregular (hserves g hg) (hserves g' hg')
  refine ⟨d, hread, hnames, fun g hg g' hg' slot slot' => ⟨hiff g hg g' hg' slot slot', ?_⟩,
    fun g hg => (hbuilds g hg).key, fun g hg g' hg' slot slot' half value hvalue hne hid => hne ?_⟩
  · exact Loading.Serves.id_ne hregular (hserves g hg) (hserves g' hg') slot slot'
  · have hown : keyPath d g.name slot half = value.trim := by
      unfold keyPath
      rw [hvalue]
    exact hown.symm.trans ((hiff g hg g' hg' slot slot' half).mp hid)

/-- Two groups with the keys of the defaults, of which the second names the file of its users' key in
another way. -/
def Sample.otherWords : Text :=
  Text.join [0x0A] ["host-ca-privkey = ca", "host-ca-pubkey = ca.pub", "user-ca-privkey = ca",
    "user-ca-pubkey = ca.pub", "cert-validity = token",
    "[site]", "login.example.org = https://mc.example.org",
    "[campus]", "user-ca-privkey = ./ca", "*.example.org = https://mc.example.org"]

/-- The groups have the key of their hosts in common, and in the first it is that of the users, too.
The key that the second names in its own way is a key of its own. -/
theorem shared_sample :
    ∃ c, ((parse Service.Sample.files Sample.otherWords).run.run {}).1 = .ok c ∧
      ∃ g ∈ c.groups, ∃ g' ∈ c.groups,
        g.hostKeys.privateKey.id = g'.hostKeys.privateKey.id ∧
        g.hostKeys.privateKey.id = g.userKeys.privateKey.id ∧
        g.userKeys.privateKey.id ≠ g'.userKeys.privateKey.id ∧
        g.userKeys.publicKey.id = g'.userKeys.publicKey.id := by
  have hnames : ((parse Service.Sample.files Sample.otherWords).run.run {}).1.toOption.map names =
      some [Text.ofString "site", Text.ofString "campus"] := by
    decide +kernel
  have hpaths : (Ini.read Sample.otherWords).toOption.all (fun d =>
      keyPath d "site" .hosts .privateHalf = keyPath d "campus" .hosts .privateHalf ∧
        keyPath d "site" .hosts .privateHalf = keyPath d "site" .users .privateHalf ∧
        keyPath d "site" .users .privateHalf ≠ keyPath d "campus" .users .privateHalf ∧
        keyPath d "site" .users .publicHalf = keyPath d "campus" .users .publicHalf) = true := by
    decide +kernel
  obtain ⟨c, hc, hnames⟩ := Option.map_eq_some_iff.mp hnames
  have hparse := Except.toOption_eq_some_iff.mp hc
  obtain ⟨d, hread, -, hshared, -⟩ := shared_iff_of_parse hparse
  obtain ⟨g, hg, hsite⟩ := List.mem_map.mp (hnames ▸ List.mem_cons_self)
  obtain ⟨g', hg', hcampus⟩ := List.mem_map.mp (hnames ▸ List.mem_cons_of_mem _ List.mem_cons_self)
  rw [hread] at hpaths
  obtain ⟨hhosts, hslots, husers, hpublic⟩ := of_decide_eq_true hpaths
  rw [← hsite, ← hcampus] at hhosts husers hpublic
  rw [← hsite] at hslots
  exact ⟨c, hparse, g, hg, g', hg',
    ((hshared g hg g' hg' .hosts .hosts).1 .privateHalf).mpr hhosts,
    ((hshared g hg g hg .hosts .users).1 .privateHalf).mpr hslots,
    fun hid => husers (((hshared g hg g' hg' .users .users).1 .privateHalf).mp hid),
    ((hshared g hg g' hg' .users .users).1 .publicHalf).mpr hpublic⟩

end Config

end SshAuthority
