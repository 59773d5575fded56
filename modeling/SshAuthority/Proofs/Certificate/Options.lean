/-
SshAuthority/Proofs/Certificate/Options.lean

The sections of a certificate that hold names with data.

A section is a list of entries, each of them two strings, that fills the octets
(`entries?`); it determines the octets and is determined by them (`entries?_eq_some_iff`).
The critical options of a user certificate are its entries, every one of them known, so
that a section without networks is one of commands only, and the last of them is the one
that counts. The extensions of a certificate are among the known ones.

Main results: `entries?_eq_some_iff`, `forcesOnly_of_criticalOptions?` and
`known_of_extensions?`.
-/
import SshAuthority.Certificate.Basic
import SshAuthority.Proofs.Encoding.Wire

namespace SshAuthority

/-! ### Lists of partial values -/

section

variable {α β : Type} {f : α → Option β}

/-- The first element and the rest have values of their own. -/
theorem mapM_cons_eq_some_iff {x : α} {l : List α} {r : List β} :
    (x :: l).mapM f = some r ↔ ∃ y s, f x = some y ∧ l.mapM f = some s ∧ r = y :: s := by
  rw [List.mapM_cons]
  constructor
  · intro h
    obtain ⟨y, hy, h⟩ := Option.bind_eq_some_iff.mp h
    obtain ⟨s, hs, h⟩ := Option.bind_eq_some_iff.mp h
    cases h
    exact ⟨y, s, hy, hs, rfl⟩
  · rintro ⟨y, s, hy, hs, rfl⟩
    rw [hy, hs]
    rfl

/-- Every element has its value among the values. -/
theorem exists_mem_of_mapM {l : List α} {r : List β} {x : α} (h : l.mapM f = some r)
    (hx : x ∈ l) : ∃ y ∈ r, f x = some y := by
  induction l generalizing r with
  | nil => cases hx
  | cons z l ih =>
    obtain ⟨y, s, hy, hs, rfl⟩ := mapM_cons_eq_some_iff.mp h
    rcases List.mem_cons.mp hx with rfl | hx
    · exact ⟨y, List.mem_cons_self, hy⟩
    · obtain ⟨w, hw, hfw⟩ := ih hs hx
      exact ⟨w, List.mem_cons_of_mem y hw, hfw⟩

/-- The last value is that of the last element. -/
theorem exists_getLast?_of_mapM {l : List α} {r : List β} {y : β} (h : l.mapM f = some r)
    (hlast : r.getLast? = some y) : ∃ x, l.getLast? = some x ∧ f x = some y := by
  induction l generalizing r with
  | nil =>
    cases h
    cases hlast
  | cons x l ih =>
    obtain ⟨z, s, hz, hs, rfl⟩ := mapM_cons_eq_some_iff.mp h
    -- as many values as elements: with one value there is one element
    rcases s with - | ⟨z', s⟩
    · cases hlast
      rcases l with - | ⟨x', l⟩
      · exact ⟨x, rfl, hz⟩
      · obtain ⟨z', s', hz', hs', hnil⟩ := mapM_cons_eq_some_iff.mp hs
        cases hnil
    · rw [List.getLast?_cons_cons] at hlast
      obtain ⟨w, hw, hy⟩ := ih hs hlast
      refine ⟨w, ?_, hy⟩
      rcases l with - | ⟨x', l⟩
      · cases hw
      · rw [List.getLast?_cons_cons, hw]

end

namespace CertificateFields

/-! ### Entries -/

/-- Takes a name and its data. -/
def entry : Wire.Reader (Bytes × Bytes) := do
  return (← Wire.string, ← Wire.string)

/-- The entries that fill the octets, with fuel for as many as may fit. -/
def entriesWithin? : (fuel : Nat) → Bytes → Option (List (Bytes × Bytes))
  | _, [] => some []
  | 0, _ => none
  | fuel + 1, b => do
    let (e, rest) ← entry b
    return e :: (← entriesWithin? fuel rest)

/-- The entries that fill the octets. -/
def entries? (b : Bytes) : Option (List (Bytes × Bytes)) := entriesWithin? b.length b

/-- Whether name and data can be written. -/
def entryFits (e : Bytes × Bytes) : Bool := Wire.fits e.1 && Wire.fits e.2

@[simp]
theorem packOptions_nil : packOptions [] = [] := rfl

@[simp]
theorem packOptions_cons (e : Bytes × Bytes) (l : List (Bytes × Bytes)) :
    packOptions (e :: l) = Wire.putString e.1 ++ Wire.putString e.2 ++ packOptions l := rfl

/-- Reading an entry and writing one are inverse to each other. -/
theorem entry_eq_some_iff {b rest : Bytes} {e : Bytes × Bytes} :
    entry b = some (e, rest) ↔
      entryFits e = true ∧ b = Wire.putString e.1 ++ Wire.putString e.2 ++ rest := by
  obtain ⟨name, data⟩ := e
  unfold entry
  simp only [Wire.bind_eq_some_iff, Wire.pure_apply, Wire.string_eq_some_iff, entryFits,
    Bool.and_eq_true, List.append_assoc]
  constructor
  · rintro ⟨name', mid, ⟨hname, rfl⟩, data', rest', ⟨hdata, rfl⟩, h⟩
    cases h
    exact ⟨⟨hname, hdata⟩, rfl⟩
  · rintro ⟨⟨hname, hdata⟩, rfl⟩
    exact ⟨name, _, ⟨hname, rfl⟩, data, rest, ⟨hdata, rfl⟩, rfl⟩

theorem length_le_length_packOptions (l : List (Bytes × Bytes)) :
    l.length ≤ (packOptions l).length := by
  induction l with
  | nil => exact Nat.le_refl 0
  | cons e l ih =>
    simp only [packOptions_cons, List.length_append, List.length_cons, Wire.length_putString]
    omega

/-- A section that is read was written so. -/
theorem of_entriesWithin? {fuel : Nat} {b : Bytes} {l : List (Bytes × Bytes)}
    (h : entriesWithin? fuel b = some l) : l.all entryFits = true ∧ b = packOptions l := by
  induction fuel generalizing b l with
  | zero =>
    rcases b with - | ⟨x, b⟩ <;> cases h
    exact ⟨rfl, rfl⟩
  | succ fuel ih =>
    rcases b with - | ⟨x, b⟩
    · cases h
      exact ⟨rfl, rfl⟩
    · obtain ⟨⟨e, rest⟩, he, h⟩ := Option.bind_eq_some_iff.mp h
      obtain ⟨l', hl, h⟩ := Option.bind_eq_some_iff.mp h
      cases h
      obtain ⟨hfits, hb⟩ := entry_eq_some_iff.mp he
      obtain ⟨hall, rfl⟩ := ih hl
      refine ⟨?_, by rw [hb, packOptions_cons]⟩
      rw [List.all_cons, hfits, hall, Bool.and_true]

/-- A section that was written is read. -/
theorem entriesWithin?_packOptions {l : List (Bytes × Bytes)} {fuel : Nat}
    (hall : l.all entryFits = true) (hfuel : l.length ≤ fuel) :
    entriesWithin? fuel (packOptions l) = some l := by
  induction l generalizing fuel with
  | nil => cases fuel <;> rfl
  | cons e l ih =>
    rw [List.all_cons, Bool.and_eq_true] at hall
    obtain ⟨fuel, rfl⟩ : ∃ n, fuel = n + 1 := ⟨fuel - 1, by rw [List.length_cons] at hfuel; omega⟩
    have he : entry (packOptions (e :: l)) = some (e, packOptions l) :=
      entry_eq_some_iff.mpr ⟨hall.1, packOptions_cons e l⟩
    have hl : entriesWithin? fuel (packOptions l) = some l :=
      ih hall.2 (Nat.le_of_succ_le_succ hfuel)
    -- an entry has octets, so the section is not at its end
    rcases hb : packOptions (e :: l) with - | ⟨x, b⟩
    · have hlength := length_le_length_packOptions (e :: l)
      rw [hb] at hlength
      cases hlength
    · rw [entriesWithin?, ← hb, he]
      · show (entriesWithin? fuel (packOptions l)).bind _ = some (e :: l)
        rw [hl]
        rfl
      · exact List.cons_ne_nil x b

/-- Reading a section and writing one are inverse to each other. -/
theorem entries?_eq_some_iff {b : Bytes} {l : List (Bytes × Bytes)} :
    entries? b = some l ↔ l.all entryFits = true ∧ b = packOptions l := by
  constructor
  · exact of_entriesWithin?
  · rintro ⟨hall, rfl⟩
    exact entriesWithin?_packOptions hall (length_le_length_packOptions l)

end CertificateFields

namespace Certificate

/-! ### Critical options -/

/-- The critical options of a user certificate are its entries, every one of them known. -/
theorem criticalOptionsWithin?_eq (fuel : Nat) (b : Bytes) :
    criticalOptionsWithin? fuel b =
      (CertificateFields.entriesWithin? fuel b).bind (·.mapM fun e => criticalOption? e.1 e.2) := by
  induction fuel generalizing b with
  | zero => cases b <;> rfl
  | succ fuel ih =>
    rcases b with - | ⟨x, b⟩
    · rfl
    · show ((CertificateFields.entry (x :: b)).bind fun _ => _) =
        ((CertificateFields.entry (x :: b)).bind fun _ => _).bind _
      rcases CertificateFields.entry (x :: b) with - | ⟨e, rest⟩
      · rfl
      · simp only [Option.bind_some, ih]
        -- the one reader stops at an option that is unknown, the other reads on and then fails
        rcases CertificateFields.entriesWithin? fuel rest with - | l
        · cases criticalOption? e.1 e.2 <;> rfl
        · simp only [Option.bind_eq_bind, Option.bind_some, Option.pure_def, List.mapM_cons]

/-- Only the option with a command is one. -/
theorem of_criticalOption?_forceCommand {name data : Bytes} {command : Text}
    (h : criticalOption? name data = some (.forceCommand command)) :
    name = forceCommandName ∧
      ∃ octets, Wire.whole? Wire.string data = some octets ∧ Utf8.decode? octets = some command := by
  obtain ⟨octets, hoctets, h⟩ := Option.bind_eq_some_iff.mp h
  split at h
  · next hname =>
    obtain ⟨command', hcommand, heq⟩ := Option.map_eq_some_iff.mp h
    cases heq
    exact ⟨hname, octets, hoctets, hcommand⟩
  · split at h
    · obtain ⟨networks, -, heq⟩ := Option.map_eq_some_iff.mp h
      cases heq
    · cases h

/-- The data of the option with a command is the command. -/
theorem criticalOption?_forceCommand {data octets : Bytes} {command : Text}
    (hwhole : Wire.whole? Wire.string data = some octets)
    (hdecode : Utf8.decode? octets = some command) :
    criticalOption? forceCommandName data = some (.forceCommand command) := by
  unfold criticalOption?
  rw [hwhole, Option.bind_eq_bind, Option.bind_some, if_pos rfl, hdecode]
  rfl

/-- Without networks there are only commands. -/
theorem exists_commands {c : Certificate} (h : c.hasSourceAddress = false) :
    ∃ commands : List Text, c.options = commands.map .forceCommand := by
  unfold hasSourceAddress at h
  generalize c.options = options at h ⊢
  induction options with
  | nil => exact ⟨[], rfl⟩
  | cons o options ih =>
    rw [List.any_cons, Bool.or_eq_false_iff] at h
    obtain ⟨commands, hcommands⟩ := ih h.2
    rcases o with command | networks
    · exact ⟨command :: commands, by rw [hcommands, List.map_cons]⟩
    · cases h.1

/-- Octets are a section of commands, of which the last is the given one. -/
def ForcesOnly (b : Bytes) (command : Text) : Prop :=
  ∃ entries, CertificateFields.entries? b = some entries ∧
    (∀ e ∈ entries, e.1 = forceCommandName) ∧
    ∃ e octets, entries.getLast? = some e ∧ Wire.whole? Wire.string e.2 = some octets ∧
      Utf8.decode? octets = some command

/-- Options without networks, the last command of which is the given one, are such a section. -/
theorem forcesOnly_of_criticalOptions? {c : Certificate} {b : Bytes} {command : Text}
    (h : criticalOptions? .user b = some c.options) (hs : c.hasSourceAddress = false)
    (hc : c.forceCommand? = some command) : ForcesOnly b command := by
  obtain ⟨commands, hcommands⟩ := exists_commands hs
  -- where all options are commands, the last command is the last option
  have hlast : c.options.getLast? = some (.forceCommand command) := by
    unfold forceCommand? at hc
    rw [hcommands, List.filterMap_map] at hc
    change (commands.filterMap some).getLast? = some command at hc
    rw [List.filterMap_some] at hc
    rw [hcommands, List.getLast?_map, hc, Option.map_some]
  rw [criticalOptions?, criticalOptionsWithin?_eq] at h
  obtain ⟨entries, hentries, hmap⟩ := Option.bind_eq_some_iff.mp h
  refine ⟨entries, hentries, ?_, ?_⟩
  · intro e he
    obtain ⟨o, ho, hoption⟩ := exists_mem_of_mapM hmap he
    rw [hcommands] at ho
    obtain ⟨command', -, rfl⟩ := List.mem_map.mp ho
    exact (of_criticalOption?_forceCommand hoption).1
  · obtain ⟨e, he, hoption⟩ := exists_getLast?_of_mapM hmap hlast
    obtain ⟨-, octets, hoctets, hcommand⟩ := of_criticalOption?_forceCommand hoption
    exact ⟨e, octets, he, hoctets, hcommand⟩

/-! ### Extensions -/

/-- The extensions of a certificate are among the known ones. -/
theorem known_of_extensionsWithin? {known : List Bytes} {fuel : Nat} {b : Bytes} {kept : List Bytes}
    (h : extensionsWithin? known fuel b = some kept) : ∀ name ∈ kept, name ∈ known := by
  induction fuel generalizing b kept with
  | zero =>
    rcases b with - | ⟨x, b⟩ <;> cases h
    exact fun name hname => absurd hname List.not_mem_nil
  | succ fuel ih =>
    rcases b with - | ⟨x, b⟩
    · cases h
      exact fun name hname => absurd hname List.not_mem_nil
    · obtain ⟨⟨name, rest⟩, -, h⟩ := Option.bind_eq_some_iff.mp h
      dsimp only at h
      split at h
      · next hname =>
        -- a known name is kept, if its data is as it should be
        obtain ⟨⟨data, rest'⟩, -, h⟩ := Option.bind_eq_some_iff.mp h
        dsimp only at h
        split at h
        · obtain ⟨tail, htail, rfl⟩ := Option.map_eq_some_iff.mp h
          intro other hother
          rcases List.mem_cons.mp hother with rfl | hother
          · exact List.contains_iff_mem.mp hname
          · exact ih htail other hother
        · cases h
      · split at h
        · exact ih h
        · cases h

theorem known_of_extensions? {b : Bytes} {kept : List Bytes} (h : extensions? .user b = some kept) :
    ∀ name ∈ kept, name ∈ knownExtensions :=
  known_of_extensionsWithin? h

/-- The extension for a terminal is known. -/
theorem extensions?_terminal :
    extensions? .user (CertificateFields.packOptions [(Bytes.ofString "permit-pty", [])]) =
      some [Bytes.ofString "permit-pty"] := by
  decide +kernel

/-- No known extension has the name of the option with a command. -/
theorem forceCommandName_not_mem_knownExtensions : forceCommandName ∉ knownExtensions := by
  decide

end Certificate

end SshAuthority
