/-
SshAuthority/Proofs/Json/Members.lean

The members of an object as they stand in its text.

The value of an object has each name once. The text may repeat names, and what a name is
worth in the value is decided by the last of its members. `members?` reads the text of an
object up to its members, repetitions included; `readBytes_eq_object_iff` says that
reading an object is reading its members and keeping the last of each name.
-/
import SshAuthority.Json.Reader
import SshAuthority.Outcome
import SshAuthority.Proofs.Table

namespace SshAuthority.Json

/-- The members after the brace that opens an object, and what follows the object. -/
def membersFrom? (fuel depth : Nat) (t : Text) : Option (List (Text × Json) × Text) :=
  match skipSpace t with
  | [] => none
  | c :: rest =>
    if c = 0x7D then some ([], rest)
    else (readEntries maxDepth fuel (depth + 1) (c :: rest)).toOption

/-- The members of the object that octets hold, as they stand in the text. -/
def members? (b : Bytes) : Option (List (Text × Json)) := do
  let t ← decodeText? b
  match skipSpace t with
  | [] => none
  | c :: rest =>
    if c = 0x7B then
      let (members, after) ← membersFrom? (2 * t.length + 1) 0 rest
      if (skipSpace after).isEmpty then some members else none
    else none

/-- The last member of a name counts. -/
theorem get?_ofEntries (name : Text) (members : List (Text × Json)) :
    get? name (ofEntries members) = Table.last? name members := by
  show Table.get? name (Table.putAll [] members) = _
  rw [Table.get?_putAll]
  exact Option.or_none

/-- The members of an object are not lost in its value. -/
theorem exists_ofEntries_eq (members : List (Text × Json)) :
    ∃ entries, ofEntries members = .object entries := ⟨_, rfl⟩

/-! ### Reading objects -/

/-- A number is no object. -/
theorem readNumber_ne_object {negative : Bool} {t after : Text} {entries : Table Json} :
    readNumber negative t ≠ .ok (.object entries, after) := by
  intro h
  unfold readNumber at h
  split at h
  · cases h
  · dsimp only at h
    split at h
    · split at h <;> cases h
    · cases h
    · cases h

/-- A value without parts is no object. -/
theorem readAtom_ne_object {t after : Text} {entries : Table Json} :
    readAtom t ≠ .ok (.object entries, after) := by
  intro h
  unfold readAtom at h
  split at h
  · next found hfound =>
    cases h
    obtain ⟨⟨name, value⟩, hmem, hvalue⟩ := List.exists_of_findSome?_eq_some hfound
    obtain ⟨rest, -, hpair⟩ := Option.map_eq_some_iff.mp hvalue
    have hobject : value = .object entries := (Prod.mk.inj hpair).1
    subst hobject
    simp [names] at hmem
  · split at h
    · cases h
    · split at h <;> exact readNumber_ne_object h

/-- What begins with something else than a brace is no object. -/
theorem readValue_ne_object {fuel depth : Nat} {c : CodePoint} {rest after : Text}
    {entries : Table Json} (hbrace : c ≠ 0x7B) :
    readValue maxDepth (fuel + 1) depth (c :: rest) ≠ .ok (.object entries, after) := by
  intro h
  rw [readValue, if_neg hbrace] at h
  split at h
  · split at h <;> cases h
  · split at h
    · split at h
      · cases h
      · split at h
        · cases h
        · split at h
          · cases h
          · -- an array is no object
            obtain ⟨_, -, heq⟩ := Except.map_eq_ok_iff.mp h
            cases heq
    · exact absurd h readAtom_ne_object

/-- After a brace the members follow. -/
theorem readValue_brace_eq_ok_iff {fuel depth : Nat} {rest after : Text} {entries : Table Json}
    (hdepth : depth < maxDepth) :
    readValue maxDepth (fuel + 1) depth (0x7B :: rest) = .ok (.object entries, after) ↔
      ∃ members, membersFrom? fuel depth rest = some (members, after) ∧
        ofEntries members = .object entries := by
  rw [readValue, if_neg (by decide), if_neg (by decide), if_pos rfl, if_neg (by omega)]
  unfold membersFrom?
  rcases skipSpace rest with - | ⟨d, more⟩
  · simp
  · dsimp only
    by_cases hd : d = 0x7D
    · rw [if_pos hd, if_pos hd]
      constructor
      · intro h
        cases h
        exact ⟨[], rfl, rfl⟩
      · rintro ⟨members, hmembers, hvalue⟩
        cases hmembers
        exact congrArg (fun value => Except.ok (value, after)) hvalue
    · rw [if_neg hd, if_neg hd]
      constructor
      · intro h
        obtain ⟨⟨members, after'⟩, hread, heq⟩ := Except.map_eq_ok_iff.mp h
        obtain ⟨hvalue, rfl⟩ := Prod.mk.inj heq
        exact ⟨members, Except.toOption_eq_some_iff.mpr hread, hvalue⟩
      · rintro ⟨members, hmembers, hvalue⟩
        rw [Except.toOption_eq_some_iff.mp hmembers]
        exact congrArg (fun value => Except.ok (value, after)) hvalue

/-- A value that is read as an object begins with a brace, and its members follow. -/
theorem readValue_eq_object_iff {fuel depth : Nat} {t after : Text} {entries : Table Json}
    (hdepth : depth < maxDepth) :
    readValue maxDepth (fuel + 1) depth t = .ok (.object entries, after) ↔
      ∃ rest members, t = 0x7B :: rest ∧ membersFrom? fuel depth rest = some (members, after) ∧
        ofEntries members = .object entries := by
  constructor
  · intro h
    rcases t with - | ⟨c, rest⟩
    · rw [readValue] at h
      cases h
    · by_cases hbrace : c = 0x7B
      · subst hbrace
        obtain ⟨members, hmembers, hvalue⟩ := (readValue_brace_eq_ok_iff hdepth).mp h
        exact ⟨rest, members, rfl, hmembers, hvalue⟩
      · exact absurd h (readValue_ne_object hbrace)
  · -- a value that begins with a brace is the object of its members, if they can be read
    rintro ⟨rest, members, rfl, hmembers, hvalue⟩
    exact (readValue_brace_eq_ok_iff hdepth).mpr ⟨members, hmembers, hvalue⟩

/-- Octets hold an object if its members can be read; of each name the last member counts. -/
theorem readBytes_eq_object_iff {b : Bytes} {entries : Table Json} :
    readBytes b = .ok (.object entries) ↔
      ∃ members, members? b = some members ∧ ofEntries members = .object entries := by
  unfold readBytes members?
  rcases decodeText? b with - | t
  · simp
  · show readWithin maxDepth t = _ ↔ _
    have hvalue {after : Text} := @readValue_eq_object_iff (2 * t.length + 1) 0 (skipSpace t)
      after entries (by decide)
    simp only [Option.bind_eq_bind, Option.bind_some]
    unfold readWithin
    constructor
    · intro h
      split at h
      · cases h
      · next value after hread =>
        split at h
        · next hempty =>
          cases h
          obtain ⟨rest, members, ht, hmembers, hentries⟩ := hvalue.mp hread
          refine ⟨members, ?_, hentries⟩
          rw [ht]
          dsimp only
          rw [if_pos rfl, hmembers, Option.bind_some, if_pos hempty]
        · cases h
    · rintro ⟨members, h, hentries⟩
      split at h
      · cases h
      · next c rest ht =>
        split at h
        · next hbrace =>
          obtain ⟨⟨members', after⟩, hmembers, h⟩ := Option.bind_eq_some_iff.mp h
          dsimp only at h
          split at h
          · next hempty =>
            cases h
            rw [hvalue.mpr ⟨rest, members, by rw [ht, hbrace], hmembers, hentries⟩]
            dsimp only
            rw [if_pos hempty]
          · cases h
        · cases h

end SshAuthority.Json
