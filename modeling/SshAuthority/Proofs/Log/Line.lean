/-
SshAuthority/Proofs/Log/Line.lean

What a line of the log tells.

A record of texts and whole numbers is written as one line of printable ASCII, so whatever its
texts hold, none of them ends the line or begins another one. Read as JSON the line gives an
object with the entries of the record, each name once and in the record's order. Its values are
those of the record, but that a high surrogate and a low one directly after it come back as one
code point (`Proofs/Text/Surrogates`); a text without such a place comes back as it was.

There is no line at all if a whole number has more digits than are converted.

Main result: `Record.told_of_line`.
-/
import SshAuthority.Log.Line
import SshAuthority.Proofs.Json.Writing
import SshAuthority.Proofs.Text.Surrogates

namespace SshAuthority.Log

/-! ### The entries of a record -/

/-- The entries of the object of a record. -/
def Record.entries (timestamp : Text) (r : Record) : Table Json :=
  let always : Table Json :=
    [("timestamp", .text timestamp), ("level", .text r.level.text), ("logger", .text r.logger),
      ("message", .text r.message)]
  always ++ r.trouble.entries ++ r.extras.entries

/-- The names of the fields. -/
def Extras.names : List Text := ["host", "group", "serial", "reason"]

/-- The names of what stands before the fields. -/
def Record.leadingNames : List Text := ["timestamp", "level", "logger", "message", "exception"]

theorem Record.toJson_eq (timestamp : Text) (r : Record) :
    r.toJson timestamp = .object (r.entries timestamp) := rfl

theorem names_extraEntry (name : Text) (value : Option Json) :
    (Table.names (extraEntry name value)).Sublist [name] := by
  rcases value with - | value
  · exact List.nil_sublist _
  · exact List.Sublist.refl _

theorem Trouble.names_entries (trouble : Trouble) :
    (Table.names trouble.entries).Sublist ["exception"] := by
  cases trouble with
  | raised kind text => exact List.Sublist.refl _
  | _ => exact List.nil_sublist _

theorem Extras.names_entries (extras : Extras) :
    (Table.names extras.entries).Sublist Extras.names := by
  unfold Extras.entries Table.names
  rw [List.map_append, List.map_append, List.map_append]
  exact (((names_extraEntry _ _).append (names_extraEntry _ _)).append
    (names_extraEntry _ _)).append (names_extraEntry _ _)

/-- The names of a record are some of those that there are, in their order. -/
theorem Record.names_entries (timestamp : Text) (r : Record) :
    (Table.names (r.entries timestamp)).Sublist (leadingNames ++ Extras.names) := by
  unfold entries Table.names
  rw [List.map_append, List.map_append]
  exact ((List.Sublist.refl _).append r.trouble.names_entries).append r.extras.names_entries

/-- No name stands twice. -/
theorem Record.nodup_names (timestamp : Text) (r : Record) :
    (Table.names (r.entries timestamp)).Nodup :=
  (r.names_entries timestamp).nodup (by decide)

/-- The names are read back as they are. -/
theorem Record.joined_name {timestamp : Text} {r : Record} {e : Text × Json}
    (he : e ∈ r.entries timestamp) : Utf16.joined e.1 = e.1 := by
  have hname : ∀ name ∈ leadingNames ++ Extras.names, Utf16.joined name = name := by decide
  exact hname e.1 ((r.names_entries timestamp).subset (List.mem_map_of_mem he))

theorem get?_extraEntry (name other : Text) (value : Option Json) :
    Table.get? other (extraEntry name value) = if name = other then value else none := by
  rcases value with - | value
  · exact (ite_self _).symm
  · rfl

/-- Each field is found under its name. -/
theorem Extras.get?_entries (extras : Extras) :
    Table.get? "host" extras.entries = extras.host ∧
      Table.get? "group" extras.entries = extras.group ∧
      Table.get? "serial" extras.entries = extras.serial ∧
      Table.get? "reason" extras.entries = extras.reason := by
  unfold Extras.entries
  simp only [Table.get?_append, get?_extraEntry]
  refine ⟨?_, ?_, ?_, ?_⟩ <;> simp +decide

/-! ### Levels -/

theorem printable_of_all {t : Text} (h : t.all (fun c => decide c.IsPrintable) = true) :
    ∀ c ∈ t, c.IsPrintable := fun c hc => of_decide_eq_true (List.all_eq_true.mp h c hc)

theorem printable_level (level : Level) : ∀ c ∈ level.text, c.IsPrintable := by
  unfold Level.text
  -- the six names, and then the level by its number
  iterate 6
    split
    · exact printable_of_all (by decide)
  exact Json.printable_append (printable_of_all (by decide)) (Json.printable_ofInt level)

theorem joined_of_printable {t : Text} (h : ∀ c ∈ t, c.IsPrintable) : Utf16.joined t = t := by
  refine Utf16.joined_eq_self_iff.mpr (Utf16.unpaired_of_forall fun c hc => ?_)
  have hc := (h c hc).2
  simp only [Utf16.isHigh, Bool.and_eq_false_iff, decide_eq_false_iff_not]
  omega

/-! ### Records that are written -/

namespace Record

variable {r : Record}

/-- The whole numbers of a record have no more digits than are converted. -/
def Fits (r : Record) : Prop :=
  ∀ e ∈ r.extras.entries, ∀ n, e.2 = .int n → (Decimal.ofNat n.natAbs).length ≤ Decimal.maxDigits

theorem exists_text_of_mem_trouble (trouble : Trouble) :
    ∀ e ∈ trouble.entries, ∃ t, e.2 = .text t := by
  intro e he
  cases trouble with
  | raised kind text => exact ⟨_, congrArg Prod.snd (List.mem_singleton.mp he)⟩
  | _ => exact absurd he List.not_mem_nil

/-- An entry of a record is a text, or one of its fields. -/
theorem text_or_extra_of_mem {timestamp : Text} {e : Text × Json} (he : e ∈ r.entries timestamp) :
    (∃ t, e.2 = .text t) ∨ e ∈ r.extras.entries := by
  rcases List.mem_append.mp he with he | he
  · rcases List.mem_append.mp he with he | he
    · simp only [List.mem_cons, List.not_mem_nil, or_false] at he
      rcases he with rfl | rfl | rfl | rfl <;> exact .inl ⟨_, rfl⟩
    · exact .inl (exists_text_of_mem_trouble r.trouble e he)
  · exact .inr he

theorem isPlain_entries (hplain : ∀ e ∈ r.extras.entries, e.2.IsPlain) (timestamp : Text) :
    ∀ e ∈ r.entries timestamp, e.2.IsPlain := by
  intro e he
  rcases text_or_extra_of_mem he with ⟨t, ht⟩ | he
  · rw [ht]
    trivial
  · exact hplain e he

/-- A record is written if and only if its whole numbers are. -/
theorem isWritable_iff (hplain : ∀ e ∈ r.extras.entries, e.2.IsPlain) (timestamp : Text) :
    (r.toJson timestamp).isWritable = true ↔ r.Fits := by
  rw [toJson_eq, Json.isWritable, Json.entriesWritable_iff]
  constructor
  · intro h e he n hn
    have hwritable := h e (List.mem_append_right _ he)
    rw [hn] at hwritable
    exact Decimal.isOk_text?_iff.mp hwritable
  · intro h e he
    rcases text_or_extra_of_mem he with ⟨t, ht⟩ | he
    · rw [ht]
      rfl
    · have hvalue := hplain e he
      rcases hkind : e.2 with - | b | n | x | t | items | entries
      case int => exact Decimal.isOk_text?_iff.mpr (h e he n hkind)
      case text => rfl
      all_goals
        rw [hkind] at hvalue
        exact hvalue.elim

/-! ### The line -/

/-- What the entries that are read from a line tell of a record. -/
structure Tells (r : Record) (time : Text) (entries : Table Json) : Prop where
  names : Table.names entries = (["timestamp", "level", "logger", "message"] : List Text) ++
    Table.names r.trouble.entries ++ Table.names r.extras.entries
  timestamp : Table.get? "timestamp" entries = some (.text (Utf16.joined time))
  level : Table.get? "level" entries = some (.text r.level.text)
  logger : Table.get? "logger" entries = some (.text (Utf16.joined r.logger))
  message : Table.get? "message" entries = some (.text (Utf16.joined r.message))
  exception : Table.get? "exception" entries =
    match r.trouble with
    | .raised kind text => some (.text (Utf16.joined (raisedText kind text)))
    | _ => none
  host : Table.get? "host" entries = r.extras.host.map Json.joined
  group : Table.get? "group" entries = r.extras.group.map Json.joined
  serial : Table.get? "serial" entries = r.extras.serial.map Json.joined
  reason : Table.get? "reason" entries = r.extras.reason.map Json.joined
  same : ∀ name value, Table.get? name (r.entries time) = some value → value.Unpaired →
    Table.get? name entries = some value

/-- The entries that are read from the line of a record. -/
def told (timestamp : Text) (r : Record) : Table Json :=
  (r.entries timestamp).map fun (name, value) => (name, value.joined)

/-- The line of a record that fits is read back. -/
theorem read_jsonLine (hplain : ∀ e ∈ r.extras.entries, e.2.IsPlain) (hfits : r.Fits)
    (timestamp : Text) :
    Json.read (r.jsonLine timestamp) = .ok (.object (r.told timestamp)) := by
  have hwritable := (isWritable_iff hplain timestamp).mpr hfits
  have hne : r.entries timestamp ≠ [] := List.cons_ne_nil _ _
  -- only values can come back changed, and no name can come to stand twice by it
  have hnames : (r.entries timestamp).map (fun e => Utf16.joined e.1) =
      Table.names (r.entries timestamp) := List.map_congr_left fun _ he => joined_name he
  have htold : (r.entries timestamp).map (fun (name, value) => (Utf16.joined name, value.joined)) =
      r.told timestamp := List.map_congr_left fun _ he => Prod.ext (joined_name he) rfl
  unfold jsonLine
  rw [toJson_eq] at hwritable ⊢
  rw [Json.read_write hne (isPlain_entries hplain timestamp) hwritable
    (hnames ▸ r.nodup_names timestamp), htold]

/-- What is told under the name of a field is the field. -/
theorem get?_told_extra {name : Text} (hname : name ∈ Extras.names) (timestamp : Text) (r : Record) :
    Table.get? name (r.told timestamp) = (Table.get? name r.extras.entries).map Json.joined := by
  -- a field does not share its name with what stands before the fields
  have hnew : ∀ name ∈ Extras.names, name ∉ leadingNames := by decide
  have hnone : Table.get? name (r.entries timestamp) = Table.get? name r.extras.entries := by
    unfold entries
    rw [Table.get?_append, Table.get?_of_not_mem, Option.none_or]
    intro hmem
    unfold Table.names at hmem
    rw [List.map_append] at hmem
    exact hnew name hname (((List.Sublist.refl _).append r.trouble.names_entries).subset hmem)
  unfold told
  rw [Table.get?_map, hnone]

/-- An exception is told if there is one. -/
theorem get?_told_exception (timestamp : Text) (r : Record) :
    Table.get? "exception" (r.told timestamp) =
      (Table.get? "exception" r.trouble.entries).map Json.joined := by
  have hextras : Table.get? "exception" r.extras.entries = none :=
    Table.get?_of_not_mem fun hmem => absurd (r.extras.names_entries.subset hmem) (by decide)
  unfold told entries
  rw [Table.get?_map, Table.get?_append, Table.get?_append, hextras, Option.or_none]
  rfl

theorem tells_told (timestamp : Text) (r : Record) : r.Tells timestamp (r.told timestamp) where
  names := by
    unfold told entries Table.names
    rw [List.map_map, List.map_append, List.map_append]
    rfl
  timestamp := rfl
  level := congrArg (some ∘ Json.text) (joined_of_printable (printable_level r.level))
  logger := rfl
  message := rfl
  exception := by
    rw [get?_told_exception]
    cases r.trouble <;> rfl
  host := by rw [get?_told_extra (by decide), r.extras.get?_entries.1]
  group := by rw [get?_told_extra (by decide), r.extras.get?_entries.2.1]
  serial := by rw [get?_told_extra (by decide), r.extras.get?_entries.2.2.1]
  reason := by rw [get?_told_extra (by decide), r.extras.get?_entries.2.2.2]
  same name value hvalue hunpaired := by
    unfold told
    rw [Table.get?_map, hvalue, Option.map_some, Json.joined_eq_self hunpaired]

/-- A record whose fields are texts and whole numbers is told by one line of printable ASCII, if its
whole numbers are not too long; otherwise there is no line. -/
theorem told_of_line (timestamp : Text) (hplain : ∀ e ∈ r.extras.entries, e.2.IsPlain) :
    (r.Fits → ∃ line entries, r.jsonLine? timestamp = .ok line ∧ (∀ c ∈ line, c.IsPrintable) ∧
      Json.read line = .ok (.object entries) ∧ r.Tells timestamp entries) ∧
    (¬r.Fits → r.jsonLine? timestamp = .error .badValue) := by
  unfold jsonLine?
  constructor
  · intro hfits
    refine ⟨r.jsonLine timestamp, r.told timestamp, ?_, ?_, read_jsonLine hplain hfits timestamp,
      tells_told timestamp r⟩
    · rw [if_pos ((isWritable_iff hplain timestamp).mpr hfits)]
    · exact Json.printable_write (isPlain_entries hplain timestamp)
  · intro hlong
    rw [if_neg (mt (isWritable_iff hplain timestamp).mp hlong)]

/-! ### A line that is told -/

namespace Sample

/-- A host with a quotation mark, a line feed and a surrogate by itself. -/
def host : Text := Text.ofString "a\"\n" ++ [0xD800] ++ Text.ofString "\u00E9"

/-- A rejection of that host. -/
def rejection : Record where
  level := Level.warning
  logger := "oinit_ca.main"
  message := Text.ofString "Rejected: " ++ host
  extras := { host := some (.text host), serial := some (.int (2 ^ 64 - 1)) }
  trouble := .raised "ValueError" host

theorem extras_rejection :
    rejection.extras.entries =
      ([("host", .text host), ("serial", .int (2 ^ 64 - 1))] : Table Json) := rfl

theorem isPlain_rejection : ∀ e ∈ rejection.extras.entries, e.2.IsPlain := by
  rw [extras_rejection]
  intro e he
  simp only [List.mem_cons, List.not_mem_nil, or_false] at he
  rcases he with rfl | rfl <;> trivial

theorem fits_rejection : rejection.Fits := by
  unfold Fits
  rw [extras_rejection]
  intro e he n hn
  simp only [List.mem_cons, List.not_mem_nil, or_false] at he
  rcases he with rfl | rfl
  · cases hn
  · obtain rfl : 2 ^ 64 - 1 = n := Json.int.inj hn
    decide +kernel

end Sample

/-- The rejection is told with the line feed in its host. -/
theorem told_sample :
    (∀ e ∈ Sample.rejection.extras.entries, e.2.IsPlain) ∧ Sample.rejection.Fits ∧
      ∃ line entries, Sample.rejection.jsonLine? "*" = .ok line ∧ (∀ c ∈ line, c.IsPrintable) ∧
        Json.read line = .ok (.object entries) ∧ Sample.rejection.Tells "*" entries :=
  ⟨Sample.isPlain_rejection, Sample.fits_rejection,
    (told_of_line "*" Sample.isPlain_rejection).1 Sample.fits_rejection⟩

end Record

end SshAuthority.Log
