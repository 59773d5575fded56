/-
SshAuthority/Proofs/Json/Writing.lean

Objects of texts and whole numbers, written and read back.

After a value that is written comes nothing, a comma or a closing bracket (`Closes`), so the
reader stops where the value ends. Each value is then read back by itself: a whole number from
its digits, a text with its pairs joined. The entries of an object follow one after the other
(`readEntries_write`); if no name stands twice in it, the object is what was written
(`read_write`).

Main results: `read_write` and `printable_write`.
-/
import SshAuthority.Outcome
import SshAuthority.Proofs.Json.Escape
import SshAuthority.Proofs.Number.Numeral
import SshAuthority.Proofs.Table

namespace SshAuthority.Json

variable {rest : Text} {n : Nat}

/-- What may come after a value that is written. -/
def Closes (rest : Text) : Prop := ∀ c ∈ rest.head?, c = 0x2C ∨ c = 0x5D ∨ c = 0x7D

/-! ### Whole numbers -/

theorem Closes.isAsciiDigit (h : Closes rest) : ∀ c ∈ rest.head?, c.isAsciiDigit = false := by
  intro c hc
  rcases h c hc with rfl | rfl | rfl <;> decide

/-- Digits are taken up to what closes. -/
theorem takeDigits_append {digits : Text} (hdigits : ∀ c ∈ digits, c.isAsciiDigit = true)
    (h : Closes rest) : takeDigits (digits ++ rest) = (digits.map fun c => c.val - 0x30, rest) := by
  have hnone : rest.takeWhile CodePoint.isAsciiDigit = [] ∧
      rest.dropWhile CodePoint.isAsciiDigit = rest := by
    rcases rest with - | ⟨c, rest⟩
    · exact ⟨rfl, rfl⟩
    · have hc : ¬c.isAsciiDigit = true := by rw [h.isAsciiDigit c rfl]; decide
      exact ⟨List.takeWhile_cons_of_neg hc, List.dropWhile_cons_of_neg hc⟩
  unfold takeDigits
  rw [List.takeWhile_append_of_pos hdigits, List.dropWhile_append_of_pos hdigits, hnone.1, hnone.2,
    List.append_nil]

/-- Neither a point nor an exponent comes after a whole number. -/
theorem fraction?_of_closes (h : Closes rest) : fraction? rest = none := by
  rcases rest with - | ⟨c, rest⟩
  · rfl
  · have hc : decide (c = 0x2E) = false := by rcases h c rfl with rfl | rfl | rfl <;> decide
    unfold fraction?
    dsimp only
    rw [hc, Bool.false_and]
    rfl

theorem power?_of_closes (h : Closes rest) : power? rest = none := by
  rcases rest with - | ⟨c, rest⟩
  · rfl
  · have hc : (decide (c = 0x65) || decide (c = 0x45)) = false := by
      rcases h c rfl with rfl | rfl | rfl <;> decide
    unfold power?
    dsimp only
    rw [hc]
    rfl

/-- The digits of a number are a whole part. -/
theorem wholePart?_ofNat (n : Nat) (h : Closes rest) :
    wholePart? (Decimal.ofNat n ++ rest) =
      some ((Decimal.ofNat n).map fun c => c.val - 0x30, rest) := by
  by_cases hzero : n = 0
  · subst hzero
    rfl
  · have htake := takeDigits_append (Decimal.isAsciiDigit_of_mem_ofNat n) h
    have hhead := Decimal.head?_ofNat hzero
    rcases hdigits : Decimal.ofNat n with - | ⟨c, digits⟩
    · exact absurd hdigits (Decimal.ofNat_ne_nil n)
    · rw [hdigits, List.cons_append] at htake
      rw [hdigits] at hhead
      have hne : c ≠ 0x30 := fun heq => hhead (by rw [heq]; rfl)
      unfold wholePart?
      rw [List.cons_append]
      dsimp only
      rw [if_neg hne, htake]
      rfl

/-- A number is read from its digits, if they are not too many. -/
theorem readNumber_ofNat (hn : (Decimal.ofNat n).length ≤ Decimal.maxDigits) (h : Closes rest)
    (negative : Bool) :
    readNumber negative (Decimal.ofNat n ++ rest) =
      .ok (.int (if negative then -(n : Int) else n), rest) := by
  have hvalue : Decimal.ofDigits? ((Decimal.ofNat n).map fun c => c.val - 0x30) = .ok n := by
    unfold Decimal.ofDigits?
    rw [List.length_map, if_pos hn, Decimal.ofDigits_ofNat]
  unfold readNumber
  rw [wholePart?_ofNat n h]
  dsimp only
  rw [fraction?_of_closes h]
  dsimp only [Option.getD_none]
  rw [power?_of_closes h]
  dsimp only
  rw [hvalue]

/-- The names of values begin with two code points that are no digits. -/
theorem exists_of_mem_names : ∀ e ∈ names, ∃ a b t, e.1 = a :: b :: t ∧ a.isAsciiDigit = false ∧
    b.isAsciiDigit = false := by
  intro e he
  simp only [names, List.mem_cons, List.not_mem_nil, or_false] at he
  rcases he with rfl | rfl | rfl | rfl | rfl | rfl <;> exact ⟨_, _, _, rfl, by decide, by decide⟩

/-- What begins with a digit is no name, nor is what begins with a minus and a digit. -/
theorem names_eq_none {c : CodePoint} {t : Text} (hc : c.isAsciiDigit = true) :
    (names.findSome? fun (name, value) => (Text.after? name (c :: t)).map (value, ·)) = none ∧
      (names.findSome? fun (name, value) => (Text.after? name (0x2D :: c :: t)).map (value, ·)) =
        none := by
  have hne {a : CodePoint} (ha : a.isAsciiDigit = false) : a ≠ c := by
    rintro rfl
    rw [hc] at ha
    cases ha
  simp only [List.findSome?_eq_none_iff, Option.map_eq_none_iff]
  constructor
  · rintro ⟨name, value⟩ he
    obtain ⟨a, b, s, rfl, ha, -⟩ := exists_of_mem_names _ he
    exact if_neg (hne ha)
  · rintro ⟨name, value⟩ he
    obtain ⟨a, b, s, rfl, -, hb⟩ := exists_of_mem_names _ he
    rw [Text.after?]
    split
    · exact if_neg (hne hb)
    · rfl

/-- A whole number is read from its text. -/
theorem readAtom_ofInt {n : Int} (hn : (Decimal.ofNat n.natAbs).length ≤ Decimal.maxDigits)
    (h : Closes rest) : readAtom (Decimal.ofInt n ++ rest) = .ok (.int n, rest) := by
  obtain ⟨c, digits, hdigits⟩ := List.exists_cons_of_ne_nil (Decimal.ofNat_ne_nil n.natAbs)
  have hc : c.isAsciiDigit = true :=
    Decimal.isAsciiDigit_of_mem_ofNat n.natAbs c (by rw [hdigits]; exact List.mem_cons_self)
  obtain ⟨hplain, hminus⟩ := names_eq_none (t := digits ++ rest) hc
  have hread (negative : Bool) := readNumber_ofNat hn h negative
  rw [hdigits, List.cons_append] at hread
  unfold Decimal.ofInt
  rw [hdigits]
  split
  · next hneg =>
    unfold readAtom
    rw [List.cons_append, List.cons_append, hminus]
    dsimp only
    rw [if_pos rfl, hread, if_pos rfl, show -(n.natAbs : Int) = n by omega]
  · next hpos =>
    have hsign : c ≠ 0x2D := by
      rintro rfl
      exact absurd hc (by decide)
    unfold readAtom
    rw [List.cons_append, hplain]
    dsimp only
    rw [if_neg hsign, hread, if_neg Bool.false_ne_true, show (n.natAbs : Int) = n by omega]

/-! ### Values without parts -/

/-- A text or a whole number. -/
def IsPlain : Json → Prop
  | .text _ | .int _ => True
  | _ => False

/-- A text with its pairs joined, or another value as it is. -/
def joined : Json → Json
  | .text t => .text (Utf16.joined t)
  | value => value

/-- No pair stands in the value, if it is a text. -/
def Unpaired : Json → Prop
  | .text t => Utf16.Unpaired t
  | _ => True

theorem joined_eq_self {value : Json} (h : value.Unpaired) : value.joined = value := by
  cases value with
  | text t => exact congrArg Json.text (Utf16.joined_eq_self_iff.mpr h)
  | _ => rfl

/-- A text or a whole number is read back. -/
theorem readValue_write {value : Json} (hplain : value.IsPlain) (hwritable : value.isWritable = true)
    (h : Closes rest) (limit fuel depth : Nat) :
    readValue limit (fuel + 1) depth (value.write ++ rest) = .ok (value.joined, rest) := by
  cases value with
  | text t =>
    rw [write, writeText, List.append_assoc, List.append_assoc]
    show readValue limit (fuel + 1) depth (0x22 :: (t.flatMap writePoint ++ 0x22 :: rest)) = _
    rw [readValue]
    dsimp only
    rw [if_pos rfl, readText_write]
    rfl
  | int n =>
    have hatom := readAtom_ofInt (Decimal.isOk_text?_iff.mp hwritable) h
    obtain ⟨c, t, hnumeral, hc⟩ := Decimal.exists_ofInt_eq_cons n
    have hne : c ≠ 0x22 ∧ c ≠ 0x5B ∧ c ≠ 0x7B := by
      refine ⟨?_, ?_, ?_⟩
      all_goals
        rintro rfl
        exact absurd hc (by decide)
    rw [write]
    rw [hnumeral, List.cons_append] at hatom ⊢
    rw [readValue]
    dsimp only
    rw [if_neg hne.1, if_neg hne.2.1, if_neg hne.2.2, hatom]
    rfl
  | _ => exact hplain.elim

/-! ### Objects -/

/-- An object is written if the values of its entries are. -/
theorem entriesWritable_iff {entries : List (Text × Json)} :
    entriesWritable entries = true ↔ ∀ e ∈ entries, e.2.isWritable = true := by
  induction entries with
  | nil => exact ⟨fun _ e he => absurd he List.not_mem_nil, fun _ => rfl⟩
  | cons entry entries ih =>
    obtain ⟨name, value⟩ := entry
    rw [entriesWritable, Bool.and_eq_true, ih, List.forall_mem_cons]

theorem skipSpace_blank (t : Text) : skipSpace (0x20 :: t) = skipSpace t :=
  List.dropWhile_cons_of_pos (by decide)

/-- What closes is no white space. -/
theorem skipSpace_of_closes {c : CodePoint} {t : Text} (h : Closes (c :: t)) :
    skipSpace (c :: t) = c :: t := by
  refine List.dropWhile_cons_of_neg ?_
  rcases h c rfl with rfl | rfl | rfl <;> decide

/-- A value does not begin with white space. -/
theorem skipSpace_write {value : Json} (hplain : value.IsPlain) (rest : Text) :
    skipSpace (value.write ++ rest) = value.write ++ rest := by
  cases value with
  | text t => rfl
  | int n =>
    obtain ⟨c, t, hnumeral, hc⟩ := Decimal.exists_ofInt_eq_cons n
    rw [write, hnumeral, List.cons_append]
    refine List.dropWhile_cons_of_neg fun hspace => ?_
    simp only [Bool.or_eq_true, decide_eq_true_eq] at hspace
    rcases hspace with ((rfl | rfl) | rfl) | rfl <;> exact absurd hc (by decide)
  | _ => exact hplain.elim

/-- An entry is read back, and how it goes on is decided by what comes next. -/
theorem readEntries_entry {value : Json} (hplain : value.IsPlain) (hwritable : value.isWritable = true)
    {e : CodePoint} {t : Text} (h : Closes (e :: t)) (name : Text) (limit fuel depth : Nat) :
    readEntries limit (fuel + 2) depth
        (writeText name ++ 0x3A :: 0x20 :: (value.write ++ e :: t)) =
      if e = 0x7D then .ok ([(Utf16.joined name, value.joined)], t)
      else if e = 0x2C then
        (readEntries limit (fuel + 1) depth (skipSpace t)).map fun (entries, tail) =>
          ((Utf16.joined name, value.joined) :: entries, tail)
      else .error .malformed := by
  have hname := readText_write name (0x3A :: 0x20 :: (value.write ++ e :: t))
  have hcolon : skipSpace (0x3A :: 0x20 :: (value.write ++ e :: t)) =
      0x3A :: 0x20 :: (value.write ++ e :: t) := rfl
  have hvalue := readValue_write hplain hwritable h limit fuel depth
  rw [writeText, List.append_assoc, List.append_assoc, List.singleton_append, List.singleton_append]
  rw [readEntries.eq_def]
  dsimp only
  rw [if_neg (by decide), hname]
  dsimp only
  rw [hcolon]
  dsimp only
  rw [if_neg (by decide), skipSpace_blank, skipSpace_write hplain, hvalue]
  dsimp only
  rw [skipSpace_of_closes h]

variable {entries : List (Text × Json)}

/-- Entries do not begin with white space. -/
theorem skipSpace_writeEntries (entry : Text × Json) (entries : List (Text × Json)) (rest : Text) :
    skipSpace (writeEntries (entry :: entries) ++ rest) = writeEntries (entry :: entries) ++ rest := by
  obtain ⟨name, value⟩ := entry
  rcases entries with - | ⟨next, entries⟩ <;> rfl

theorem writeEntries_cons (name : Text) (value : Json) (next : Text × Json)
    (entries : List (Text × Json)) :
    writeEntries ((name, value) :: next :: entries) =
      writeText name ++ [0x3A, 0x20] ++ write value ++ [0x2C, 0x20] ++
        writeEntries (next :: entries) := rfl

/-- Entries are read back one after the other, up to the brace that closes them. -/
theorem readEntries_write (hne : entries ≠ []) (hplain : ∀ e ∈ entries, e.2.IsPlain)
    (hwritable : entriesWritable entries = true) (rest : Text) (limit depth : Nat) :
    ∀ fuel, entries.length + 1 ≤ fuel →
      readEntries limit fuel depth (writeEntries entries ++ 0x7D :: rest) =
        .ok (entries.map fun (name, value) => (Utf16.joined name, value.joined), rest) := by
  induction entries with
  | nil => exact absurd rfl hne
  | cons entry entries ih =>
    obtain ⟨name, value⟩ := entry
    obtain ⟨hvalue, hentries⟩ := List.forall_mem_cons.mp hplain
    obtain ⟨hfirst, hrest⟩ := Bool.and_eq_true_iff.mp hwritable
    rintro (- | - | fuel) hfuel
    · exact absurd hfuel (by simp)
    · exact absurd hfuel (by simp)
    rcases entries with - | ⟨next, entries⟩
    · have hentry := readEntries_entry hvalue hfirst (e := 0x7D) (t := rest)
        (by simp [Closes]) name limit fuel depth
      rw [if_pos rfl] at hentry
      rw [writeEntries, List.append_assoc, List.append_assoc]
      exact hentry
    · have hentry := readEntries_entry hvalue hfirst (e := 0x2C)
        (t := 0x20 :: (writeEntries (next :: entries) ++ 0x7D :: rest))
        (by simp [Closes]) name limit fuel depth
      have hnext := ih (List.cons_ne_nil _ _) hentries hrest (fuel + 1) (by simpa using hfuel)
      rw [if_neg (by decide), if_pos rfl, skipSpace_blank, skipSpace_writeEntries, hnext] at hentry
      rw [writeEntries_cons, List.append_assoc, List.append_assoc, List.append_assoc, List.append_assoc]
      exact hentry

/-- An entry is not written in nothing. -/
theorem length_le_writeEntries (entries : List (Text × Json)) :
    entries.length ≤ (writeEntries entries).length := by
  induction entries with
  | nil => exact Nat.zero_le _
  | cons entry entries ih =>
    obtain ⟨name, value⟩ := entry
    rcases entries with - | ⟨next, entries⟩
    · simp only [writeEntries, List.length_append, List.length_cons]
      omega
    · rw [writeEntries_cons]
      simp only [List.length_append, List.length_cons] at ih ⊢
      omega

/-- An object is read back from its entries. -/
theorem readValue_object (hne : entries ≠ []) (hplain : ∀ e ∈ entries, e.2.IsPlain)
    (hwritable : (Json.object entries).isWritable = true) {fuel : Nat}
    (hfuel : entries.length + 1 ≤ fuel) (rest : Text) :
    readValue maxDepth (fuel + 1) 0 (0x7B :: (writeEntries entries ++ 0x7D :: rest)) =
      .ok (ofEntries (entries.map fun (name, value) => (Utf16.joined name, value.joined)), rest) := by
  obtain ⟨first, others, rfl⟩ := List.exists_cons_of_ne_nil hne
  have hentries := readEntries_write hne hplain hwritable rest maxDepth 1 fuel hfuel
  have hspace := skipSpace_writeEntries first others (0x7D :: rest)
  obtain ⟨t, ht⟩ : ∃ t, writeEntries (first :: others) ++ 0x7D :: rest = 0x22 :: t := by
    obtain ⟨name, value⟩ := first
    rcases others with - | ⟨next, others⟩ <;> exact ⟨_, rfl⟩
  rw [ht] at hentries hspace
  rw [ht, readValue]
  dsimp only
  rw [if_neg (by decide), if_neg (by decide), if_pos rfl, if_neg (by decide), hspace]
  dsimp only
  rw [if_neg (by decide), hentries]
  rfl

/-- An object of texts and whole numbers that are written is read back with the pairs in its texts
joined, if no name stands twice in it then. -/
theorem read_write (hne : entries ≠ []) (hplain : ∀ e ∈ entries, e.2.IsPlain)
    (hwritable : (Json.object entries).isWritable = true)
    (hnodup : (entries.map fun e => Utf16.joined e.1).Nodup) :
    read (Json.object entries).write =
      .ok (.object (entries.map fun (name, value) => (Utf16.joined name, value.joined))) := by
  have hwrite : (Json.object entries).write = 0x7B :: (writeEntries entries ++ [0x7D]) := by
    rw [write, List.singleton_append, List.cons_append]
  have hlength : entries.length + 1 ≤ 2 * (Json.object entries).write.length + 1 := by
    have hle := length_le_writeEntries entries
    rw [hwrite, List.length_cons, List.length_append]
    omega
  have hvalue := readValue_object hne hplain hwritable hlength []
  rw [← hwrite] at hvalue
  have hobject : ofEntries (entries.map fun (name, value) => (Utf16.joined name, value.joined)) =
      .object (entries.map fun (name, value) => (Utf16.joined name, value.joined)) := by
    refine congrArg Json.object (Table.putAll_of_nodup (t := []) ?_)
    unfold Table.names
    rw [List.nil_append, List.map_map]
    exact hnodup
  have hspace : skipSpace (Json.object entries).write = (Json.object entries).write := by
    rw [hwrite]
    rfl
  unfold read readWithin
  rw [hspace, hvalue, hobject]
  rfl

/-! ### Printable ASCII -/

theorem printable_ofInt (n : Int) : ∀ c ∈ Decimal.ofInt n, c.IsPrintable := by
  have hdigit {c : CodePoint} (hc : c.isAsciiDigit = true) : c.IsPrintable := by
    simp only [CodePoint.isAsciiDigit, Bool.and_eq_true, decide_eq_true_eq] at hc
    exact ⟨by omega, by omega⟩
  have hnat := Decimal.isAsciiDigit_of_mem_ofNat n.natAbs
  intro c hc
  unfold Decimal.ofInt at hc
  split at hc
  · rcases List.mem_cons.mp hc with rfl | hc
    · decide
    · exact hdigit (hnat c hc)
  · exact hdigit (hnat c hc)

theorem printable_write_of_isPlain {value : Json} (h : value.IsPlain) :
    ∀ c ∈ value.write, c.IsPrintable := by
  cases value with
  | text t =>
    rw [write]
    exact printable_writeText t
  | int n =>
    rw [write]
    exact printable_ofInt n
  | _ => exact h.elim

theorem printable_writeEntries (hplain : ∀ e ∈ entries, e.2.IsPlain) :
    ∀ c ∈ writeEntries entries, c.IsPrintable := by
  have hcolon : ∀ c ∈ [(0x3A : CodePoint), 0x20], c.IsPrintable :=
    printable_pair (by decide) (by decide)
  have hcomma : ∀ c ∈ [(0x2C : CodePoint), 0x20], c.IsPrintable :=
    printable_pair (by decide) (by decide)
  induction entries with
  | nil => exact fun c hc => absurd hc List.not_mem_nil
  | cons entry entries ih =>
    obtain ⟨name, value⟩ := entry
    obtain ⟨hvalue, hentries⟩ := List.forall_mem_cons.mp hplain
    have hentry := printable_append (printable_append (printable_writeText name) hcolon)
      (printable_write_of_isPlain hvalue)
    rcases entries with - | ⟨next, entries⟩
    · exact hentry
    · rw [writeEntries_cons]
      exact printable_append (printable_append hentry hcomma) (ih hentries)

/-- An object of texts and whole numbers is written in printable ASCII. -/
theorem printable_write (hplain : ∀ e ∈ entries, e.2.IsPlain) :
    ∀ c ∈ (Json.object entries).write, c.IsPrintable := by
  rw [write]
  exact printable_append
    (printable_append (printable_singleton (by decide)) (printable_writeEntries hplain))
    (printable_singleton (by decide))

end SshAuthority.Json
