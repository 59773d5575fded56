/-
SshAuthority/Proofs/Config/Grammar.lean

The texts that are durations, and their exact values.

A duration is written as pieces one after the other, each a number with a unit (`Piece`).
The reader takes the piece at the start of a text, and units begin each other; it never
takes a wrong one, because a piece is followed by a digit, a point or nothing (`Opens`), and
none of these continues a unit. So pieces that stand in a text are found one after the other
(`part?_append`), whatever the reader takes is a piece (`exists_piece_of_part?`), and no text
is made up of pieces in two ways.

Main result: `grammar_of_read`.
-/
import SshAuthority.Config.Duration
import SshAuthority.Outcome
import SshAuthority.Proofs.Number.Truncation
import SshAuthority.Proofs.Text.Append

namespace SshAuthority.Duration

/-! ### Pieces -/

/-- A number with its unit, as it is written: the digits before the point, those after it where there
is a point, and the name and the length of the unit. At least one digit has to be there. -/
@[ext] structure Piece where
  whole : Text
  fraction : Option Text
  unit : Text
  size : Nat
  isDigit : ∀ c ∈ whole ++ fraction.getD [], c.isDigit = true
  ne_nil : whole ++ fraction.getD [] ≠ []
  mem_units : (unit, size) ∈ units

/-- The values of digits. -/
def values (t : Text) : List Nat := t.filterMap CodePoint.digit?

namespace Piece

/-- The digits after the point. -/
def decimals (p : Piece) : Text := p.fraction.getD []

/-- What follows the digits before the point. -/
def tail (p : Piece) : Text := p.fraction.elim p.unit fun digits => 0x2E :: digits ++ p.unit

def text (p : Piece) : Text := p.whole ++ p.tail

/-- Neither before nor after the point there are more digits than are read as one number. -/
def Short (p : Piece) : Prop :=
  p.whole.length ≤ Decimal.maxDigits ∧ p.decimals.length ≤ Decimal.maxDigits

/-- The exact value, in nanoseconds: of all the digits, as many count for less than one as stand after
the point. -/
def nanoseconds (p : Piece) : Rat :=
  (Decimal.ofDigits (values (p.whole ++ p.decimals)) : Rat) / (10 ^ p.decimals.length : Nat) * p.size

/-- What the reader makes of it. -/
def part (p : Piece) : Part := ⟨values p.whole, values p.decimals, p.size⟩

end Piece

/-- The text of pieces that are written one after the other. -/
def joined (ps : List Piece) : Text := ps.flatMap Piece.text

/-- What pieces amount to together, in nanoseconds. -/
def total : List Piece → Rat
  | [] => 0
  | p :: ps => p.nanoseconds + total ps

/-- What a text without a sign amounts to, in nanoseconds: a zero alone needs no unit, and pieces add
up. -/
inductive Amount : Text → Rat → Prop
  | zero : Amount "0" 0
  | pieces (ps : List Piece) (ne_nil : ps ≠ []) (short : ∀ p ∈ ps, p.Short) :
      Amount (joined ps) (total ps)

/-- What a text amounts to, after one sign or without any. -/
inductive Signed : Text → Rat → Prop
  | none {t : Text} {x : Rat} (h : Amount t x) : Signed t x
  | plus {t : Text} {x : Rat} (h : Amount t x) : Signed (0x2B :: t) x
  | minus {t : Text} {x : Rat} (h : Amount t x) : Signed (0x2D :: t) (-x)

/-! ### Digits -/

/-- The text does not begin with a digit. -/
def Halts (t : Text) : Prop := ∀ c ∈ t.head?, c.digit? = none

theorem length_values {t : Text} (h : ∀ c ∈ t, c.isDigit = true) : (values t).length = t.length := by
  induction t with
  | nil => rfl
  | cons c t ih =>
    obtain ⟨d, hd⟩ := Option.isSome_iff_exists.mp (h c List.mem_cons_self)
    have hvalues : values (c :: t) = d :: values t := List.filterMap_cons_some hd
    rw [hvalues, List.length_cons, ih fun c hc => h c (List.mem_cons_of_mem _ hc), List.length_cons]

theorem values_append (s t : Text) : values (s ++ t) = values s ++ values t := List.filterMap_append

/-- Digits are taken until something else comes. -/
theorem digitRun_append {s t : Text} (hs : ∀ c ∈ s, c.isDigit = true) (ht : Halts t) :
    digitRun (s ++ t) = (values s, t) := by
  induction s with
  | nil =>
    rcases t with - | ⟨c, t⟩
    · rfl
    · rw [List.nil_append, digitRun, ht c rfl]
      rfl
  | cons c s ih =>
    obtain ⟨d, hd⟩ := Option.isSome_iff_exists.mp (hs c List.mem_cons_self)
    have hvalues : values (c :: s) = d :: values s := List.filterMap_cons_some hd
    rw [List.cons_append, digitRun, hd]
    dsimp only
    rw [ih fun c hc => hs c (List.mem_cons_of_mem _ hc), hvalues]

/-- What is taken are digits. -/
theorem exists_digits_of_digitRun (t : Text) :
    ∃ s, (∀ c ∈ s, c.isDigit = true) ∧ (digitRun t).1 = values s ∧ t = s ++ (digitRun t).2 := by
  induction t with
  | nil => exact ⟨[], fun _ h => absurd h List.not_mem_nil, rfl, rfl⟩
  | cons c t ih =>
    rcases hc : c.digit? with - | d
    · refine ⟨[], fun _ h => absurd h List.not_mem_nil, ?_, ?_⟩ <;> simp [digitRun, hc, values]
    · obtain ⟨s, hs, hvalues, ht⟩ := ih
      have hcons : values (c :: s) = d :: values s := List.filterMap_cons_some hc
      refine ⟨c :: s, fun e he => ?_, ?_, ?_⟩
      · rcases List.mem_cons.mp he with rfl | he
        · exact Option.isSome_iff_exists.mpr ⟨d, hc⟩
        · exact hs e he
      · rw [digitRun, hc, hcons]
        exact congrArg (d :: ·) hvalues
      · rw [digitRun, hc]
        exact congrArg (c :: ·) ht

theorem ofDigits_append (a b : List Nat) :
    Decimal.ofDigits (a ++ b) = Decimal.ofDigits a * 10 ^ b.length + Decimal.ofDigits b := by
  have hfold (b : List Nat) : ∀ n : Nat, b.foldl (fun n d => n * 10 + d) n =
      n * 10 ^ b.length + b.foldl (fun n d => n * 10 + d) 0 := by
    induction b with
    | nil => intro n; simp
    | cons d b ih =>
      intro n
      rw [List.foldl_cons, List.foldl_cons, ih, ih (0 * 10 + d), List.length_cons, Nat.pow_succ]
      grind
  unfold Decimal.ofDigits
  rw [List.foldl_append, hfold]

/-! ### Units -/

/-- How a text begins that can follow a piece. -/
def Opens (t : Text) : Prop := ∀ c ∈ t.head?, c.isDigit = true ∨ c = 0x2E

/-- A unit is found where nothing follows that belongs to a longer one. -/
theorem unit?_append {name t : Text} {size : Nat} (hname : (name, size) ∈ units) (ht : Opens t) :
    unit? (name ++ t) = some (size, t) := by
  simp only [units, List.mem_cons, Prod.mk.injEq, List.not_mem_nil, or_false] at hname
  rcases hname with ⟨rfl, rfl⟩ | ⟨rfl, rfl⟩ | ⟨rfl, rfl⟩ | ⟨rfl, rfl⟩ | ⟨rfl, rfl⟩ | ⟨rfl, rfl⟩ |
    ⟨rfl, rfl⟩ | ⟨rfl, rfl⟩
  case inr.inr.inr.inr.inr.inr.inl =>
    -- of all units only the minutes begin another one, the milliseconds
    rcases t with - | ⟨c, t⟩
    · rfl
    · have hne : (0x73 : CodePoint) ≠ c := by
        rintro rfl
        exact absurd (ht 0x73 rfl) (by decide)
      have hmilli : Text.after? "ms" (("m" : Text) ++ c :: t) = none := if_neg hne
      unfold unit? units
      simp only [List.findSome?_cons, hmilli]
      rfl
  all_goals rfl

/-- What is found is a unit. -/
theorem exists_name_of_unit? {t rest : Text} {size : Nat} (h : unit? t = some (size, rest)) :
    ∃ name, (name, size) ∈ units ∧ t = name ++ rest := by
  obtain ⟨⟨name, size'⟩, hmem, hfound⟩ := List.exists_of_findSome?_eq_some h
  obtain ⟨rest', hafter, heq⟩ := Option.map_eq_some_iff.mp hfound
  obtain ⟨rfl, rfl⟩ := Prod.mk.inj heq
  exact ⟨name, hmem, Text.after?_eq_some_iff.mp hafter⟩

/-! ### One piece -/

/-- The digits after a point at the start of a text, and the rest. -/
def fractionRun : Text → List Nat × Text
  | c :: t => if c = 0x2E then digitRun t else ([], c :: t)
  | [] => ([], [])

/-- A part is read in three steps, and has a digit. -/
theorem part?_eq_some_iff {t rest : Text} {part : Part} :
    part? t = some (part, rest) ↔
      (part.whole.isEmpty && part.fraction.isEmpty) = false ∧
      ∃ middle last, digitRun t = (part.whole, middle) ∧ fractionRun middle = (part.fraction, last) ∧
        unit? last = some (part.unit, rest) := by
  have hpart : part? t =
      if (digitRun t).1.isEmpty && (fractionRun (digitRun t).2).1.isEmpty then none
      else (unit? (fractionRun (digitRun t).2).2).bind fun u =>
        some (⟨(digitRun t).1, (fractionRun (digitRun t).2).1, u.1⟩, u.2) := by
    unfold part?
    rcases digitRun t with ⟨whole, - | ⟨c, more⟩⟩ <;> rfl
  rw [hpart]
  constructor
  · intro h
    split at h
    · cases h
    · next hne =>
      obtain ⟨⟨unit, rest⟩, hunit, heq⟩ := Option.bind_eq_some_iff.mp h
      obtain ⟨rfl, rfl⟩ := Prod.mk.inj (Option.some.inj heq)
      exact ⟨Bool.eq_false_iff.mpr hne, _, _, rfl, rfl, hunit⟩
  · rintro ⟨hne, middle, last, hwhole, hfraction, hunit⟩
    rw [hwhole]
    dsimp only
    rw [hfraction]
    dsimp only
    rw [if_neg (Bool.eq_false_iff.mp hne), hunit]
    rfl

namespace Piece

variable (p : Piece)

theorem isDigit_whole : ∀ c ∈ p.whole, c.isDigit = true :=
  fun c hc => p.isDigit c (List.mem_append_left _ hc)

theorem isDigit_decimals : ∀ c ∈ p.decimals, c.isDigit = true :=
  fun c hc => p.isDigit c (List.mem_append_right _ hc)

/-- A unit begins with a letter. -/
theorem exists_unit_cons : ∃ c t, p.unit = c :: t ∧ c.digit? = none ∧ c ≠ 0x2E := by
  have hletter : ∀ u ∈ units, ∃ c t, u.1 = c :: t ∧ c.digit? = none ∧ c ≠ 0x2E := by
    intro u hu
    simp only [units, List.mem_cons, List.not_mem_nil, or_false] at hu
    rcases hu with rfl | rfl | rfl | rfl | rfl | rfl | rfl | rfl <;>
      exact ⟨_, _, rfl, by decide, by decide⟩
  exact hletter _ p.mem_units

theorem halts_unit (t : Text) : Halts (p.unit ++ t) := by
  obtain ⟨c, u, hu, hc, -⟩ := p.exists_unit_cons
  intro d hd
  rw [hu] at hd
  obtain rfl : c = d := Option.some.inj hd
  exact hc

variable {p} in
theorem tail_of_none (h : p.fraction = none) : p.tail = p.unit := by
  rw [tail, h]
  rfl

variable {p} in
theorem tail_of_some {digits : Text} (h : p.fraction = some digits) :
    p.tail = 0x2E :: (digits ++ p.unit) := by
  rw [tail, h]
  rfl

theorem halts_tail (t : Text) : Halts (p.tail ++ t) := by
  rcases hfraction : p.fraction with - | digits
  · rw [tail_of_none hfraction]
    exact p.halts_unit t
  · rw [tail_of_some hfraction]
    intro d hd
    obtain rfl : (0x2E : CodePoint) = d := Option.some.inj hd
    decide

/-- Pieces may follow each other. -/
theorem opens_text (t : Text) : Opens (p.text ++ t) := by
  rcases hwhole : p.whole with - | ⟨c, w⟩
  · rcases hfraction : p.fraction with - | digits
    · exact absurd (by rw [hwhole, hfraction]; rfl) p.ne_nil
    · rw [text, hwhole, tail_of_some hfraction]
      exact fun d hd => .inr (Option.some.inj hd).symm
  · have hc := p.isDigit_whole c (by rw [hwhole]; exact List.mem_cons_self)
    rw [text, hwhole]
    intro d hd
    obtain rfl : c = d := Option.some.inj hd
    exact .inl hc

theorem text_ne_nil : p.text ≠ [] := by
  obtain ⟨c, u, hu, -⟩ := p.exists_unit_cons
  rcases hfraction : p.fraction with - | digits
  · simp [text, tail_of_none hfraction, hu]
  · simp [text, tail_of_some hfraction]

/-- Some digit is there for the reader, too. -/
theorem digits_part : (p.part.whole.isEmpty && p.part.fraction.isEmpty) = false := by
  have hpos : 0 < (values (p.whole ++ p.decimals)).length := by
    rw [decimals, length_values p.isDigit]
    exact List.length_pos_iff.mpr p.ne_nil
  rw [values_append, List.length_append] at hpos
  rw [Bool.and_eq_false_iff, List.isEmpty_eq_false_iff_exists_mem, List.isEmpty_eq_false_iff_exists_mem,
    ← List.length_pos_iff_exists_mem, ← List.length_pos_iff_exists_mem]
  exact Nat.add_pos_iff_pos_or_pos.mp hpos

theorem fractionRun_tail (t : Text) :
    fractionRun (p.tail ++ t) = (values p.decimals, p.unit ++ t) := by
  rcases hfraction : p.fraction with - | digits
  · obtain ⟨c, u, hu, -, hpoint⟩ := p.exists_unit_cons
    have hdecimals : p.decimals = [] := by rw [decimals, hfraction]; rfl
    rw [tail_of_none hfraction, hdecimals, hu]
    exact if_neg hpoint
  · have hdecimals : p.decimals = digits := by rw [decimals, hfraction]; rfl
    have hdigits := p.isDigit_decimals
    rw [hdecimals] at hdigits
    rw [tail_of_some hfraction, hdecimals, List.cons_append, List.append_assoc, fractionRun, if_pos rfl]
    exact digitRun_append hdigits (p.halts_unit t)

end Piece

/-- A piece is taken from the start of a text where nothing follows that could belong to it. -/
theorem part?_append (p : Piece) {t : Text} (ht : Opens t) :
    part? (p.text ++ t) = some (p.part, t) := by
  refine part?_eq_some_iff.mpr ⟨p.digits_part, p.tail ++ t, p.unit ++ t, ?_, p.fractionRun_tail t,
    unit?_append p.mem_units ht⟩
  rw [Piece.text, List.append_assoc]
  exact digitRun_append p.isDigit_whole (p.halts_tail t)

/-- What follows the digits before the point is a point with digits, or none. -/
theorem exists_fraction_of_fractionRun (t : Text) :
    ∃ fraction : Option Text, (∀ c ∈ fraction.getD [], c.isDigit = true) ∧
      (fractionRun t).1 = values (fraction.getD []) ∧
      t = (fraction.elim [] fun digits => 0x2E :: digits) ++ (fractionRun t).2 := by
  rcases t with - | ⟨c, t⟩
  · exact ⟨none, fun _ h => absurd h List.not_mem_nil, rfl, rfl⟩
  by_cases hpoint : c = 0x2E
  · obtain ⟨digits, hdigits, hvalues, ht⟩ := exists_digits_of_digitRun t
    refine ⟨some digits, hdigits, ?_, ?_⟩
    · rw [fractionRun, if_pos hpoint]
      exact hvalues
    · rw [fractionRun, if_pos hpoint, hpoint]
      exact congrArg ((0x2E : CodePoint) :: ·) ht
  · refine ⟨none, fun _ h => absurd h List.not_mem_nil, ?_, ?_⟩ <;> rw [fractionRun, if_neg hpoint]
    · rfl
    · rfl

/-- What is taken is a piece. -/
theorem exists_piece_of_part? {t rest : Text} {part : Part} (h : part? t = some (part, rest)) :
    ∃ p : Piece, p.part = part ∧ t = p.text ++ rest := by
  obtain ⟨hne, middle, last, hwhole, hfraction, hunit⟩ := part?_eq_some_iff.mp h
  obtain ⟨whole, hwholeDigits, hwholeValues, ht⟩ := exists_digits_of_digitRun t
  obtain ⟨fraction, hdigits, hvalues, hmiddle⟩ := exists_fraction_of_fractionRun middle
  obtain ⟨name, hname, hlast⟩ := exists_name_of_unit? hunit
  rw [hwhole] at hwholeValues ht
  rw [hfraction] at hvalues hmiddle
  dsimp only at hwholeValues ht hvalues hmiddle
  have hall : ∀ c ∈ whole ++ fraction.getD [], c.isDigit = true := fun c hc =>
    (List.mem_append.mp hc).elim (hwholeDigits c) (hdigits c)
  have hsome : whole ++ fraction.getD [] ≠ [] := by
    intro hnil
    obtain ⟨rfl, hfractionNil⟩ := List.append_eq_nil_iff.mp hnil
    rw [hfractionNil] at hvalues
    rw [hwholeValues, hvalues] at hne
    exact absurd hne (by decide)
  refine ⟨⟨whole, fraction, name, part.unit, hall, hsome, hname⟩, ?_, ?_⟩
  · show (⟨values whole, values (fraction.getD []), part.unit⟩ : Part) = part
    rw [← hwholeValues, ← hvalues]
  · rw [ht, hmiddle, hlast]
    rcases fraction with - | digits <;> simp [Piece.text, Piece.tail]

/-- The value of a piece is computed where none of its numbers is too long. -/
theorem Piece.nanoseconds?_eq_ok_iff (p : Piece) {x : Rat} :
    p.part.nanoseconds? = .ok x ↔ p.Short ∧ x = p.nanoseconds := by
  have hwhole := length_values p.isDigit_whole
  have hdecimals := length_values p.isDigit_decimals
  have hpow : ((10 ^ p.decimals.length : Nat) : Rat) ≠ 0 :=
    fun h => Nat.ne_of_gt (Nat.pow_pos (by decide)) (Rat.natCast_eq_zero_iff.mp h)
  have hvalue : ((Decimal.ofDigits (values p.whole) : Rat) +
      mkRat (Decimal.ofDigits (values p.decimals)) (10 ^ p.decimals.length)) * p.size =
      p.nanoseconds := by
    unfold nanoseconds
    rw [values_append, ofDigits_append, hdecimals, Rat.natCast_add, Rat.natCast_mul, Rat.mkRat_eq_div,
      Rat.intCast_natCast]
    generalize ((10 ^ p.decimals.length : Nat) : Rat) = scale at hpow
    grind
  unfold Part.nanoseconds? Decimal.ofDigits? part
  dsimp only
  rw [hwhole, hdecimals]
  constructor
  · intro h
    split at h
    · split at h
      · exact ⟨⟨‹_›, ‹_›⟩, (Except.ok.inj h).symm.trans hvalue⟩
      · cases h
    · cases h
  · rintro ⟨⟨hshortWhole, hshortDecimals⟩, rfl⟩
    rw [if_pos hshortWhole, if_pos hshortDecimals]
    exact congrArg Except.ok hvalue

/-! ### One piece after the other -/

theorem opens_joined (ps : List Piece) : Opens (joined ps) := by
  rcases ps with - | ⟨p, ps⟩
  · intro c hc
    cases hc
  · exact p.opens_text (joined ps)

theorem joined_cons (p : Piece) (ps : List Piece) : joined (p :: ps) = p.text ++ joined ps :=
  List.flatMap_cons

/-- The reader computes a sum only of pieces. -/
theorem pieces_of_sumWithin {shown : Text} {fuel : Nat} {t : Text} {x : Rat}
    (h : sumWithin shown fuel t = .ok x) :
    ∃ ps, t = joined ps ∧ (∀ p ∈ ps, p.Short) ∧ x = total ps := by
  induction fuel generalizing t x with
  | zero =>
    rcases t with - | ⟨c, t⟩
    · exact ⟨[], rfl, fun _ h => absurd h List.not_mem_nil, (Except.ok.inj h).symm⟩
    · cases h
  | succ fuel ih =>
    by_cases hnil : t = []
    · subst hnil
      exact ⟨[], rfl, fun _ h => absurd h List.not_mem_nil, (Except.ok.inj h).symm⟩
    rw [sumWithin.eq_3 _ _ _ hnil] at h
    rcases hpart : part? t with - | ⟨part, rest⟩
    · rw [hpart] at h
      cases h
    rw [hpart] at h
    obtain ⟨size, hsize, h⟩ := Except.bind_eq_ok_iff.mp h
    obtain ⟨sum, hsum, h⟩ := Except.bind_eq_ok_iff.mp h
    obtain ⟨p, rfl, rfl⟩ := exists_piece_of_part? hpart
    obtain ⟨hshort, rfl⟩ := p.nanoseconds?_eq_ok_iff.mp (Except.mapError_eq_ok_iff.mp hsize)
    obtain ⟨ps, rfl, hps, rfl⟩ := ih hsum
    refine ⟨p :: ps, (joined_cons p ps).symm, fun q hq => ?_, (Except.pure_eq_ok_iff.mp h).symm⟩
    rcases List.mem_cons.mp hq with rfl | hq
    · exact hshort
    · exact hps q hq

/-- Of pieces that are not too long it computes the sum. -/
theorem sumWithin_joined {shown : Text} {fuel : Nat} {ps : List Piece}
    (hfuel : (joined ps).length ≤ fuel) (hshort : ∀ p ∈ ps, p.Short) :
    sumWithin shown fuel (joined ps) = .ok (total ps) := by
  induction ps generalizing fuel with
  | nil => rcases fuel with - | fuel <;> rfl
  | cons p ps ih =>
    have hpos : 0 < p.text.length := List.length_pos_iff.mpr p.text_ne_nil
    have hne : p.text ++ joined ps ≠ [] := fun h => p.text_ne_nil (List.append_eq_nil_iff.mp h).1
    rw [joined_cons, List.length_append] at hfuel
    rw [joined_cons]
    obtain ⟨fuel, rfl⟩ : ∃ rest, fuel = rest + 1 := ⟨fuel - 1, by omega⟩
    have hp := p.nanoseconds?_eq_ok_iff.mpr ⟨hshort p List.mem_cons_self, rfl⟩
    have hps : sumWithin shown fuel (joined ps) = .ok (total ps) :=
      ih (by omega) fun q hq => hshort q (List.mem_cons_of_mem _ hq)
    rw [sumWithin.eq_3 _ _ _ hne, part?_append p (opens_joined ps)]
    dsimp only
    rw [hp, hps]
    rfl

/-- A piece is known from a text that it begins, where pieces follow it. -/
theorem Piece.append_inj {p q : Piece} {s t : Text} (hs : Opens s) (ht : Opens t)
    (h : p.text ++ s = q.text ++ t) : p = q ∧ s = t := by
  have hpart : some (p.part, s) = some (q.part, t) := by
    rw [← part?_append p hs, h, part?_append q ht]
  obtain ⟨hparts, rfl⟩ := Prod.mk.inj (Option.some.inj hpart)
  have hsize : p.size = q.size := congrArg Part.unit hparts
  have htext : p.whole ++ p.tail = q.whole ++ q.tail := List.append_cancel_right h
  have htail : p.tail = q.tail := by
    have hrun := congrArg digitRun h
    rw [text, text, List.append_assoc, List.append_assoc,
      digitRun_append p.isDigit_whole (p.halts_tail s),
      digitRun_append q.isDigit_whole (q.halts_tail s)] at hrun
    exact List.append_cancel_right (Prod.mk.inj hrun).2
  have hunit : p.unit = q.unit := by
    have hrun : fractionRun (p.tail ++ s) = fractionRun (q.tail ++ s) := by rw [htail]
    rw [p.fractionRun_tail, q.fractionRun_tail] at hrun
    exact List.append_cancel_right (Prod.mk.inj hrun).2
  have hwhole : p.whole = q.whole := by
    rw [htail] at htext
    exact List.append_cancel_right htext
  have hfraction : p.fraction = q.fraction := by
    -- with the point a text is longer
    rcases hp : p.fraction with - | digits <;> rcases hq : q.fraction with - | digits'
    · rfl
    · rw [tail_of_none hp, tail_of_some hq, hunit] at htail
      have hlength := congrArg List.length htail
      simp at hlength
      omega
    · rw [tail_of_some hp, tail_of_none hq, hunit] at htail
      have hlength := congrArg List.length htail
      simp at hlength
      omega
    · rw [tail_of_some hp, tail_of_some hq, hunit] at htail
      exact congrArg some (List.append_cancel_right (List.tail_eq_of_cons_eq htail))
  exact ⟨Piece.ext hwhole hfraction hunit hsize, rfl⟩

/-- No text is made up of pieces in two ways. -/
theorem joined_injective : Function.Injective joined := by
  intro ps qs h
  induction ps generalizing qs with
  | nil =>
    rcases qs with - | ⟨q, qs⟩
    · rfl
    · exact absurd (List.append_eq_nil_iff.mp h.symm).1 q.text_ne_nil
  | cons p ps ih =>
    rcases qs with - | ⟨q, qs⟩
    · exact absurd (List.append_eq_nil_iff.mp h).1 p.text_ne_nil
    · obtain ⟨rfl, hrest⟩ := Piece.append_inj (opens_joined ps) (opens_joined qs) h
      rw [ih hrest]

/-! ### Signs -/

/-- A text that amounts to something does not begin with a sign. -/
theorem Amount.sign {t : Text} {x : Rat} (h : Amount t x) : Decimal.sign t = (false, t) := by
  rcases h with - | ⟨ps, hne, -⟩
  · rfl
  · obtain ⟨p, ps, rfl⟩ := List.exists_cons_of_ne_nil hne
    have hopens := p.opens_text (joined ps)
    have hnil : p.text ++ joined ps ≠ [] := fun h => p.text_ne_nil (List.append_eq_nil_iff.mp h).1
    rw [joined_cons]
    obtain ⟨c, t, hc⟩ := List.exists_cons_of_ne_nil hnil
    rw [hc] at hopens ⊢
    have hminus : c ≠ 0x2D := by
      rintro rfl
      exact absurd (hopens _ rfl) (by decide)
    have hplus : c ≠ 0x2B := by
      rintro rfl
      exact absurd (hopens _ rfl) (by decide)
    rw [Decimal.sign, if_neg hminus, if_neg hplus]

/-- What a text with a sign amounts to is what the rest amounts to, or the opposite. -/
theorem signed_iff {t : Text} {x : Rat} :
    Signed t x ↔ ∃ y, Amount (Decimal.sign t).2 y ∧ x = if (Decimal.sign t).1 then -y else y := by
  constructor
  · rintro (h | h | h)
    · exact ⟨x, by rw [h.sign]; exact h, by rw [h.sign]; rfl⟩
    · exact ⟨x, h, rfl⟩
    · exact ⟨_, h, rfl⟩
  · rintro ⟨y, h, hx⟩
    rcases t with - | ⟨c, t⟩
    · exact .none (hx ▸ h)
    by_cases hminus : c = 0x2D
    · subst hminus
      rw [hx]
      exact .minus h
    by_cases hplus : c = 0x2B
    · subst hplus
      rw [hx]
      exact .plus h
    · rw [Decimal.sign, if_neg hminus, if_neg hplus] at h hx
      rw [hx]
      exact .none h

/-! ### Durations -/

/-- What a body amounts to, in whole seconds. -/
theorem amount_iff (shown t : Text) {x : Rat} :
    Amount t x ↔ (t = "0" ∧ x = 0) ∨ (t ≠ "0" ∧ t ≠ [] ∧ sumWithin shown t.length t = .ok x) := by
  constructor
  · rintro (- | ⟨ps, hne, hshort⟩)
    · exact .inl ⟨rfl, rfl⟩
    · have hsum : sumWithin shown (joined ps).length (joined ps) =
          .ok (total ps) := sumWithin_joined (Nat.le_refl _) hshort
      refine .inr ⟨fun hzero => ?_, fun hnil => hne (joined_injective hnil), hsum⟩
      -- a zero alone is no piece
      rw [hzero] at hsum
      cases hsum
  · rintro (⟨rfl, rfl⟩ | ⟨-, hnil, hsum⟩)
    · exact .zero
    · obtain ⟨ps, rfl, hshort, rfl⟩ := pieces_of_sumWithin hsum
      exact .pieces ps (fun h => hnil (by rw [h]; rfl)) hshort

theorem wholeSeconds_neg (x : Rat) : wholeSeconds (-x) = -wholeSeconds x := by
  unfold wholeSeconds
  rw [Rat.div_def, Rat.neg_mul, ← Rat.div_def, Rat.wholePart_neg]

/-- A zero has no sign. -/
theorem signed_wholeSeconds_zero (negative : Bool) :
    (if negative then -wholeSeconds 0 else wholeSeconds 0) = 0 := by
  rcases negative with - | - <;> decide +kernel

/-- The sign is put before the seconds of the body. -/
theorem read_eq_ok_iff_amount {t : Text} {n : Int} :
    read t = .ok n ↔ ∃ x, Amount (Decimal.sign t.trim).2 x ∧
      n = if (Decimal.sign t.trim).1 then -wholeSeconds x else wholeSeconds x := by
  unfold read
  rcases Decimal.sign t.trim with ⟨negative, body⟩
  dsimp only
  simp only [amount_iff t body]
  constructor
  · intro h
    split at h
    · next hzero =>
      exact ⟨0, .inl ⟨hzero, rfl⟩,
        (Except.ok.inj h).symm.trans (signed_wholeSeconds_zero negative).symm⟩
    split at h
    · cases h
    · next hzero hempty =>
      obtain ⟨x, hsum, h⟩ := Except.bind_eq_ok_iff.mp h
      exact ⟨x, .inr ⟨hzero, fun hnil => hempty (List.isEmpty_iff.mpr hnil), hsum⟩,
        (Except.pure_eq_ok_iff.mp h).symm⟩
  · rintro ⟨x, ⟨rfl, rfl⟩ | ⟨hzero, hnil, hsum⟩, rfl⟩
    · rw [if_pos rfl, signed_wholeSeconds_zero]
    · rw [if_neg hzero, if_neg fun hempty => hnil (List.isEmpty_iff.mp hempty), hsum]
      rfl

/-- A text is read as the whole seconds that it amounts to. -/
theorem read_eq_ok_iff {t : Text} {n : Int} :
    read t = .ok n ↔ ∃ x, Signed t.trim x ∧ Rat.Truncates (x / 1000000000) n := by
  simp only [read_eq_ok_iff_amount, signed_iff, Rat.truncates_iff]
  constructor
  · rintro ⟨x, h, rfl⟩
    refine ⟨_, ⟨x, h, rfl⟩, ?_⟩
    split
    · exact (wholeSeconds_neg x).symm
    · rfl
  · rintro ⟨_, ⟨x, h, rfl⟩, rfl⟩
    refine ⟨x, h, ?_⟩
    split
    · exact wholeSeconds_neg x
    · rfl

/-- What a text is read as, when it is refused, and that there is one way only to take it apart. -/
theorem grammar_of_read :
    (∀ t n, read t = .ok n ↔ ∃ x, Signed t.trim x ∧ Rat.Truncates (x / 1000000000) n) ∧
      (∀ t, (∃ fault, read t = .error fault) ↔ ¬∃ x, Signed t.trim x) ∧
      Function.Injective joined := by
  refine ⟨fun t n => read_eq_ok_iff, fun t => ⟨?_, fun h => ?_⟩, joined_injective⟩
  · rintro ⟨fault, hfault⟩ ⟨x, hx⟩
    have hread := read_eq_ok_iff.mpr ⟨x, hx, Rat.truncates_wholePart _⟩
    rw [hfault] at hread
    cases hread
  · rcases hread : read t with fault | n
    · exact ⟨fault, rfl⟩
    · obtain ⟨x, hx, -⟩ := read_eq_ok_iff.mp hread
      exact absurd ⟨x, hx⟩ h

/-- The parts of a duration are added before anything is cut: two times six tenths are more than a
second. -/
theorem grammar_sample :
    ∃ x, Signed (Text.trim " -1m1ms.6s0.6s ") x ∧ Rat.Truncates (x / 1000000000) (-61) :=
  (grammar_of_read.1 _ _).mp (Except.toOption_eq_some_iff.mp (by decide +kernel))

end SshAuthority.Duration
