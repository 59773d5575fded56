/-
SshAuthority/Outcome.lean

Computations that may fail, taken apart.

A computation in steps has a value if and only if every step has one. These are
the equations by which a result is followed back through `Except`.
-/

namespace Except

variable {ε ε' α β : Type}

/-- A step that succeeds, and the rest with its value. -/
theorem bind_eq_ok_iff {x : Except ε α} {next : α → Except ε β} {b : β} :
    (x >>= next) = .ok b ↔ ∃ a, x = .ok a ∧ next a = .ok b := by
  rcases x with e | a
  · constructor
    · intro h
      cases h
    · rintro ⟨a, h, -⟩
      cases h
  · constructor
    · intro h
      exact ⟨a, rfl, h⟩
    · rintro ⟨a', h, hb⟩
      cases h
      exact hb

/-- A step of plain value succeeds with it. -/
theorem pure_eq_ok_iff {a b : α} : (pure a : Except ε α) = .ok b ↔ a = b := by
  constructor
  · intro h
    exact Except.ok.inj h
  · rintro rfl
    rfl

/-- The values of a mapped result. -/
theorem map_eq_ok_iff {f : α → β} {x : Except ε α} {b : β} :
    x.map f = .ok b ↔ ∃ a, x = .ok a ∧ f a = b := by
  rcases x with e | a <;> simp [Except.map]

/-- Functions of the value change no failure. -/
theorem map_eq_error_iff {f : α → β} {x : Except ε α} {e : ε} :
    x.map f = .error e ↔ x = .error e := by
  rcases x with e' | a <;> simp [Except.map]

/-- Other words for a failure change no value. -/
theorem mapError_eq_ok_iff {f : ε → ε'} {x : Except ε α} {a : α} :
    x.mapError f = .ok a ↔ x = .ok a := by
  rcases x with e | a'
  · constructor
    · intro h
      cases h
    · intro h
      cases h
  · constructor
    · intro h
      cases h
      rfl
    · intro h
      cases h
      rfl

/-- Forgetting the failure changes no value. -/
theorem toOption_eq_some_iff {x : Except ε α} {a : α} : x.toOption = some a ↔ x = .ok a := by
  rcases x with e | a' <;> simp [Except.toOption]

/-- The failure, if there is one. -/
def error? : Except ε α → Option ε
  | .error e => some e
  | .ok _ => none

theorem error?_eq_some_iff {x : Except ε α} {e : ε} : x.error? = some e ↔ x = .error e := by
  rcases x with e' | a <;> simp [error?]

/-- A computation of no value has none to tell. -/
theorem eq_ok_of_isOk {x : Except ε Unit} (h : x.isOk = true) : x = .ok () := by
  rcases x with e | ⟨⟩
  · cases h
  · rfl

/-- A computation in two steps fails with the first that fails. -/
theorem bind_eq_error_iff {x : Except ε α} {next : α → Except ε β} {e : ε} :
    (x >>= next) = .error e ↔ x = .error e ∨ ∃ a, x = .ok a ∧ next a = .error e := by
  rcases x with e' | a
  · constructor
    · intro h
      cases h
      exact .inl rfl
    · rintro (h | ⟨a, h, -⟩)
      · cases h
        rfl
      · cases h
  · constructor
    · exact fun h => .inr ⟨a, rfl, h⟩
    · rintro (h | ⟨a', h, he⟩)
      · cases h
      · cases h
        exact he

/-- Other words for a failure. -/
theorem mapError_eq_error_iff {f : ε → ε'} {x : Except ε α} {e : ε'} :
    x.mapError f = .error e ↔ ∃ e', x = .error e' ∧ f e' = e := by
  rcases x with e' | a
  · constructor
    · intro h
      exact ⟨e', rfl, Except.error.inj h⟩
    · rintro ⟨e'', h, rfl⟩
      cases h
      rfl
  · constructor
    · intro h
      cases h
    · rintro ⟨e', h, -⟩
      cases h

/-! ### Lists of steps -/

variable {f : α → Except ε β} {l : List α}

/-- Steps for all elements succeed if each does. -/
theorem exists_mapM_eq_ok_iff : (∃ bs, l.mapM f = .ok bs) ↔ ∀ a ∈ l, ∃ b, f a = .ok b := by
  induction l with
  | nil => exact ⟨fun _ a ha => absurd ha List.not_mem_nil, fun _ => ⟨[], rfl⟩⟩
  | cons a l ih =>
    rw [List.forall_mem_cons, ← ih, List.mapM_cons]
    constructor
    · rintro ⟨bs, h⟩
      obtain ⟨b, hb, h⟩ := bind_eq_ok_iff.mp h
      obtain ⟨bs', hbs, -⟩ := bind_eq_ok_iff.mp h
      exact ⟨⟨b, hb⟩, bs', hbs⟩
    · rintro ⟨⟨b, hb⟩, bs, hbs⟩
      exact ⟨b :: bs, bind_eq_ok_iff.mpr ⟨b, hb, bind_eq_ok_iff.mpr ⟨bs, hbs, rfl⟩⟩⟩

/-- Where the steps succeed on some elements with a function of them, all together are that
function. -/
theorem mapM_eq_ok_iff_map {P : α → Prop} {g : α → β} {bs : List β}
    (h : ∀ a ∈ l, ∀ b, f a = .ok b ↔ P a ∧ b = g a) :
    l.mapM f = .ok bs ↔ (∀ a ∈ l, P a) ∧ bs = l.map g := by
  induction l generalizing bs with
  | nil =>
    rw [List.mapM_nil, pure_eq_ok_iff]
    exact ⟨fun heq => ⟨fun a ha => absurd ha List.not_mem_nil, heq.symm⟩, fun heq => heq.2.symm⟩
  | cons a l ih =>
    have hl : ∀ bs, l.mapM f = .ok bs ↔ (∀ a ∈ l, P a) ∧ bs = l.map g := fun bs =>
      ih fun a ha => h a (List.mem_cons_of_mem _ ha)
    rw [List.forall_mem_cons, List.mapM_cons, bind_eq_ok_iff]
    constructor
    · rintro ⟨b, hb, hrest⟩
      obtain ⟨bs', hbs, heq⟩ := bind_eq_ok_iff.mp hrest
      obtain rfl := pure_eq_ok_iff.mp heq
      obtain ⟨ha, rfl⟩ := (h a List.mem_cons_self b).mp hb
      obtain ⟨hl, rfl⟩ := (hl bs').mp hbs
      exact ⟨⟨ha, hl⟩, rfl⟩
    · rintro ⟨⟨ha, hrest⟩, rfl⟩
      exact ⟨g a, (h a List.mem_cons_self _).mpr ⟨ha, rfl⟩,
        bind_eq_ok_iff.mpr ⟨l.map g, (hl _).mpr ⟨hrest, rfl⟩, rfl⟩⟩

/-- Where each result tells the element that it is of, so do all together. -/
theorem of_mapM_eq_ok (key : β → α) {bs : List β} (hkey : ∀ a b, f a = .ok b → key b = a)
    (h : l.mapM f = .ok bs) : bs.map key = l ∧ ∀ b ∈ bs, f (key b) = .ok b := by
  induction l generalizing bs with
  | nil =>
    obtain rfl := pure_eq_ok_iff.mp h
    exact ⟨rfl, fun b hb => absurd hb List.not_mem_nil⟩
  | cons a l ih =>
    rw [List.mapM_cons] at h
    obtain ⟨b, hb, h⟩ := bind_eq_ok_iff.mp h
    obtain ⟨bs', hbs, h⟩ := bind_eq_ok_iff.mp h
    obtain rfl := pure_eq_ok_iff.mp h
    obtain ⟨hkeys, hrest⟩ := ih hbs
    rw [List.map_cons, hkeys, List.forall_mem_cons, hkey a b hb]
    exact ⟨rfl, hb, hrest⟩

/-- Steps for all elements fail as the first that fails. -/
theorem mapM_eq_error_iff {e : ε} :
    l.mapM f = .error e ↔
      ∃ front a back, l = front ++ a :: back ∧ (∀ b ∈ front, ∃ v, f b = .ok v) ∧ f a = .error e := by
  induction l with
  | nil =>
    constructor
    · intro h
      cases h
    · rintro ⟨front, a, back, h, -⟩
      cases front <;> cases h
  | cons a l ih =>
    rw [List.mapM_cons, bind_eq_error_iff]
    constructor
    · rintro (h | ⟨b, hb, h⟩)
      · exact ⟨[], a, l, rfl, fun b hb => absurd hb List.not_mem_nil, h⟩
      · rcases bind_eq_error_iff.mp h with h | ⟨bs, -, h⟩
        · obtain ⟨front, c, back, rfl, hfront, hc⟩ := ih.mp h
          exact ⟨a :: front, c, back, rfl, List.forall_mem_cons.mpr ⟨⟨b, hb⟩, hfront⟩, hc⟩
        · cases h
    · rintro ⟨front, c, back, h, hfront, hc⟩
      rcases front with - | ⟨b, front⟩
      · obtain ⟨rfl, -⟩ := List.cons.inj h
        exact .inl hc
      · obtain ⟨rfl, rfl⟩ := List.cons.inj h
        obtain ⟨⟨b, hb⟩, hfront⟩ := List.forall_mem_cons.mp hfront
        exact .inr ⟨b, hb, bind_eq_error_iff.mpr (.inl (ih.mpr ⟨front, c, back, rfl, hfront, hc⟩))⟩

end Except
