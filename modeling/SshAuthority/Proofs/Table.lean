/-
SshAuthority/Proofs/Table.lean

Tables made of entries that may repeat names.

When entries are put into an empty table one after the other, position and value of a
name come from different entries: the name stands where it came first, and has the value
that came last.

Main results: `get?_putAll` (the last value), `names_putAll_nil` (the first position), and
`putAll_nil_eq_map`, which puts both together.
-/
import SshAuthority.Table

namespace SshAuthority.Table

variable {α β : Type}

/-- The table with entries put into it, one after the other. -/
def putAll (t : Table α) (entries : List (Text × α)) : Table α :=
  entries.foldl (fun done (name, value) => done.put name value) t

/-- The last value under a name. -/
def last? (name : Text) (entries : List (Text × α)) : Option α :=
  (entries.filter (·.1 = name)).getLast?.map (·.2)

/-- What stands under a name after a put was put there or stood there before. -/
theorem of_get?_put {name other : Text} {value found : α} {t : Table α}
    (h : get? other (put name value t) = some found) :
    (other = name ∧ found = value) ∨ get? other t = some found := by
  by_cases hname : name = other
  · subst hname
    rw [get?_put_self] at h
    exact .inl ⟨rfl, (Option.some.inj h).symm⟩
  · rw [get?_put_of_ne hname] at h
    exact .inr h

/-! ### The last value -/

theorem last?_append (name : Text) (entries more : List (Text × α)) :
    last? name (entries ++ more) = (last? name more).or (last? name entries) := by
  unfold last?
  rw [List.filter_append, List.getLast?_append, Option.map_or]

theorem last?_cons (name : Text) (entry : Text × α) (entries : List (Text × α)) :
    last? name (entry :: entries) =
      (last? name entries).or (if entry.1 = name then some entry.2 else none) := by
  rw [← List.singleton_append, last?_append]
  congr 1
  unfold last?
  by_cases h : entry.1 = name <;> simp [h]

/-- The last value under a name is one of its values. -/
theorem mem_of_last? {name : Text} {value : α} {entries : List (Text × α)}
    (h : last? name entries = some value) : (name, value) ∈ entries := by
  obtain ⟨entry, hlast, rfl⟩ := Option.map_eq_some_iff.mp h
  obtain ⟨hmem, hname⟩ := List.mem_filter.mp (List.mem_of_getLast? hlast)
  rw [← of_decide_eq_true hname]
  exact hmem

theorem putAll_append (t : Table α) (entries more : List (Text × α)) :
    putAll t (entries ++ more) = putAll (putAll t entries) more :=
  List.foldl_append

/-- Entries leave a name the last value that they give it, if they give it one. -/
theorem get?_putAll (name : Text) (t : Table α) (entries : List (Text × α)) :
    get? name (putAll t entries) = (last? name entries).or (get? name t) := by
  induction entries generalizing t with
  | nil => rfl
  | cons entry entries ih =>
    obtain ⟨other, value⟩ := entry
    show get? name (putAll (put other value t) entries) = _
    rw [ih, last?_cons, Option.or_assoc]
    by_cases h : other = name
    · subst h
      rw [get?_put_self, if_pos rfl, Option.some_or]
    · rw [get?_put_of_ne h, if_neg h, Option.none_or]

/-! ### The names -/

/-- A name that is there already keeps its place. -/
theorem names_put_of_mem {name : Text} {t : Table α} (h : name ∈ names t) (value : α) :
    names (put name value t) = names t := by
  induction t with
  | nil => cases h
  | cons entry t ih =>
    obtain ⟨other, old⟩ := entry
    show names (if other = name then (name, value) :: t else (other, old) :: put name value t) = _
    by_cases hname : other = name
    · rw [if_pos hname, hname]
      rfl
    · rw [if_neg hname]
      exact congrArg (other :: ·) (ih (List.mem_of_ne_of_mem (Ne.symm hname) h))

/-- A new name comes last. -/
theorem names_put_of_not_mem {name : Text} {t : Table α} (h : name ∉ names t) (value : α) :
    names (put name value t) = names t ++ [name] := by
  induction t with
  | nil => rfl
  | cons entry t ih =>
    obtain ⟨other, old⟩ := entry
    have hname : other ≠ name := fun heq => h (heq ▸ List.mem_cons_self)
    have hrest : name ∉ names t := fun hmem => h (List.mem_cons_of_mem other hmem)
    show names (if other = name then (name, value) :: t else (other, old) :: put name value t) = _
    rw [if_neg hname]
    exact congrArg (other :: ·) (ih hrest)

/-- What is put under a new name comes last. -/
theorem put_of_not_mem {name : Text} {t : Table α} (h : name ∉ names t) (value : α) :
    put name value t = t ++ [(name, value)] := by
  induction t with
  | nil => rfl
  | cons entry t ih =>
    obtain ⟨other, old⟩ := entry
    have hname : other ≠ name := fun heq => h (heq ▸ List.mem_cons_self)
    have hrest : name ∉ names t := fun hmem => h (List.mem_cons_of_mem other hmem)
    show (if other = name then (name, value) :: t else (other, old) :: put name value t) = _
    rw [if_neg hname, ih hrest]
    rfl

/-- Entries that repeat no name come one behind the other. -/
theorem putAll_of_nodup {t : Table α} {entries : List (Text × α)} (h : (names (t ++ entries)).Nodup) :
    putAll t entries = t ++ entries := by
  induction entries generalizing t with
  | nil => exact (List.append_nil t).symm
  | cons entry entries ih =>
    obtain ⟨name, value⟩ := entry
    have hnew : name ∉ names t := by
      intro hmem
      have hdisjoint := List.nodup_append.mp (by rwa [names, List.map_append] at h)
      exact hdisjoint.2.2 name hmem name List.mem_cons_self rfl
    show putAll (put name value t) entries = _
    rw [put_of_not_mem hnew, ih (by rwa [List.append_assoc]), List.append_assoc]
    rfl

theorem nodup_names_put {t : Table α} (h : (names t).Nodup) (name : Text) (value : α) :
    (names (put name value t)).Nodup := by
  by_cases hmem : name ∈ names t
  · rw [names_put_of_mem hmem]
    exact h
  · rw [names_put_of_not_mem hmem]
    refine List.nodup_append.mpr ⟨h, List.pairwise_singleton _ _, fun other hother new hnew => ?_⟩
    rw [List.mem_singleton.mp hnew]
    exact fun heq => hmem (heq ▸ hother)

/-- Putting entries leaves no name twice. -/
theorem nodup_names_putAll {t : Table α} (h : (names t).Nodup) (entries : List (Text × α)) :
    (names (putAll t entries)).Nodup := by
  induction entries generalizing t with
  | nil => exact h
  | cons entry entries ih => exact ih (nodup_names_put h entry.1 entry.2)

/-- Values put one after the other bring their new names behind the old ones, in the order in
which they came first. The values may depend on what is in the table. -/
theorem names_foldl_put (name : β → Text) (value : Table α → β → α) (t : Table α) (items : List β) :
    names (items.foldl (fun done item => done.put (name item) (value done item)) t) =
      names t ++ ((items.map name).removeAll (names t)).eraseDups := by
  induction items generalizing t with
  | nil => exact (List.append_nil _).symm
  | cons item items ih =>
    rw [List.foldl_cons, ih, List.map_cons, List.cons_removeAll]
    by_cases h : name item ∈ names t
    · rw [names_put_of_mem h, if_neg (by simpa using h)]
    · rw [names_put_of_not_mem h, if_pos (by simpa using h), List.eraseDups_cons, List.append_assoc,
        List.singleton_append]
      -- what is neither an old name nor the new one
      have hrest : (items.map name).removeAll (names t ++ [name item]) =
          ((items.map name).removeAll (names t)).filter fun other => !other == name item := by
        unfold List.removeAll
        rw [List.filter_filter]
        refine List.filter_congr fun other _ => ?_
        rw [List.elem_eq_contains, List.elem_eq_contains, List.contains_append, Bool.not_or,
          Bool.and_comm, List.contains_cons, List.contains_nil, Bool.or_false]
      rw [hrest]

/-- From nothing, the names are those of the entries without repetitions. -/
theorem names_putAll_nil (entries : List (Text × α)) :
    names (putAll [] entries) = (entries.map (·.1)).eraseDups := by
  have h := names_foldl_put (·.1) (fun _ entry => entry.2) ([] : Table α) entries
  rw [show names ([] : Table α) = [] from rfl, List.removeAll_nil, List.nil_append] at h
  exact h

/-! ### Names and values -/

/-- A table in which no name stands twice is known by its names and their values. -/
theorem eq_map_names {t : Table α} (h : (names t).Nodup) (otherwise : α) :
    t = (names t).map fun name => (name, (get? name t).getD otherwise) := by
  induction t with
  | nil => rfl
  | cons entry t ih =>
    obtain ⟨name, value⟩ := entry
    obtain ⟨hnot, hrest⟩ := List.nodup_cons.mp h
    show (name, value) :: t = (name, (get? name ((name, value) :: t)).getD otherwise) ::
      (names t).map fun other => (other, (get? other ((name, value) :: t)).getD otherwise)
    congr 1
    · simp [get?]
    · refine (ih hrest).trans (List.map_congr_left fun other hother => ?_)
      have hne : name ≠ other := fun heq => hnot (heq ▸ hother)
      simp [get?, hne]

/-- Entries in an empty table: each name where it came first, with the value that came last. -/
theorem putAll_nil_eq_map (entries : List (Text × α)) (otherwise : α) :
    putAll [] entries =
      (entries.map (·.1)).eraseDups.map fun name => (name, (last? name entries).getD otherwise) := by
  have hnodup : (names (putAll [] entries)).Nodup :=
    nodup_names_putAll (t := []) List.nodup_nil entries
  refine (eq_map_names hnodup otherwise).trans ?_
  rw [names_putAll_nil]
  refine List.map_congr_left fun name _ => ?_
  rw [get?_putAll]
  show (name, ((last? name entries).or none).getD otherwise) = _
  rw [Option.or_none]

/-- Functions of values pass through look-ups. -/
theorem get?_map (f : α → β) (name : Text) (t : Table α) :
    get? name (t.map fun (other, value) => (other, f value)) = (get? name t).map f := by
  induction t with
  | nil => rfl
  | cons entry t ih =>
    obtain ⟨other, value⟩ := entry
    rw [List.map_cons]
    by_cases h : other = name <;> simp [get?, h, ih]

/-- Putting commutes with functions of values. -/
theorem map_put (f : α → β) (name : Text) (value : α) (t : Table α) :
    (put name value t).map (fun (other, old) => (other, f old)) =
      put name (f value) (t.map fun (other, old) => (other, f old)) := by
  induction t with
  | nil => rfl
  | cons entry t ih =>
    obtain ⟨other, old⟩ := entry
    by_cases h : other = name <;> simp [put, h, ih]

/-- Of two values put under one name the second stays. -/
theorem put_put (name : Text) (first second : α) (t : Table α) :
    put name second (put name first t) = put name second t := by
  induction t with
  | nil => simp [put]
  | cons entry t ih =>
    obtain ⟨other, old⟩ := entry
    by_cases h : other = name <;> simp [put, h, ih]

/-- Putting the value that is there already changes nothing. -/
theorem put_of_get? {name : Text} {value : α} {t : Table α} (h : get? name t = some value) :
    put name value t = t := by
  induction t with
  | nil => cases h
  | cons entry t ih =>
    obtain ⟨other, old⟩ := entry
    by_cases hname : other = name
    · subst hname
      simp only [get?, if_pos] at h
      cases h
      simp [put]
    · simp only [get?, if_neg hname] at h
      simp [put, hname, ih h]

/-- Putting a value under a name at the end leaves what stands before it. -/
theorem put_append_of_not_mem {name : Text} {t : Table α} (h : name ∉ names t) (value old : α) :
    put name value (t ++ [(name, old)]) = t ++ [(name, value)] := by
  rw [← put_of_not_mem h old, put_put, put_of_not_mem h]

/-- Nothing stands under a name that the table does not have. -/
theorem get?_of_not_mem {name : Text} {t : Table α} (h : name ∉ names t) : get? name t = none := by
  induction t with
  | nil => rfl
  | cons entry t ih =>
    obtain ⟨other, value⟩ := entry
    have hname : other ≠ name := fun heq => h (heq ▸ List.mem_cons_self)
    have hrest : name ∉ names t := fun hmem => h (List.mem_cons_of_mem other hmem)
    rw [get?, if_neg hname, ih hrest]

/-- What stands in the first of two tables counts. -/
theorem get?_append (name : Text) (t u : Table α) :
    get? name (t ++ u) = (get? name t).or (get? name u) := by
  induction t with
  | nil => rfl
  | cons entry t ih =>
    obtain ⟨other, value⟩ := entry
    rw [List.cons_append, get?, get?]
    split
    · rfl
    · exact ih

end SshAuthority.Table
