/-
SshAuthority/Table.lean

Tables: values under names, in the order in which the names first came.

Putting a value under a name that is there already replaces the old value and
keeps its place.
-/
import SshAuthority.Text.CodePoint

namespace SshAuthority

/-- Values under names. -/
abbrev Table (α : Type) := List (Text × α)

namespace Table

variable {α : Type}

/-- The value under a name. -/
def get? (name : Text) : Table α → Option α
  | [] => none
  | (other, value) :: rest => if other = name then some value else get? name rest

/-- The table with a value put under a name. -/
def put (name : Text) (value : α) : Table α → Table α
  | [] => [(name, value)]
  | (other, old) :: rest =>
    if other = name then (name, value) :: rest else (other, old) :: put name value rest

/-- The names, in order. -/
def names (t : Table α) : List Text := t.map (·.1)

@[simp]
theorem get?_put_self (name : Text) (value : α) (t : Table α) :
    get? name (put name value t) = some value := by
  induction t with
  | nil => simp [put, get?]
  | cons entry rest ih =>
    obtain ⟨other, old⟩ := entry
    by_cases h : other = name <;> simp [put, get?, h, ih]

theorem get?_put_of_ne {name other : Text} (h : name ≠ other) (value : α) (t : Table α) :
    get? other (put name value t) = get? other t := by
  induction t with
  | nil => simp [put, get?, h]
  | cons entry rest ih =>
    obtain ⟨third, old⟩ := entry
    by_cases h₁ : third = name
    · simp [put, get?, h, h₁]
    · by_cases h₂ : third = other
      · subst h₂
        simp [put, get?, h₁]
      · simp [put, get?, h₁, h₂, ih]

end Table

end SshAuthority
