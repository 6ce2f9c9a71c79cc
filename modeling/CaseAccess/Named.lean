/-!
# Enumerations with names

Levels, components, states and methods each come from a short list, and each has
one spelling by which texts and documents refer to it. `ofName?` looks a spelling
up in the list.
-/

namespace CaseAccess

/-- A type whose values are listed and have a spelling each. -/
class Named (α : Type) where
  all : List α
  name : α → String

namespace Named

variable {α : Type} [Named α]

/-- The value of that spelling. -/
def ofName? (s : String) : Option α :=
  (all : List α).find? (name · == s)

theorem name_of_ofName? {s : String} {a : α} (h : ofName? s = some a) : name a = s := by
  simpa using List.find?_some h

theorem ofName?_name {a : α} (hall : a ∈ (all : List α))
    (hinj : ∀ b ∈ (all : List α), name b = name a → b = a) : ofName? (name a) = some a := by
  unfold ofName?
  cases h : (all : List α).find? (name · == name a) with
  | none => exact absurd (List.find?_eq_none.1 h a hall) (by simp)
  | some b => rw [hinj b (List.mem_of_find?_eq_some h) (by simpa using List.find?_some h)]

end Named

end CaseAccess
