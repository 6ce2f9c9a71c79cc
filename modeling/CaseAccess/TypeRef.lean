import CaseAccess.Sorted.Set

/-!
# Type references

A type object, or a catalog, is named by a key. A key with `://` in it is the
address of an object that another installation holds; every other key is the
identifier of an object that is held here. References compare by their kind, local
before remote, and then by their keys.
-/

namespace CaseAccess

/-- Whether `://` stands somewhere in a text. -/
def hasSchemeMark : List Char → Bool
  | ':' :: '/' :: '/' :: _ => true
  | _ :: rest => hasSchemeMark rest
  | [] => false

structure TypeRef where
  key : String
  deriving DecidableEq, Repr, Inhabited

namespace TypeRef

/-- Whether the object is held by another installation. -/
def isRemote (r : TypeRef) : Bool :=
  hasSchemeMark r.key.toList

instance : ToString TypeRef := ⟨key⟩

/-- The order of references: local before remote, then by key. -/
def cmp : TypeRef → TypeRef → Ordering :=
  compareLex (compareOn isRemote) (compareOn key)

instance : Ord TypeRef := ⟨cmp⟩

instance : Std.TransOrd TypeRef := inferInstanceAs (Std.TransCmp (compareLex _ _))

instance : Std.LawfulEqOrd TypeRef where
  eq_of_compare {a b} h := by
    have hkey : a.key = b.key := by
      have : cmp a b = .eq := h
      simp only [cmp, compareLex, compareOn, Ordering.then_eq_eq] at this
      exact Std.LawfulEqCmp.eq_of_compare this.2
    cases a; cases b; cases hkey; rfl

end TypeRef

end CaseAccess
