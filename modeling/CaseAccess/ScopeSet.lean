import CaseAccess.Sorted.Set

/-!
# Scopes

A scope is a label such as `zaken.lezen`; a request needs a set of them and a grant
gives a set of them.
-/

namespace CaseAccess

abbrev ScopeSet := SortedSet String

namespace ScopeSet

/-- The labels in order, between braces. -/
def display (s : ScopeSet) : String :=
  "\x7b" ++ ", ".intercalate s.toList ++ "\x7d"

/-- The set of one scope. -/
def single (scope : String) : ScopeSet := SortedSet.ofList [scope]

end ScopeSet

end CaseAccess
