import CaseAccess.Catalog.Document

/-!
# Resolving references

A reference resolves to the definition of its type, or it is unresolved for a reason.
Two reasons are transient: the catalog could not be asked, or did not answer in time,
and may answer later.

Definitions from other catalogs are remembered for a while, by their address and the
component that they were resolved for, which is no part of a document. Failures are
not remembered.
-/

namespace CaseAccess

inductive Unresolved where
  /-- There is no such type. -/
  | notFound
  /-- The address belongs to no service. -/
  | unknownService
  /-- There is such a type, and it belongs to another component. -/
  | wrongComponent
  | fetchFailed (message : String)
  | timeout
  deriving DecidableEq, Repr

namespace Unresolved

/-- Whether the reference may resolve later. -/
def isTransient : Unresolved → Bool
  | .fetchFailed _ | .timeout => true
  | _ => false

def message : Unresolved → String
  | .notFound => "type not found"
  | .unknownService => "no service known for type url"
  | .wrongComponent => "type belongs to another component"
  | .fetchFailed message => s!"fetch remote type failed: {message}"
  | .timeout => "fetch remote type timed out"

instance : ToString Unresolved := ⟨message⟩

end Unresolved

abbrev Resolution := Except Unresolved TypeDefinition

/-- The definition as one of that component. -/
def TypeDefinition.asComponent (d : TypeDefinition) (component : Component) : Resolution :=
  if d.component = component then .ok d else .error .wrongComponent

/-- What a catalog says when it is asked for a type. -/
inductive CatalogAnswer where
  | found (document : TypeDocument)
  | notFound
  | failed (message : String)
  | timedOut
  deriving DecidableEq, Repr, Inhabited

/-- The definition that an answer gives to a reference. -/
def CatalogAnswer.resolution (answer : CatalogAnswer) (bases : LocalBases) (reference : TypeRef)
    (component : Component) : Resolution :=
  match answer with
  | .found document =>
      match document.definition bases reference component with
      | .ok d => .ok d
      | .error e => .error (.fetchFailed e.message)
  | .notFound => .error .notFound
  | .failed message => .error (.fetchFailed message)
  | .timedOut => .error .timeout

/-! ## The type cache -/

/-- A definition and the time at which it was fetched, in nanoseconds. -/
structure CachedType where
  definition : TypeDefinition
  fetchedAt : Nat
  deriving DecidableEq, Repr

/-- Definitions that are remembered, by address and component. -/
structure TypeCache where
  entries : List ((String × Component) × CachedType) := []
  deriving DecidableEq, Repr, Inhabited

namespace TypeCache

/-- The definition of an address, if it was fetched less than `ttl` seconds ago. -/
def get? (c : TypeCache) (ttl uptime : Nat) (url : String) (component : Component) :
    Option TypeDefinition :=
  match c.entries.find? (·.1 = (url, component)) with
  | some (_, cached) =>
      if uptime - cached.fetchedAt < ttl * 1000000000 then some cached.definition else none
  | none => none

def save (c : TypeCache) (uptime : Nat) (url : String) (component : Component)
    (definition : TypeDefinition) : TypeCache :=
  ⟨((url, component), ⟨definition, uptime⟩) :: c.entries.filter (·.1 ≠ (url, component))⟩

/-- Forgets an address, for every component. -/
def invalidate (c : TypeCache) (url : String) : TypeCache :=
  ⟨c.entries.filter (·.1.1 ≠ url)⟩

def clear : TypeCache := {}

end TypeCache

end CaseAccess
