import CaseAccess.Catalog.Lookup
import CaseAccess.Permission.Snapshot

/-!
# Decisions

A caller acts for its applications together: what one of them may do, the caller may
do. An application with every permission is allowed everything. Any other caller
must name scopes and a component, and is allowed what the grants of its applications
for that component give it together, each grant only where its ceiling passes the
level that was asked for.

On an object, an explicit grant counts if it is on the type of the object, and a
catalog grant if the type belongs to that catalog. The type is resolved only if
catalog grants could give what is missing. Without an object every explicit grant
counts, and a catalog grant if its catalog holds a type of the component.
-/

namespace CaseAccess

/-- All scopes of a list of sets. -/
def scopesOf (sets : List ScopeSet) : ScopeSet :=
  sets.foldl (· ∪ ·) {}

namespace Snapshot

/-- The scopes that explicit grants give on a type. -/
def explicitScopes (s : Snapshot) (typeRef : TypeRef) (level : Option Confidentiality) :
    ScopeSet :=
  scopesOf ((s.grants.filter fun g => g.typeRef = some typeRef && g.passes level).map (·.scopes))

/-- The catalog grants that pass a level. -/
def candidates (s : Snapshot) (level : Option Confidentiality) : List CatalogGrant :=
  s.catalogGrants.filter (·.passes level)

/-- The scopes that grants give on a type, if it could be in every catalog. -/
def potentialScopes (s : Snapshot) (typeRef : TypeRef) (level : Option Confidentiality) :
    ScopeSet :=
  s.explicitScopes typeRef level ∪ scopesOf ((s.candidates level).map (·.scopes))

/-- The scopes that grants give on a type of a catalog. -/
def scopesIn (s : Snapshot) (typeRef : TypeRef) (level : Option Confidentiality)
    (catalog : TypeRef) : ScopeSet :=
  s.explicitScopes typeRef level
    ∪ scopesOf (((s.candidates level).filter (·.catalog = catalog)).map (·.scopes))

/-- The scopes that grants give where no object is asked about. -/
def componentScopes (s : Snapshot) (level : Option Confidentiality) : ScopeSet :=
  scopesOf ((s.grants.filter (·.passes level)).map (·.scopes))
    ∪ scopesOf (((s.candidates level).filter (·.catalog ∈ s.populated)).map (·.scopes))

/-- Allows what the scopes cover. -/
def covering (required given : ScopeSet) : Decision :=
  if required.isSubset given then .allow else .deny .scopesNotGranted

/-- The decision on an object whose type was resolved, or was not. -/
def decideResolved (s : Snapshot) (required : ScopeSet) (typeRef : TypeRef)
    (level : Option Confidentiality) (resolution : Resolution) : Decision :=
  match resolution with
  | .ok d =>
      match d.catalog with
      | some catalog => covering required (s.scopesIn typeRef level catalog)
      | none => .deny .scopesNotGranted
  | .error why =>
      if why.isTransient then
        .deny (.catalogUnavailable s!"cannot resolve type {typeRef}: {why}")
      else .deny .scopesNotGranted

/-- The decision on an object; its type is resolved only where that can matter. -/
def decideObject {m : Type → Type} [Monad m] (s : Snapshot) (required : ScopeSet)
    (typeRef : TypeRef) (level : Option Confidentiality) (resolution : m Resolution) :
    m Decision := do
  if required.isSubset (s.explicitScopes typeRef level) then return .allow
  if !required.isSubset (s.potentialScopes typeRef level) then return .deny .scopesNotGranted
  return s.decideResolved required typeRef level (← resolution)

/-- The decision where no object is asked about. -/
def decideComponent (s : Snapshot) (required : ScopeSet) (level : Option Confidentiality) :
    Decision :=
  covering required (s.componentScopes level)

/-- The resolution of a type that is held here. -/
def localResolution (s : Snapshot) (component : Component) : Resolution :=
  match s.localType with
  | some d => d.asComponent component
  | none => .error .notFound

end Snapshot

open Operation

/-- The resolution of the type of an object: read with the grants if it is held here,
and fetched otherwise. -/
def Snapshot.resolution (s : Snapshot) (typeRef : TypeRef) (component : Component) :
    Operation Resolution :=
  if typeRef.isRemote then resolveType typeRef component else pure (s.localResolution component)

namespace AccessRequest

/-- Decides whether a caller with these applications may do what it asks for. -/
def decide (r : AccessRequest) (applications : List Application) : Operation Decision := do
  if applications = [] then return .deny .noApplications
  if applications.any (·.hasAllPermissions) then return .allow
  if r.scopes.isEmpty then return .deny .noScopesRequired
  match r.component with
  | none => return .deny .noComponent
  | some component =>
      let s ← snapshot applications component r.typeRef
      match r.typeRef with
      | none => return s.decideComponent r.scopes r.confidentiality
      | some typeRef =>
          s.decideObject r.scopes typeRef r.confidentiality (s.resolution typeRef component)

/-- Whether the caller may do what it asks for. -/
def allow (r : AccessRequest) (applications : List Application) : Operation Bool := do
  return (← r.decide applications).isAllowed

/-- Ends with an error unless the caller may do what it asks for. -/
def check (r : AccessRequest) (applications : List Application) : Operation Unit := do
  ofExcept (← r.decide applications).toResult

end AccessRequest

end CaseAccess
