import CaseAccess.Operation

/-!
# Looking up types

A local reference is looked up in the store. A remote one is fetched from the service
that its address belongs to, unless its definition is remembered. The component of a
remote type is the one that its address tells; only where the address tells none is
it the component that the caller asks for.
-/

namespace CaseAccess

open Operation

/-- Asks a service for an address. -/
def fetch (service : ServiceConfig) (url : String) : Operation CatalogAnswer := fun c s =>
  (.ok (c.answer service url), { s with fetches := s.fetches ++ [⟨service.apiRoot, url⟩] })

/-- The definition that the catalog of a remote reference gives it. -/
def fetchType (reference : TypeRef) (component : Component) : Operation Resolution := do
  let c ← context
  match c.services.find? reference.key with
  | none => return .error .unknownService
  | some service =>
      let answer ← fetch service reference.key
      return answer.resolution c.bases reference component

/-- The component as which a remote reference is resolved. -/
def componentOf (reference : TypeRef) (asked : Option Component) : Component :=
  ((Component.ofTypeUrl? reference.key).or asked).getD .zrc

/-- The definition that is remembered. -/
def rememberedType? (url : String) (component : Component) : Operation (Option TypeDefinition) :=
  fun c s => (.ok (s.typeCache.get? c.typeTtl c.uptime url component), s)

/-- Remembers a definition. -/
def rememberType (url : String) (component : Component) (d : TypeDefinition) : Operation Unit :=
  fun c s => (.ok (), { s with typeCache := s.typeCache.save c.uptime url component d })

/-- Resolves a remote reference. -/
def resolveRemote (reference : TypeRef) (component : Component) : Operation Resolution := do
  match ← rememberedType? reference.key component with
  | some d => return .ok d
  | none =>
      match ← fetchType reference component with
      | .ok d =>
          rememberType reference.key component d
          return .ok d
      | .error why => return .error why

/-- The definition that is held here. -/
def Store.resolution (s : Store) (reference : TypeRef) : Resolution :=
  match s.type? reference with
  | some d => .ok d
  | none => .error .notFound

/-- Resolves a reference; `asked` counts only where nothing else tells the component. -/
def resolve (reference : TypeRef) (asked : Option Component) : Operation Resolution :=
  if reference.isRemote then resolveRemote reference (componentOf reference asked)
  else reading (·.resolution reference)

/-- Resolves a reference to a type of a component. -/
def resolveType (reference : TypeRef) (component : Component) : Operation Resolution := do
  match ← resolve reference (some component) with
  | .ok d => return d.asComponent component
  | .error why => return .error why

/-- The references that a type is related to, if it resolves. -/
def relatedTypes (reference : TypeRef) (relation : Relation) :
    Operation (Option (SortedSet TypeRef)) := do
  match ← resolve reference none with
  | .ok d => return some (d.related relation)
  | .error _ => return none

/-- Forgets what was fetched from an address. -/
def invalidateType (url : String) : Operation Unit := fun _ s =>
  (.ok (), { s with typeCache := s.typeCache.invalidate url })

/-- Forgets everything that was fetched. -/
def clearTypes : Operation Unit := fun _ s =>
  (.ok (), { s with typeCache := TypeCache.clear })

end CaseAccess
