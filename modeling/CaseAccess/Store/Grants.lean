import CaseAccess.Store.Applications

/-!
# Grants and types in the store

Grants are listed in the order of their numbers. Of one application only one catalog
grant is kept for a component and a catalog.
-/

namespace CaseAccess.Store

/-! ## Explicit grants -/

/-- The store with a grant, which gets its number. -/
def createGrant (s : Store) (g : Grant) : Grant × Store :=
  let g := { g with id := s.grants.next }
  (g, { s with grants := s.grants.add fun _ => g })

def grant? (s : Store) (id : Nat) : Option Grant :=
  s.grants.rows.find? (·.id = id)

def deleteGrant (s : Store) (id : Nat) : Store :=
  { s with grants := s.grants.filter (·.id ≠ id) }

def deleteApplicationGrants (s : Store) (uuid : String) : Store :=
  { s with grants := s.grants.filter (·.application ≠ uuid) }

/-- The grants of an application. -/
def listGrants (s : Store) (uuid : String) : List Grant :=
  s.grants.rows.filter (·.application = uuid)

/-! ## Catalog grants -/

/-- Whether two catalog grants are on one component and catalog, for one application. -/
def sameTarget (g h : CatalogGrant) : Bool :=
  g.application = h.application ∧ g.component = h.component ∧ g.catalog = h.catalog

/-- The store with a catalog grant, which gets its number. -/
def createCatalogGrant (s : Store) (g : CatalogGrant) :
    Except StoreFault (CatalogGrant × Store) :=
  if s.catalogGrants.rows.any (sameTarget g) then .error .keyTaken
  else
    let g := { g with id := s.catalogGrants.next }
    .ok (g, { s with catalogGrants := s.catalogGrants.add fun _ => g })

def catalogGrant? (s : Store) (id : Nat) : Option CatalogGrant :=
  s.catalogGrants.rows.find? (·.id = id)

def deleteCatalogGrant (s : Store) (id : Nat) : Store :=
  { s with catalogGrants := s.catalogGrants.filter (·.id ≠ id) }

def deleteApplicationCatalogGrants (s : Store) (uuid : String) : Store :=
  { s with catalogGrants := s.catalogGrants.filter (·.application ≠ uuid) }

/-- The catalog grants of an application. -/
def listCatalogGrants (s : Store) (uuid : String) : List CatalogGrant :=
  s.catalogGrants.rows.filter (·.application = uuid)

/-- The applications that hold a catalog grant on a catalog for a component. -/
def catalogGrantHolders (s : Store) (catalog : TypeRef) (component : Component) :
    SortedSet String :=
  SortedSet.ofList ((s.catalogGrants.rows.filter fun g =>
    g.catalog = catalog ∧ g.component = component).map (·.application))

/-- Removes an application with its grants and its client identifiers. -/
def deleteApplication (s : Store) (uuid : String) : Store :=
  let s := ((s.deleteApplicationGrants uuid).deleteApplicationCatalogGrants uuid).removeClients uuid
  { s with applications := s.applications.erase uuid }

/-! ## Types -/

def createType (s : Store) (d : TypeDefinition) : Except StoreFault Store := do
  let types ← orKeyTaken (s.types.add? d)
  return { s with types := types }

def type? (s : Store) (reference : TypeRef) : Option TypeDefinition :=
  s.types.get? reference

/-- The types of a component in a catalog, by their keys. -/
def catalogTypes (s : Store) (catalog : TypeRef) (component : Component) : List TypeRef :=
  ((s.types.rows.filter fun d => d.catalog = some catalog ∧ d.component = component).map
    (·.reference)).mergeSort fun a b => (compare a.key b.key).isLE

end CaseAccess.Store
