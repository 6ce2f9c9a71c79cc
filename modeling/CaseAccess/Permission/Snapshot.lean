import CaseAccess.Operation
import CaseAccess.Permission.Request

/-!
# Snapshots

A decision reads the grants of all applications of the caller for one component, the
catalogs of these grants that hold a type of the component, and the definition of the
type that was asked about when it is held here. All of it is read at one moment, the
grants through the cache. The types of a catalog of another installation cannot be
listed, so such a catalog counts as one that holds a type.
-/

namespace CaseAccess

structure Snapshot where
  grants : List Grant := []
  catalogGrants : List CatalogGrant := []
  populated : SortedSet TypeRef := {}
  localType : Option TypeDefinition := none
  deriving DecidableEq, Repr, Inhabited

namespace Store

/-- The grants of an application for a component. -/
def grantSet (s : Store) (application : String) (component : Component) : GrantSet where
  grants := (s.listGrants application).filter (·.component = component)
  catalogGrants := (s.listCatalogGrants application).filter (·.component = component)

/-- Whether a catalog holds a type of the component, as far as that can be known. -/
def isPopulated (s : Store) (component : Component) (catalog : TypeRef) : Bool :=
  catalog.isRemote || !(s.catalogTypes catalog component).isEmpty

/-- The snapshot with these grants. -/
def snapshotOf (s : Store) (sets : List GrantSet) (component : Component)
    (typeRef : Option TypeRef) : Snapshot :=
  let catalogGrants := sets.flatMap (·.catalogGrants)
  { grants := sets.flatMap (·.grants)
    catalogGrants := catalogGrants
    populated := SortedSet.ofList ((catalogGrants.map (·.catalog)).filter (s.isPopulated component))
    localType := typeRef.filter (!·.isRemote) >>= s.type? }

end Store

open Operation

/-- The grants of an application for a component, read through the cache. -/
def grantSet (application : String) (component : Component) : Operation GrantSet := do
  match (← cachedGrants).grantSet? application component with
  | some set => return set
  | none =>
      let set ← reading (·.grantSet application component)
      changingCache (·.saveGrantSet application component set)
      return set

/-- What a decision reads about the applications of a caller. -/
def snapshot (applications : List Application) (component : Component)
    (typeRef : Option TypeRef) : Operation Snapshot := do
  let sets ← applications.mapM fun a => grantSet a.uuid component
  reading (·.snapshotOf sets component typeRef)

/-- The applications of a client, read through the cache. -/
def clientApplications (clientId : String) : Operation (List Application) := do
  match (← cachedGrants).applications? clientId with
  | some applications => return applications
  | none =>
      let applications ← reading (·.clientApplications clientId)
      changingCache (·.saveApplications clientId applications)
      return applications

end CaseAccess
