import CaseAccess.Administration.Basic

/-!
# Adding and revoking grants, and registering types

A single grant is added to an application that is there, and revoked by its number.
Types are registered in batches, all of a batch or none; every application with a
grant on a catalog that gains a type is announced once for the batch.
-/

namespace CaseAccess.Administration

open Operation

/-! ## Explicit grants -/

def addGrant (g : Grant) : Operation Grant := do
  let created ← transaction do
    let _ ← application g.application
    let created ← changingWith (·.createGrant g)
    changingCache (·.invalidate g.application)
    return created
  announceOne g.application .update
  return created

def revokeGrant (id : Nat) : Operation Grant := do
  let revoked ← transaction do
    match ← reading (·.grant? id) with
    | none => fail (.notFound s!"grant {id} not found")
    | some g =>
        changing (·.deleteGrant id)
        changingCache (·.invalidate g.application)
        return g
  announceOne revoked.application .update
  return revoked

/-! ## Catalog grants -/

/-- The error of a second grant on one catalog. -/
def catalogConflict (g : CatalogGrant) : ApiError :=
  .conflict "unique"
    s!"application {g.application} already holds a {g.component} grant on catalog {g.catalog}"

def addCatalogGrant (g : CatalogGrant) : Operation CatalogGrant := do
  let created ← transaction do
    let _ ← application g.application
    if ← reading (·.catalogGrants.rows.any (Store.sameTarget g)) then fail (catalogConflict g)
    let created ← changingWithOr (·.createCatalogGrant g)
    changingCache (·.invalidate g.application)
    return created
  announceOne g.application .update
  return created

def revokeCatalogGrant (id : Nat) : Operation CatalogGrant := do
  let revoked ← transaction do
    match ← reading (·.catalogGrant? id) with
    | none => fail (.notFound s!"catalog grant {id} not found")
    | some g =>
        changing (·.deleteCatalogGrant id)
        changingCache (·.invalidate g.application)
        return g
  announceOne revoked.application .update
  return revoked

/-! ## Types -/

/-- The applications with a grant on the catalog of a type. -/
def holders (d : TypeDefinition) (s : Store) : List String :=
  match d.catalog with
  | some catalog => (s.catalogGrantHolders catalog d.component).toList
  | none => []

/-- Stores a type, and gives the applications that it adds permissions to. -/
def registerType (d : TypeDefinition) : Operation (List String) := do
  if d.reference.isRemote then
    fail (.invalidParam "url" "bad-url" s!"type {d.reference} is not held by this installation")
  if (← reading (·.type? d.reference)).isSome then
    fail (.conflict "unique" s!"type {d.reference} already exists")
  changingOr (·.createType d)
  let applications ← reading (holders d)
  applications.forM fun uuid => changingCache (·.invalidate uuid)
  return applications

/-- Stores types, all of them or none. -/
def registerTypes (definitions : List TypeDefinition) : Operation Unit := do
  let changed ← transaction (definitions.mapM registerType)
  announce (PermissionChanges.ofList (changed.flatten.map (·, Action.update)))

end CaseAccess.Administration
