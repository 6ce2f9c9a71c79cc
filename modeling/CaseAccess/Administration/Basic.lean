import CaseAccess.Administration.Validation
import CaseAccess.Administration.View
import CaseAccess.Operation
import CaseAccess.Permission.Changes

/-!
# Administration

Applications and their grants are created, changed and removed here, and the types
that are held here are registered. Every change is one transaction; what the grant
cache knows of the applications that change is dropped within it, and the changes are
announced after it.
-/

namespace CaseAccess.Administration

open Operation

def noApplication (uuid : String) : ApiError :=
  .notFound s!"application {uuid} not found"

/-- The application with that uuid, or an error. -/
def application (uuid : String) : Operation Application := do
  match ← reading (·.application? uuid) with
  | some a => return a
  | none => fail (noApplication uuid)

/-- An application as it is shown. -/
def shown (a : Application) : Operation ApplicationView := do
  let c ← context
  reading (·.view c.settings.publicBaseUrl a)

/-- Announces changes of permissions. -/
def announce (changes : PermissionChanges) : Operation Unit := do
  let c ← context
  publish (changes.notifications c.settings.publicBaseUrl c.now)

/-- Announces the change of one application. -/
def announceOne (uuid : String) (action : Action) : Operation Unit :=
  announce (PermissionChanges.ofList [(uuid, action)])

/-! ## Reading -/

def listApplications : Operation (List ApplicationView) := do
  let c ← context
  reading fun s => s.listApplications.map (s.view c.settings.publicBaseUrl)

def getApplication (uuid : String) : Operation ApplicationView := do
  shown (← application uuid)

/-- The application that a client identifier belongs to. -/
def findConsumer (clientId : String) : Operation ApplicationView := do
  match ← reading fun s => s.clientOwner? clientId >>= s.application? with
  | some a => shown a
  | none => fail (.notFound s!"no application for client {clientId}")

/-! ## Applications -/

/-- What is wrong where client identifiers belong to another application already. -/
def ownerRefusals (s : Store) (uuid : String) (clientIds : SortedSet String) :
    List InvalidParam :=
  clientIds.toList.filterMap fun clientId =>
    match s.clientOwner? clientId with
    | some owner =>
        if owner = uuid then none
        else some ⟨"clientIds", "unique",
          s!"client id {clientId} is already used by application {owner}"⟩
    | none => none

/-- Refuses client identifiers that belong to another application. -/
def checkClientIds (uuid : String) (clientIds : SortedSet String) : Operation Unit := do
  ofExcept (ApiError.ofParams (← reading (ownerRefusals · uuid clientIds)))

/-- Stores the grants of an application. -/
def createGrants (uuid : String) (grants : List Grant) : Operation Unit :=
  grants.forM fun g => changing fun s => (s.createGrant { g with application := uuid }).2

/-- Refuses an application that has every permission and grants, or neither, where
its grants are kept. -/
def checkKeptGrants (uuid : String) (hasAllPermissions : Bool) : Operation Unit := do
  let hasGrants ← reading fun s =>
    !(s.listGrants uuid).isEmpty || !(s.listCatalogGrants uuid).isEmpty
  ofExcept (ApiError.ofParams (exclusivityRefusals hasAllPermissions hasGrants))

/-- Creates an application under a uuid that is new. -/
def createApplication (uuid : String) (body : ApplicationBody) : Operation ApplicationView := do
  let c ← context
  let input ← ofExcept (body.read c.bases)
  let view ← transaction do
    checkClientIds uuid input.clientIds
    let a : Application := ⟨uuid, input.label, input.clientIds, input.hasAllPermissions⟩
    changingOr (·.createApplication a)
    createGrants uuid (input.grants.getD [])
    changingCache (·.invalidate uuid)
    shown a
  announceOne uuid .create
  return view

/-- Replaces the grants of an application, its catalog grants among them. -/
def replaceGrants (uuid : String) (grants : List Grant) : Operation Unit := do
  changing (·.deleteApplicationGrants uuid)
  changing (·.deleteApplicationCatalogGrants uuid)
  createGrants uuid grants

/-- Makes an application what the input says. -/
def update (uuid : String) (input : ApplicationInput) : Operation ApplicationView := do
  let view ← transaction do
    let _ ← application uuid
    checkClientIds uuid input.clientIds
    match input.grants with
    | some grants => replaceGrants uuid grants
    | none => checkKeptGrants uuid input.hasAllPermissions
    let a : Application := ⟨uuid, input.label, input.clientIds, input.hasAllPermissions⟩
    changingOr (·.updateApplication a)
    changingCache (·.invalidate uuid)
    shown a
  announceOne uuid .update
  return view

/-- Replaces an application; its grants are replaced too, its catalog grants among
them. -/
def replaceApplication (uuid : String) (body : ApplicationBody) : Operation ApplicationView := do
  let c ← context
  let input ← ofExcept (body.read c.bases)
  update uuid input

/-- Changes what a patch gives, and keeps the rest. -/
def patchApplication (uuid : String) (patch : ApplicationPatch) : Operation ApplicationView := do
  let c ← context
  let current ← application uuid
  let input ← ofExcept (patch.read c.bases current)
  update uuid input

def deleteApplication (uuid : String) : Operation Unit := do
  transaction do
    let _ ← application uuid
    changing (·.deleteApplication uuid)
    changingCache (·.invalidate uuid)
  announceOne uuid .destroy

end CaseAccess.Administration
