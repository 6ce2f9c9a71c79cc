import CaseAccess.Database.Columns

/-!
# The database

What an installation keeps is on disk in nine tables. Grants, catalog grants and statuses
are numbered by the database; every other row is told apart by the columns of its key.

A statement that fails leaves nothing behind. What an operation had written before one of
its statements failed is undone with the transaction that it runs in, so a failing
operation gives no database at all.
-/

namespace CaseAccess

structure Database where
  secrets : SqlTable := []
  applications : SqlTable := []
  clients : SqlTable := []
  grants : Numbered SqlRow := {}
  catalogGrants : Numbered SqlRow := {}
  types : SqlTable := []
  cases : SqlTable := []
  statuses : Numbered SqlRow := {}
  results : SqlTable := []
  deriving DecidableEq, Repr, Inhabited

namespace Database

/-! ## Secrets -/

def saveSecret (d : Database) (clientId secret : String) : Database :=
  { d with secrets :=
      d.secrets.put [["client_id"]] ["secret"] (ClientSecret.row ⟨clientId, secret⟩) }

def secret? (d : Database) (clientId : String) : Except StoreFault (Option String) :=
  Selection.readOne { columns := ["secret"], conditions := [("client_id", .text clientId)] }
    SqlValue.textOf? d.secrets

/-! ## Applications -/

/-- The client identifiers of an application. -/
def clientIds (d : Database) (uuid : String) : Except StoreFault (SortedSet String) := do
  let ids ← Selection.read { columns := ["client_id"], conditions := [("application", .text uuid)] }
    SqlValue.textOf? d.clients
  return SortedSet.ofList ids

/-- The application of a row. -/
def ofRow (d : Database) (row : ApplicationRow) : Except StoreFault Application := do
  let clientIds ← d.clientIds row.uuid
  return ⟨row.uuid, row.label, clientIds, row.hasAllPermissions⟩

def application? (d : Database) (uuid : String) : Except StoreFault (Option Application) := do
  let row? ← Selection.readOne
    { columns := ApplicationRow.columns, conditions := [("uuid", .text uuid)] }
    ApplicationRow.ofValues? d.applications
  match row? with
  | some row => some <$> d.ofRow row
  | none => return none

/-- All applications, by label and then by uuid. -/
def listApplications (d : Database) : Except StoreFault (List Application) := do
  let rows ← Selection.read { columns := ApplicationRow.columns, order := ["label", "uuid"] }
    ApplicationRow.ofValues? d.applications
  rows.mapM d.ofRow

/-- The application that a client identifier belongs to. -/
def clientOwner? (d : Database) (clientId : String) : Except StoreFault (Option String) :=
  Selection.readOne { columns := ["application"], conditions := [("client_id", .text clientId)] }
    SqlValue.textOf? d.clients

/-- The applications that a client identifier belongs to, which is one at most. -/
def clientApplications (d : Database) (clientId : String) :
    Except StoreFault (List Application) := do
  match ← d.clientOwner? clientId with
  | some uuid => return (← d.application? uuid).toList
  | none => return []

/-- Gives client identifiers to an application. -/
def addClients (d : Database) (uuid : String) : List String → Except StoreFault Database
  | [] => .ok d
  | clientId :: rest => do
      let clients ← d.clients.add [["client_id"]] (ClientRow.row ⟨clientId, uuid⟩)
      addClients { d with clients } uuid rest

/-- Takes all client identifiers from an application. -/
def removeClients (d : Database) (uuid : String) : Database :=
  { d with clients := d.clients.remove [("application", .text uuid)] }

def createApplication (d : Database) (a : Application) : Except StoreFault Database := do
  let applications ← d.applications.add [["uuid"]]
    (ApplicationRow.row ⟨a.uuid, a.label, a.hasAllPermissions⟩)
  addClients { d with applications } a.uuid a.clientIds.toList

def updateApplication (d : Database) (a : Application) : Except StoreFault Database :=
  let applications := d.applications.change [("uuid", .text a.uuid)]
    ["label", "has_all_permissions"] [.text a.label, .ofBool a.hasAllPermissions]
  let d := { d with applications }
  addClients (d.removeClients a.uuid) a.uuid a.clientIds.toList

/-! ## Explicit grants -/

/-- The database with a grant, which gets its number. -/
def createGrant (d : Database) (g : Grant) : Grant × Database :=
  ({ g with id := d.grants.next },
    { d with grants := d.grants.add fun id => { g with id }.row })

/-- The database without a grant, and the grant that it had. -/
def deleteGrant (d : Database) (id : Nat) : Except StoreFault (Option Grant × Database) := do
  let (found, grants) ← SqlTable.takeNumbered Grant.columns Grant.ofValues? id d.grants
  return (found, { d with grants })

/-- The database without the grants of an application, and how many they were. -/
def deleteApplicationGrants (d : Database) (uuid : String) : Nat × Database :=
  (SqlTable.count [("application", .text uuid)] d.grants.rows,
    { d with grants := SqlTable.removeNumbered [("application", .text uuid)] d.grants })

/-- The rows of an application, perhaps for one component only, by their numbers. -/
def ofApplication (columns : List String) (uuid : String) (component : Option Component) :
    Selection where
  columns := columns
  conditions :=
    ("application", .text uuid) :: (component.map fun c => ("component", .ofNamed c)).toList
  order := ["id"]

/-- The grants of an application, perhaps for one component only. -/
def listGrants (d : Database) (uuid : String) (component : Option Component) :
    Except StoreFault (List Grant) :=
  (ofApplication Grant.columns uuid component).read Grant.ofValues? d.grants.rows

/-! ## Catalog grants -/

/-- The database with a catalog grant, which gets its number. -/
def createCatalogGrant (d : Database) (g : CatalogGrant) :
    Except StoreFault (CatalogGrant × Database) := do
  let catalogGrants ← SqlTable.addNumbered [["application", "component", "catalog"]]
    (fun id => { g with id }.row) d.catalogGrants
  return ({ g with id := d.catalogGrants.next }, { d with catalogGrants })

/-- The database without a catalog grant, and the grant that it had. -/
def deleteCatalogGrant (d : Database) (id : Nat) :
    Except StoreFault (Option CatalogGrant × Database) := do
  let (found, catalogGrants) ←
    SqlTable.takeNumbered CatalogGrant.columns CatalogGrant.ofValues? id d.catalogGrants
  return (found, { d with catalogGrants })

/-- The database without the catalog grants of an application, and how many they were. -/
def deleteApplicationCatalogGrants (d : Database) (uuid : String) : Nat × Database :=
  (SqlTable.count [("application", .text uuid)] d.catalogGrants.rows,
    { d with
      catalogGrants := SqlTable.removeNumbered [("application", .text uuid)] d.catalogGrants })

/-- The catalog grants of an application, perhaps for one component only. -/
def listCatalogGrants (d : Database) (uuid : String) (component : Option Component) :
    Except StoreFault (List CatalogGrant) :=
  (ofApplication CatalogGrant.columns uuid component).read CatalogGrant.ofValues?
    d.catalogGrants.rows

/-- The applications that hold a catalog grant on a catalog for a component. -/
def catalogGrantHolders (d : Database) (catalog : TypeRef) (component : Component) :
    Except StoreFault (SortedSet String) := do
  let holders ← Selection.read
    { columns := ["application"]
      conditions := [("catalog", .ofTypeRef catalog), ("component", .ofNamed component)]
      order := ["application"] }
    SqlValue.textOf? d.catalogGrants.rows
  return SortedSet.ofList holders

/-- Removes an application with its grants and its client identifiers. -/
def deleteApplication (d : Database) (uuid : String) : Database :=
  let d := (d.deleteApplicationGrants uuid).2
  let d := (d.deleteApplicationCatalogGrants uuid).2.removeClients uuid
  { d with applications := d.applications.remove [("uuid", .text uuid)] }

/-! ## Types -/

def createType (d : Database) (t : TypeDefinition) : Except StoreFault Database := do
  let types ← d.types.add [["reference"]] t.row
  return { d with types }

def type? (d : Database) (reference : TypeRef) : Except StoreFault (Option TypeDefinition) :=
  Selection.readOne
    { columns := ["component", "catalog", "relations"]
      conditions := [("reference", .ofTypeRef reference)] }
    (TypeDefinition.ofValues? reference) d.types

/-- The types of a component in a catalog, by their keys. -/
def catalogTypes (d : Database) (catalog : TypeRef) (component : Component) :
    Except StoreFault (List TypeRef) := do
  let keys ← Selection.read
    { columns := ["reference"]
      conditions := [("catalog", .ofTypeRef catalog), ("component", .ofNamed component)]
      order := ["reference"] }
    SqlValue.textOf? d.types
  return keys.map TypeRef.mk

/-! ## Cases -/

def createCase (d : Database) (c : CaseRecord) : Except StoreFault Database := do
  let cases ← d.cases.add [["id"]] c.row
  return { d with cases }

/-- Changes a case, if it is there. -/
def updateCase (d : Database) (c : CaseRecord) : Database :=
  { d with cases := d.cases.change [("id", .text c.id)] CaseRecord.changedColumns c.changedValues }

def case? (d : Database) (id : String) : Except StoreFault (Option CaseRecord) :=
  Selection.readOne { columns := CaseRecord.columns, conditions := [("id", .text id)] }
    CaseRecord.ofValues? d.cases

/-- The cases that have this main case, by their ids. -/
def subCases (d : Database) (id : String) : Except StoreFault (List CaseRecord) :=
  Selection.read
    { columns := CaseRecord.columns, conditions := [("main_case", .text id)], order := ["id"] }
    CaseRecord.ofValues? d.cases

/-- The database with a status, which gets its number and is given back as it came. -/
def createStatus (d : Database) (r : StatusRecord) :
    Except StoreFault (StatusRecord × Database) := do
  let statuses ← SqlTable.addNumbered [["case_id", "set_at"]] (fun id => { r with id }.row)
    d.statuses
  return ({ r with id := d.statuses.next }, { d with statuses })

/-- The statuses of a case, from the oldest. -/
def listStatuses (d : Database) (caseId : String) : Except StoreFault (List StatusRecord) :=
  Selection.read
    { columns := StatusRecord.columns
      conditions := [("case_id", .text caseId)]
      order := ["set_at", "id"] }
    StatusRecord.ofValues? d.statuses.rows

def saveResult (d : Database) (r : ResultRecord) : Database :=
  { d with results := d.results.put [["case_id"]] ["result_type"] r.row }

def result? (d : Database) (caseId : String) : Except StoreFault (Option ResultRecord) := do
  let key? ← Selection.readOne
    { columns := ["result_type"], conditions := [("case_id", .text caseId)] }
    SqlValue.textOf? d.results
  return key?.map fun key => ⟨caseId, ⟨key⟩⟩

end Database

end CaseAccess
