import CaseAccess.Store.Basic

/-!
# Secrets and applications in the store

An application is put together from its row and the client identifiers that belong
to it. Changing an application that is not there changes only the client identifiers.
-/

namespace CaseAccess.Store

/-! ## Secrets -/

def saveSecret (s : Store) (clientId secret : String) : Store :=
  { s with secrets := s.secrets.put ⟨clientId, secret⟩ }

def secret? (s : Store) (clientId : String) : Option String :=
  (s.secrets.get? clientId).map (·.secret)

/-! ## Applications -/

/-- The client identifiers of an application. -/
def clientIds (s : Store) (uuid : String) : SortedSet String :=
  SortedSet.ofList ((s.clients.rows.filter (·.application = uuid)).map (·.clientId))

/-- The application of a row. -/
def ofRow (s : Store) (row : ApplicationRow) : Application :=
  ⟨row.uuid, row.label, s.clientIds row.uuid, row.hasAllPermissions⟩

def application? (s : Store) (uuid : String) : Option Application :=
  (s.applications.get? uuid).map s.ofRow

/-- `a` stands before `b` in the list of applications: by label, then by uuid. -/
def listedBefore (a b : ApplicationRow) : Bool :=
  ((compare a.label b.label).then (compare a.uuid b.uuid)).isLE

/-- All applications, by label and then by uuid. -/
def listApplications (s : Store) : List Application :=
  (s.applications.rows.mergeSort listedBefore).map s.ofRow

/-- The application that a client identifier belongs to. -/
def clientOwner? (s : Store) (clientId : String) : Option String :=
  (s.clients.get? clientId).map (·.application)

/-- The applications that a client identifier belongs to, which is one at most. -/
def clientApplications (s : Store) (clientId : String) : List Application :=
  (s.clientOwner? clientId >>= s.application?).toList

/-- Gives client identifiers to an application. -/
def addClients (s : Store) (uuid : String) : List String → Except StoreFault Store
  | [] => .ok s
  | clientId :: rest => do
      let clients ← orKeyTaken (s.clients.add? ⟨clientId, uuid⟩)
      addClients { s with clients := clients } uuid rest

/-- Takes all client identifiers from an application. -/
def removeClients (s : Store) (uuid : String) : Store :=
  { s with clients := s.clients.filter (·.application ≠ uuid) }

def createApplication (s : Store) (a : Application) : Except StoreFault Store := do
  let applications ← orKeyTaken (s.applications.add? ⟨a.uuid, a.label, a.hasAllPermissions⟩)
  addClients { s with applications := applications } a.uuid a.clientIds.toList

def updateApplication (s : Store) (a : Application) : Except StoreFault Store :=
  let s := { s with
    applications := s.applications.replace ⟨a.uuid, a.label, a.hasAllPermissions⟩ }
  addClients (s.removeClients a.uuid) a.uuid a.clientIds.toList

end CaseAccess.Store
