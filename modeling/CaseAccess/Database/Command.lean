import CaseAccess.Database.Basic
import CaseAccess.Store.Cases
import CaseAccess.Store.Grants

/-!
# Storage commands

The operations that write to storage, each with what it is given. A command can be
executed in the store of records and in the database of rows; `Store.database` is the
database that holds what a store holds.

A command that fails is undone with its transaction, so attempting it leaves everything as
it was. A history is then a list of commands, of which those count that succeeded and were
committed.
-/

namespace CaseAccess

inductive StorageCommand where
  | saveSecret (clientId secret : String)
  | createApplication (a : Application)
  | updateApplication (a : Application)
  | deleteApplication (uuid : String)
  | createGrant (g : Grant)
  | deleteGrant (id : Nat)
  | deleteApplicationGrants (uuid : String)
  | createCatalogGrant (g : CatalogGrant)
  | deleteCatalogGrant (id : Nat)
  | deleteApplicationCatalogGrants (uuid : String)
  | createType (d : TypeDefinition)
  | createCase (c : CaseRecord)
  | updateCase (c : CaseRecord)
  | createStatus (r : StatusRecord)
  | saveResult (r : ResultRecord)
  deriving DecidableEq, Repr

/-! ## In the store -/

namespace Store

def execute (s : Store) : StorageCommand → Except StoreFault Store
  | .saveSecret clientId secret => .ok (s.saveSecret clientId secret)
  | .createApplication a => s.createApplication a
  | .updateApplication a => s.updateApplication a
  | .deleteApplication uuid => .ok (s.deleteApplication uuid)
  | .createGrant g => .ok (s.createGrant g).2
  | .deleteGrant id => .ok (s.deleteGrant id)
  | .deleteApplicationGrants uuid => .ok (s.deleteApplicationGrants uuid)
  | .createCatalogGrant g => (s.createCatalogGrant g).map Prod.snd
  | .deleteCatalogGrant id => .ok (s.deleteCatalogGrant id)
  | .deleteApplicationCatalogGrants uuid => .ok (s.deleteApplicationCatalogGrants uuid)
  | .createType d => s.createType d
  | .createCase c => s.createCase c
  | .updateCase c => .ok (s.updateCase c)
  | .createStatus r => (s.createStatus r).map Prod.snd
  | .saveResult r => .ok (s.saveResult r)

/-- The store after a command, which is the same when the command fails. -/
def attempt (s : Store) (command : StorageCommand) : Store :=
  match s.execute command with
  | .ok s' => s'
  | .error _ => s

/-- The store after commands, one after the other. -/
def after (s : Store) (commands : List StorageCommand) : Store :=
  commands.foldl attempt s

end Store

/-! ## In the database -/

namespace Database

def execute (d : Database) : StorageCommand → Except StoreFault Database
  | .saveSecret clientId secret => .ok (d.saveSecret clientId secret)
  | .createApplication a => d.createApplication a
  | .updateApplication a => d.updateApplication a
  | .deleteApplication uuid => .ok (d.deleteApplication uuid)
  | .createGrant g => .ok (d.createGrant g).2
  | .deleteGrant id => (d.deleteGrant id).map Prod.snd
  | .deleteApplicationGrants uuid => .ok (d.deleteApplicationGrants uuid).2
  | .createCatalogGrant g => (d.createCatalogGrant g).map Prod.snd
  | .deleteCatalogGrant id => (d.deleteCatalogGrant id).map Prod.snd
  | .deleteApplicationCatalogGrants uuid => .ok (d.deleteApplicationCatalogGrants uuid).2
  | .createType t => d.createType t
  | .createCase c => d.createCase c
  | .updateCase c => .ok (d.updateCase c)
  | .createStatus r => (d.createStatus r).map Prod.snd
  | .saveResult r => .ok (d.saveResult r)

/-- The database after a command, which is the same when the command fails. -/
def attempt (d : Database) (command : StorageCommand) : Database :=
  match d.execute command with
  | .ok d' => d'
  | .error _ => d

/-- The database after commands, one after the other. -/
def after (d : Database) (commands : List StorageCommand) : Database :=
  commands.foldl attempt d

end Database

/-! ## The database of a store -/

/-- The database that holds what the store holds. -/
def Store.database (s : Store) : Database where
  secrets := s.secrets.rows.map ClientSecret.row
  applications := s.applications.rows.map ApplicationRow.row
  clients := s.clients.rows.map ClientRow.row
  grants := s.grants.map Grant.row
  catalogGrants := s.catalogGrants.map CatalogGrant.row
  types := s.types.rows.map TypeDefinition.row
  cases := s.cases.rows.map CaseRecord.row
  statuses := s.statuses.map StatusRecord.row
  results := s.results.rows.map ResultRecord.row

end CaseAccess
