import CaseAccess.Case.Record
import CaseAccess.Catalog.TypeDefinition
import CaseAccess.Store.Table

/-!
# The store

What an installation keeps: the secrets of clients, applications and their grants,
the types that are held here, and cases with their statuses and results. A client
identifier is a row of its own, since it belongs to one application at most.

An operation of the store fails only where a key is taken, or where a point in time
was kept that cannot be read back; what that means is for its caller to say.
-/

namespace CaseAccess

/-- The secret that a client shares with the installation. -/
structure ClientSecret where
  clientId : String
  secret : String
  deriving DecidableEq, Repr

/-- An application without its client identifiers. -/
structure ApplicationRow where
  uuid : String
  label : String
  hasAllPermissions : Bool
  deriving DecidableEq, Repr

/-- A client identifier and the application that it belongs to. -/
structure ClientRow where
  clientId : String
  application : String
  deriving DecidableEq, Repr

structure Store where
  secrets : Table ClientSecret.clientId := {}
  applications : Table ApplicationRow.uuid := {}
  clients : Table ClientRow.clientId := {}
  grants : Numbered Grant := {}
  catalogGrants : Numbered CatalogGrant := {}
  types : Table TypeDefinition.reference := {}
  cases : Table CaseRecord.id := {}
  statuses : Numbered StatusRecord := {}
  results : Table ResultRecord.caseId := {}
  deriving DecidableEq, Repr, Inhabited

/-- Why an operation of the store fails. -/
inductive StoreFault where
  | keyTaken
  | unreadable
  deriving DecidableEq, Repr

/-- A row, or the fault that its key is taken. -/
def orKeyTaken {α : Type} : Option α → Except StoreFault α
  | some a => .ok a
  | none => .error .keyTaken

end CaseAccess
