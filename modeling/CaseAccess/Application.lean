import CaseAccess.Component
import CaseAccess.Confidentiality
import CaseAccess.Json.Record
import CaseAccess.ScopeSet
import CaseAccess.TypeRef

/-!
# Applications and their grants

An application is a consumer of the interfaces, reached by one or more client
identifiers. It may hold every permission, or it holds grants: an explicit grant
gives scopes of one component, perhaps only on one type, and a catalog grant gives
them on every type of that component in one catalog, present and future.
-/

namespace CaseAccess

structure Application where
  uuid : String
  label : String
  clientIds : SortedSet String
  hasAllPermissions : Bool
  deriving DecidableEq, Repr, Inhabited

/-- An explicit permission. Its id is 0 until it is stored. -/
structure Grant where
  id : Nat
  application : String
  component : Component
  scopes : ScopeSet
  typeRef : Option TypeRef
  ceiling : Option Confidentiality
  deriving DecidableEq, Repr, Inhabited

/-- A permission on all types of one component in one catalog. -/
structure CatalogGrant where
  id : Nat
  application : String
  component : Component
  catalog : TypeRef
  scopes : ScopeSet
  ceiling : Option Confidentiality
  deriving DecidableEq, Repr, Inhabited

/-- Whether the ceiling of the grant passes a request for that level. -/
def Grant.passes (g : Grant) (level : Option Confidentiality) : Bool :=
  Confidentiality.passes g.ceiling level

/-- Whether the ceiling of the grant passes a request for that level. -/
def CatalogGrant.passes (g : CatalogGrant) (level : Option Confidentiality) : Bool :=
  Confidentiality.passes g.ceiling level

/-! ## Documents -/

namespace Json

def component? : Reader Component := named?
def confidentiality? : Reader Confidentiality := named?

def typeRef? : Reader TypeRef := fun v => (text? v).map TypeRef.mk
def scopes? : Reader ScopeSet := set? text?

/-- The name of a value. -/
def ofNamed {α : Type} [Named α] (a : α) : Json := .string (Named.name a)

def ofTypeRef (r : TypeRef) : Json := .string r.key

/-- The members of a set, in order. -/
def ofTextSet (s : SortedSet String) : Json := ofTexts s.toList

def ofNat (n : Nat) : Json := .integer n

end Json

open Json (Layout)

def Application.layout : Layout Application :=
  Application.mk <$> .required "uuid" Json.text? <*> .required "label" Json.text?
    <*> .required "client_ids" (Json.set? Json.text?)
    <*> .required "has_all_permissions" Json.bool?

def Application.toJson (a : Application) : Json :=
  .object [
    ("uuid", .string a.uuid),
    ("label", .string a.label),
    ("client_ids", Json.ofTextSet a.clientIds),
    ("has_all_permissions", .bool a.hasAllPermissions)]

def Grant.layout : Layout Grant :=
  Grant.mk <$> .required "id" (Json.natural? 64) <*> .required "application" Json.text?
    <*> .required "component" Json.component? <*> .required "scopes" Json.scopes?
    <*> .nullable "type_ref" Json.typeRef? <*> .nullable "max_confidentiality" Json.confidentiality?

def Grant.toJson (g : Grant) : Json :=
  .object [
    ("id", Json.ofNat g.id),
    ("application", .string g.application),
    ("component", Json.ofNamed g.component),
    ("scopes", Json.ofTextSet g.scopes),
    ("type_ref", Json.ofOption Json.ofTypeRef g.typeRef),
    ("max_confidentiality", Json.ofOption Json.ofNamed g.ceiling)]

def CatalogGrant.layout : Layout CatalogGrant :=
  CatalogGrant.mk <$> .required "id" (Json.natural? 64) <*> .required "application" Json.text?
    <*> .required "component" Json.component? <*> .required "catalog" Json.typeRef?
    <*> .required "scopes" Json.scopes?
    <*> .nullable "max_confidentiality" Json.confidentiality?

def CatalogGrant.toJson (g : CatalogGrant) : Json :=
  .object [
    ("id", Json.ofNat g.id),
    ("application", .string g.application),
    ("component", Json.ofNamed g.component),
    ("catalog", Json.ofTypeRef g.catalog),
    ("scopes", Json.ofTextSet g.scopes),
    ("max_confidentiality", Json.ofOption Json.ofNamed g.ceiling)]

end CaseAccess
