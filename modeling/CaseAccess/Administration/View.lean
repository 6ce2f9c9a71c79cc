import CaseAccess.Application.Document
import CaseAccess.Notification
import CaseAccess.Store.Grants

/-!
# Views of applications

An application is shown with its explicit grants and, after these, one grant for
each type that is now in a catalog of which it holds a grant, in the order of the
catalog grants and of the types. A catalog grant on a component without types shows
nothing. Types are shown by their addresses.
-/

namespace CaseAccess

/-- The address of a type; a remote reference is one already. -/
def typeUrl (base : String) (component : Component) (r : TypeRef) : String :=
  if r.isRemote then r.key
  else
    withoutSlashes base ++ "/catalogi/api/v1/" ++ component.typeCollection?.getD "zaaktypen"
      ++ "/" ++ r.key

/-- A grant as it is shown. -/
def viewGrant (base : String) (component : Component) (scopes : ScopeSet)
    (typeRef : Option TypeRef) (ceiling : Option Confidentiality) : GrantView where
  component := component.name
  scopes := scopes.toList
  types := match component.typeField?, typeRef with
    | some field, some r => TypeFields.set {} field (typeUrl base component r)
    | _, _ => {}
  ceiling := ceiling.map (·.name)

def Grant.view (base : String) (g : Grant) : GrantView :=
  viewGrant base g.component g.scopes g.typeRef g.ceiling

namespace Store

/-- The grants that a catalog grant stands for, as they are shown. -/
def viewCatalogGrant (s : Store) (base : String) (g : CatalogGrant) : List GrantView :=
  if g.component.typeField?.isNone then []
  else (s.catalogTypes g.catalog g.component).map fun r =>
    viewGrant base g.component g.scopes (some r) g.ceiling

/-- An application as it is shown. -/
def view (s : Store) (base : String) (a : Application) : ApplicationView where
  url := applicationUrl base a.uuid
  uuid := a.uuid
  clientIds := a.clientIds.toList
  label := a.label
  hasAllPermissions := a.hasAllPermissions
  grants := (s.listGrants a.uuid).map (·.view base)
    ++ (s.listCatalogGrants a.uuid).flatMap (s.viewCatalogGrant base)

end Store

end CaseAccess
