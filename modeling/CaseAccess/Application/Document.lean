import CaseAccess.Application

/-!
# Applications in requests and answers

A body describes an application in full, a patch only what is to change; a patch
that gives grants replaces all of them. A grant in a body is text: whether its
component, its level and the reference of its type mean anything is decided when it
is used. A view is what a consumer sees of a stored application, with addresses in
place of references.
-/

namespace CaseAccess

open Json (Layout)

/-- The three fields that can name the type of a grant, by component. -/
structure TypeFields where
  zaaktype : Option String := none
  informatieobjecttype : Option String := none
  besluittype : Option String := none
  deriving DecidableEq, Repr, Inhabited

namespace TypeFields

/-- The text in a field. -/
def get? (f : TypeFields) (field : String) : Option String :=
  if field = "zaaktype" then f.zaaktype
  else if field = "informatieobjecttype" then f.informatieobjecttype
  else if field = "besluittype" then f.besluittype
  else none

/-- The fields with a text in one of them. -/
def set (f : TypeFields) (field text : String) : TypeFields :=
  if field = "zaaktype" then { f with zaaktype := some text }
  else if field = "informatieobjecttype" then { f with informatieobjecttype := some text }
  else if field = "besluittype" then { f with besluittype := some text }
  else f

/-- The fields that hold a text, as members. -/
def members (f : TypeFields) : Json.Members :=
  Json.member? "zaaktype" .string f.zaaktype
    ++ Json.member? "informatieobjecttype" .string f.informatieobjecttype
    ++ Json.member? "besluittype" .string f.besluittype

def layout : Layout TypeFields :=
  TypeFields.mk <$> .optional "zaaktype" Json.text? <*> .optional "informatieobjecttype" Json.text?
    <*> .optional "besluittype" Json.text?

end TypeFields

/-- A grant as it is asked for. -/
structure GrantBody where
  component : String := ""
  scopes : List String := []
  types : TypeFields := {}
  ceiling : Option String := none
  deriving DecidableEq, Repr, Inhabited

/-- The text in a field of the grant, unless it is empty. -/
def GrantBody.typeText? (g : GrantBody) (field : String) : Option String :=
  (g.types.get? field).filter (· ≠ "")

/-- An application as it is asked for. -/
structure ApplicationBody where
  clientIds : List String := []
  label : String := ""
  hasAllPermissions : Bool := false
  grants : List GrantBody := []
  deriving DecidableEq, Repr, Inhabited

/-- A change of an application. -/
structure ApplicationPatch where
  clientIds : Option (List String) := none
  label : Option String := none
  hasAllPermissions : Option Bool := none
  grants : Option (List GrantBody) := none
  deriving DecidableEq, Repr, Inhabited

/-- A grant as it is shown. -/
structure GrantView where
  component : String
  scopes : List String
  types : TypeFields := {}
  ceiling : Option String := none
  deriving DecidableEq, Repr, Inhabited

/-- An application as it is shown. -/
structure ApplicationView where
  url : String
  uuid : String
  clientIds : List String
  label : String
  hasAllPermissions : Bool
  grants : List GrantView
  deriving DecidableEq, Repr, Inhabited

/-! ## Documents -/

def GrantBody.layout : Layout GrantBody :=
  GrantBody.mk <$> .defaulted "component" Json.text? ""
    <*> .defaulted "scopes" (Json.list? Json.text?) [] <*> TypeFields.layout
    <*> .optional "maxVertrouwelijkheidaanduiding" Json.text?

/-- A grant with its component, scopes, type and ceiling, as members. -/
def grantMembers (component : String) (scopes : List String) (types : TypeFields)
    (ceiling : Option String) : Json :=
  .object ([("component", .string component), ("scopes", Json.ofTexts scopes)] ++ types.members
    ++ Json.member? "maxVertrouwelijkheidaanduiding" .string ceiling)

def GrantBody.toJson (g : GrantBody) : Json :=
  grantMembers g.component g.scopes g.types g.ceiling

def ApplicationBody.layout : Layout ApplicationBody :=
  ApplicationBody.mk <$> .defaulted "clientIds" (Json.list? Json.text?) []
    <*> .defaulted "label" Json.text? "" <*> .defaulted "heeftAlleAutorisaties" Json.bool? false
    <*> .defaulted "autorisaties" (Json.list? GrantBody.layout.decode) []

def ApplicationBody.toJson (b : ApplicationBody) : Json :=
  .object [
    ("clientIds", Json.ofTexts b.clientIds),
    ("label", .string b.label),
    ("heeftAlleAutorisaties", .bool b.hasAllPermissions),
    ("autorisaties", Json.ofList GrantBody.toJson b.grants)]

def ApplicationPatch.layout : Layout ApplicationPatch :=
  ApplicationPatch.mk <$> .nullable "clientIds" (Json.list? Json.text?)
    <*> .nullable "label" Json.text? <*> .nullable "heeftAlleAutorisaties" Json.bool?
    <*> .nullable "autorisaties" (Json.list? GrantBody.layout.decode)

def ApplicationPatch.toJson (p : ApplicationPatch) : Json :=
  .object [
    ("clientIds", Json.ofOption Json.ofTexts p.clientIds),
    ("label", Json.ofOption .string p.label),
    ("heeftAlleAutorisaties", Json.ofOption .bool p.hasAllPermissions),
    ("autorisaties", Json.ofOption (Json.ofList GrantBody.toJson) p.grants)]

def GrantView.layout : Layout GrantView :=
  GrantView.mk <$> .required "component" Json.text?
    <*> .required "scopes" (Json.list? Json.text?) <*> TypeFields.layout
    <*> .optional "maxVertrouwelijkheidaanduiding" Json.text?

def GrantView.toJson (g : GrantView) : Json :=
  grantMembers g.component g.scopes g.types g.ceiling

def ApplicationView.layout : Layout ApplicationView :=
  ApplicationView.mk <$> .required "url" Json.text? <*> .required "uuid" Json.text?
    <*> .required "clientIds" (Json.list? Json.text?) <*> .required "label" Json.text?
    <*> .required "heeftAlleAutorisaties" Json.bool?
    <*> .required "autorisaties" (Json.list? GrantView.layout.decode)

def ApplicationView.toJson (a : ApplicationView) : Json :=
  .object [
    ("url", .string a.url),
    ("uuid", .string a.uuid),
    ("clientIds", Json.ofTexts a.clientIds),
    ("label", .string a.label),
    ("heeftAlleAutorisaties", .bool a.hasAllPermissions),
    ("autorisaties", Json.ofList GrantView.toJson a.grants)]

end CaseAccess
