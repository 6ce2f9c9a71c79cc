import CaseAccess.ApiError
import CaseAccess.Case.Record

/-!
# Notifications

Changes are announced on two channels: changes of the permissions of an
application, and changes of a case or of something that belongs to it. The address
of an object is formed from the base address of the installation.
-/

namespace CaseAccess

/-- What happened to an object. -/
inductive Action where
  | create
  | update
  | destroy
  deriving DecidableEq, Repr, Inhabited

namespace Action

def name : Action → String
  | .create => "create"
  | .update => "update"
  | .destroy => "destroy"

instance : Named Action := ⟨[.create, .update, .destroy], name⟩

/-- How much an action says: that an application is gone says more than that it is
new, and that more than that it changed. -/
def rank : Action → Nat
  | .update => 0
  | .create => 1
  | .destroy => 2

end Action

structure Notification where
  channel : String
  mainObject : String
  resource : String
  resourceUrl : String
  action : Action
  created : String
  features : SortedMap String String := {}
  deriving DecidableEq, Repr, Inhabited

def authorisationsChannel : String := "autorisaties"
def casesChannel : String := "zaken"

/-- The address of an application. -/
def applicationUrl (base uuid : String) : String :=
  withoutSlashes base ++ "/autorisaties/api/v1/applicaties/" ++ uuid

theorem applicationUrl_injective (base : String) :
    Function.Injective (applicationUrl base) := by
  intro uuid uuid' h
  exact String.append_right_inj _ |>.1 h

/-- The address of something that belongs to cases. -/
def casesUrl (base path : String) : String :=
  withoutSlashes base ++ "/zaken/api/v1/" ++ path

/-- The address of a case. -/
def caseUrl (base id : String) : String :=
  casesUrl base ("zaken/" ++ id)

namespace Notification

/-- A change of the permissions of an application. -/
def ofApplication (base : String) (now : Instant) (uuid : String) (action : Action) :
    Notification where
  channel := authorisationsChannel
  mainObject := applicationUrl base uuid
  resource := "applicatie"
  resourceUrl := applicationUrl base uuid
  action := action
  created := now.text 0

/-- A resource and its path below the cases. -/
structure SubResource where
  name : String
  path : String
  deriving DecidableEq, Repr

/-- A change of a case, or of a resource that belongs to it. -/
def ofCase (base : String) (now : Instant) (c : CaseRecord) (sub : Option SubResource)
    (action : Action) : Notification where
  channel := casesChannel
  mainObject := caseUrl base c.id
  resource := match sub with
    | some s => s.name
    | none => "zaak"
  resourceUrl := match sub with
    | some s => casesUrl base s.path
    | none => caseUrl base c.id
  action := action
  created := now.text 0
  features := SortedMap.ofList [
    ("zaaktype", c.caseType.key),
    ("vertrouwelijkheidaanduiding", c.confidentiality.name)]

open Json (Layout)

def layout : Layout Notification :=
  Notification.mk <$> .required "kanaal" Json.text? <*> .required "hoofdObject" Json.text?
    <*> .required "resource" Json.text? <*> .required "resourceUrl" Json.text?
    <*> .required "actie" Json.named? <*> .required "aanmaakdatum" Json.text?
    <*> .defaulted "kenmerken" (Json.table? Json.text?) {}

def toJson (n : Notification) : Json :=
  .object [
    ("kanaal", .string n.channel),
    ("hoofdObject", .string n.mainObject),
    ("resource", .string n.resource),
    ("resourceUrl", .string n.resourceUrl),
    ("actie", Json.ofNamed n.action),
    ("aanmaakdatum", .string n.created),
    ("kenmerken", Json.ofTextMap n.features)]

end Notification

end CaseAccess
