import CaseAccess.Application
import CaseAccess.Calendar.InstantText
import CaseAccess.Case.Lifecycle

/-!
# Cases, statuses and results

What is kept of a case is what decides about writing to it: its type and level, its
state, its main case, and the dates from which its archive date is derived. A case
is closed exactly while it has an end date.
-/

namespace CaseAccess

/-- The dates of a decision on a case. -/
structure DecisionDates where
  effective : Date
  expiry : Option Date
  deriving DecidableEq, Repr

structure CaseRecord where
  id : String
  caseType : TypeRef
  confidentiality : Confidentiality
  lifecycle : Lifecycle := .new
  endDate : Option Date := none
  mainCase : Option String := none
  suspended : Bool := false
  suspensionReason : Option String := none
  /-- Set by a suspension, and kept when it is lifted. -/
  everSuspended : Bool := false
  archiveNomination : Option String := none
  archiveActionDate : Option Date := none
  properties : SortedMap String String := {}
  decisions : List DecisionDates := []
  relatedEndDates : List Date := []
  deriving DecidableEq, Repr

/-- A recorded status. Its id is 0 until it is stored. -/
structure StatusRecord where
  id : Nat
  caseId : String
  statusType : TypeRef
  /-- When the status was set; no two statuses of a case share it. -/
  setAt : Instant
  /-- Whether the type of the status was final when it was recorded. -/
  isFinal : Bool
  deriving DecidableEq, Repr

/-- The result of a case. -/
structure ResultRecord where
  caseId : String
  resultType : TypeRef
  deriving DecidableEq, Repr

def CaseRecord.isClosed (c : CaseRecord) : Bool := c.endDate.isSome

/-! ## Documents -/

namespace Json

def date? : Reader Date := fun v => do
  let text ← text? v
  Date.parse? text

def ofDate (d : Date) : Json := .string d.text

def ofTextMap (m : SortedMap String String) : Json :=
  .object (m.toList.map fun p => (p.1, .string p.2))

end Json

open Json (Layout)

def DecisionDates.layout : Layout DecisionDates :=
  DecisionDates.mk <$> .required "effective_date" Json.date? <*> .nullable "expiry_date" Json.date?

def DecisionDates.toJson (d : DecisionDates) : Json :=
  .object [
    ("effective_date", Json.ofDate d.effective),
    ("expiry_date", Json.ofOption Json.ofDate d.expiry)]

def CaseRecord.layout : Layout CaseRecord :=
  CaseRecord.mk <$> .required "id" Json.text? <*> .required "case_type" Json.typeRef?
    <*> .required "confidentiality" Json.confidentiality?
    <*> .required "lifecycle" Json.named? <*> .nullable "end_date" Json.date?
    <*> .nullable "main_case" Json.text? <*> .required "suspended" Json.bool?
    <*> .nullable "suspension_reason" Json.text? <*> .required "ever_suspended" Json.bool?
    <*> .nullable "archive_nomination" Json.text?
    <*> .nullable "archive_action_date" Json.date?
    <*> .required "properties" (Json.table? Json.text?)
    <*> .required "decisions" (Json.list? DecisionDates.layout.decode)
    <*> .required "related_end_dates" (Json.list? Json.date?)

def CaseRecord.toJson (c : CaseRecord) : Json :=
  .object [
    ("id", .string c.id),
    ("case_type", Json.ofTypeRef c.caseType),
    ("confidentiality", Json.ofNamed c.confidentiality),
    ("lifecycle", Json.ofNamed c.lifecycle),
    ("end_date", Json.ofOption Json.ofDate c.endDate),
    ("main_case", Json.ofOption .string c.mainCase),
    ("suspended", .bool c.suspended),
    ("suspension_reason", Json.ofOption .string c.suspensionReason),
    ("ever_suspended", .bool c.everSuspended),
    ("archive_nomination", Json.ofOption .string c.archiveNomination),
    ("archive_action_date", Json.ofOption Json.ofDate c.archiveActionDate),
    ("properties", Json.ofTextMap c.properties),
    ("decisions", Json.ofList DecisionDates.toJson c.decisions),
    ("related_end_dates", Json.ofList Json.ofDate c.relatedEndDates)]

end CaseAccess
