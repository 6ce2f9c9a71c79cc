import CaseAccess.Case.Writing

/-!
# Documents about cases

How a new case and a change of a case are written in a document, and how statuses
and results are shown. A member that is missing from a change changes nothing.
-/

namespace CaseAccess

open Json (Layout)

def NewCase.layout : Layout NewCase :=
  NewCase.mk <$> .optional "id" Json.text? <*> .required "case_type" Json.text?
    <*> .defaulted "confidentiality" Json.confidentiality? .openbaar
    <*> .optional "main_case" Json.text?
    <*> .defaulted "properties" (Json.table? Json.text?) {}

def CaseUpdate.layout : Layout CaseUpdate :=
  CaseUpdate.mk <$> .optional "confidentiality" Json.confidentiality?
    <*> .optional "properties" (Json.table? Json.text?)
    <*> .optional "suspended" Json.bool?
    <*> .optional "suspension_reason" Json.text?
    <*> .optional "archive_nomination" Json.text?
    <*> .optional "archive_action_date" Json.date?
    <*> .optional "decisions" (Json.list? DecisionDates.layout.decode)
    <*> .optional "related_end_dates" (Json.list? Json.date?)

def StatusRecord.toJson (s : StatusRecord) : Json :=
  .object [
    ("id", .integer s.id),
    ("case_id", .string s.caseId),
    ("status_type", Json.ofTypeRef s.statusType),
    ("set_at", .string (s.setAt.text 9)),
    ("is_final", .bool s.isFinal)]

def ResultRecord.toJson (r : ResultRecord) : Json :=
  .object [("case_id", .string r.caseId), ("result_type", Json.ofTypeRef r.resultType)]

end CaseAccess
