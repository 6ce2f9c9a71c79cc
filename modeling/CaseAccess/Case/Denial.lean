import CaseAccess.ApiError
import CaseAccess.Case.Archive

/-!
# Why a write to a case is refused

A write that the permissions of the caller allow can still be refused because of the
state of the case. Each reason has a code, and its text is the detail of the error
that the caller is told; reasons that lie in the input name the field at fault.
-/

namespace CaseAccess

inductive GuardDenial where
  | caseClosed
  | reopenForbidden (scope : String)
  | mainCaseClosed
  | statusScopeMissing
  | statusTypeMismatch (statusType : TypeRef)
  | duplicateStatus (setAt : Instant)
  | resultMissing
  | subCasesOpen (id : String)
  | subCaseResultMissing (id : String)
  | subCaseOfSubCase
  | archive (cause : ArchiveError)
  deriving DecidableEq, Repr

namespace GuardDenial

def message : GuardDenial → String
  | .caseClosed => "the case is closed"
  | .reopenForbidden scope => s!"reopening the case requires scope '{scope}'"
  | .mainCaseClosed => "the main case is closed, its sub-case cannot be reopened"
  | .statusScopeMissing => "adding a status to a case that has one requires another scope"
  | .statusTypeMismatch statusType =>
      s!"status type {statusType} does not belong to the case type"
  | .duplicateStatus setAt => s!"a status was already recorded at {setAt.display}"
  | .resultMissing => "a final status requires a result on the case"
  | .subCasesOpen id => s!"sub-case {id} has no final status"
  | .subCaseResultMissing id => s!"sub-case {id} has no result"
  | .subCaseOfSubCase => "a sub-case cannot be the main case of another case"
  | .archive cause => s!"cannot compute the archive action date: {cause.message}"

def code : GuardDenial → String
  | .caseClosed => "case-closed"
  | .reopenForbidden _ => "reopen-forbidden"
  | .mainCaseClosed => "main-case-closed"
  | .statusScopeMissing => "status-scope-missing"
  | .statusTypeMismatch _ => "zaaktype-mismatch"
  | .duplicateStatus _ => "unique"
  | .resultMissing => "result-missing"
  | .subCasesOpen _ => "sub-cases-open"
  | .subCaseResultMissing _ => "sub-case-result-missing"
  | .subCaseOfSubCase => "deelzaak-als-hoofdzaak"
  | .archive _ => "archiefactiedatum-error"

/-- The field of the request that is at fault. -/
def field : GuardDenial → String
  | .subCaseOfSubCase => "hoofdzaak"
  | .archive _ => "archiefactiedatum"
  | .duplicateStatus _ => "datumStatusGezet"
  | _ => "statustype"

/-- The error that the caller is told. -/
def toApiError (d : GuardDenial) : ApiError :=
  match d with
  | .caseClosed | .reopenForbidden _ | .mainCaseClosed => ⟨.caseClosed, d.code, d.message, []⟩
  | .statusScopeMissing => ⟨.permissionDenied, d.code, d.message, []⟩
  | .statusTypeMismatch _ => .typeMismatch d.code d.message
  | .duplicateStatus _ => .conflict d.code d.message
  | .resultMissing | .subCasesOpen _ | .subCaseResultMissing _ | .subCaseOfSubCase | .archive _ =>
      .invalidParam d.field d.code d.message

end GuardDenial

end CaseAccess
