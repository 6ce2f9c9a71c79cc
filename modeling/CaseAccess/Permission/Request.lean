import CaseAccess.ApiError
import CaseAccess.Application

/-!
# Requests for permission

A caller asks for scopes on a component, perhaps on an object with a type and a level
of confidentiality. The answer is a decision: it allows what was asked for, or it
denies it for a reason.
-/

namespace CaseAccess

structure AccessRequest where
  /-- Without a component only an application with every permission is allowed anything. -/
  component : Option Component
  scopes : ScopeSet
  typeRef : Option TypeRef := none
  confidentiality : Option Confidentiality := none
  deriving DecidableEq, Repr

inductive DenyReason where
  | noApplications
  | noScopesRequired
  | noComponent
  | scopesNotGranted
  /-- A grant on a catalog could have given the scopes, but the type could not be
  resolved for now. -/
  | catalogUnavailable (detail : String)
  deriving DecidableEq, Repr

namespace DenyReason

def message : DenyReason → String
  | .noApplications => "client has no applications"
  | .noScopesRequired => "no scopes required"
  | .noComponent => "no component given"
  | .scopesNotGranted => "scopes not granted"
  | .catalogUnavailable detail => s!"upstream unavailable: {detail}"

/-- The error that the caller is told. Only a type that could not be resolved is told
apart from the other reasons. -/
def toApiError : DenyReason → ApiError
  | .catalogUnavailable detail => .catalogUnavailable detail
  | _ => .permissionDenied

end DenyReason

inductive Decision where
  | allow
  | deny (reason : DenyReason)
  deriving DecidableEq, Repr

namespace Decision

def isAllowed (d : Decision) : Bool := d = .allow

def denial? : Decision → Option DenyReason
  | .allow => none
  | .deny reason => some reason

/-- Nothing, or the error that the caller is told. -/
def toResult : Decision → Except ApiError Unit
  | .allow => .ok ()
  | .deny reason => .error reason.toApiError

end Decision

end CaseAccess
