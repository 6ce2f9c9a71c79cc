import CaseAccess.Json.Record
import CaseAccess.Named

/-!
# Errors as a consumer sees them

An error has a kind, which fixes its status and title, a code for programs and a
detail for people. An error about input also lists the fields that were refused,
and its detail is that list. The envelope around an error is the problem document
of RFC 7807, with an identifier of its own for every occurrence.
-/

namespace CaseAccess

inductive ErrorKind where
  | notAuthenticated
  | tokenInvalid
  | permissionDenied
  | caseClosed
  | invalidInput
  | typeMismatch
  | notFound
  | methodNotAllowed
  | conflict
  | catalogUnavailable
  | internalError
  deriving DecidableEq, Repr, Inhabited

namespace ErrorKind

def name : ErrorKind → String
  | .notAuthenticated => "not-authenticated"
  | .tokenInvalid => "token-invalid"
  | .permissionDenied => "permission-denied"
  | .caseClosed => "case-closed"
  | .invalidInput => "invalid-input"
  | .typeMismatch => "type-mismatch"
  | .notFound => "not-found"
  | .methodNotAllowed => "method-not-allowed"
  | .conflict => "conflict"
  | .catalogUnavailable => "upstream-unavailable"
  | .internalError => "internal-error"

/-- The last part of the address that names the kind. -/
def typeName : ErrorKind → String
  | .notAuthenticated => "NotAuthenticated"
  | .tokenInvalid => "TokenInvalid"
  | .permissionDenied => "PermissionDenied"
  | .caseClosed => "CaseClosed"
  | .invalidInput => "ValidationError"
  | .typeMismatch => "TypeMismatch"
  | .notFound => "NotFound"
  | .methodNotAllowed => "MethodNotAllowed"
  | .conflict => "Conflict"
  | .catalogUnavailable => "UpstreamUnavailable"
  | .internalError => "APIException"

/-- The status of an answer with an error of this kind. -/
def status : ErrorKind → Nat
  | .notAuthenticated | .tokenInvalid => 401
  | .permissionDenied | .caseClosed => 403
  | .invalidInput | .typeMismatch => 400
  | .notFound => 404
  | .methodNotAllowed => 405
  | .conflict => 409
  | .catalogUnavailable => 502
  | .internalError => 500

def title : ErrorKind → String
  | .notAuthenticated => "Authentication credentials were not provided."
  | .tokenInvalid => "The provided token is not valid."
  | .permissionDenied => "You do not have permission to perform this action."
  | .caseClosed => "The case is closed."
  | .invalidInput => "Invalid input."
  | .typeMismatch => "The referenced type does not match."
  | .notFound => "Not found."
  | .methodNotAllowed => "Method not allowed."
  | .conflict => "The request conflicts with the current state."
  | .catalogUnavailable => "An upstream service is unavailable."
  | .internalError => "A server error occurred."

end ErrorKind

/-- A field that was refused. -/
structure InvalidParam where
  name : String
  code : String
  reason : String
  deriving DecidableEq, Repr, Inhabited

structure ApiError where
  kind : ErrorKind
  code : String
  detail : String
  invalidParams : List InvalidParam := []
  deriving DecidableEq, Repr, Inhabited

namespace ApiError

/-- An error of a kind whose title says enough. -/
def plain (kind : ErrorKind) (code : String) : ApiError :=
  ⟨kind, code, kind.title, []⟩

def notAuthenticated : ApiError := plain .notAuthenticated "not_authenticated"
def permissionDenied : ApiError := plain .permissionDenied "permission_denied"
def methodNotAllowed : ApiError := plain .methodNotAllowed "method_not_allowed"

def notFound (detail : String) : ApiError := ⟨.notFound, "not_found", detail, []⟩
def conflict (code detail : String) : ApiError := ⟨.conflict, code, detail, []⟩
def typeMismatch (code detail : String) : ApiError := ⟨.typeMismatch, code, detail, []⟩

def catalogUnavailable (detail : String) : ApiError :=
  ⟨.catalogUnavailable, "upstream_unavailable", detail, []⟩

def internal (detail : String) : ApiError := ⟨.internalError, "error", detail, []⟩

/-- What a consumer learns of a fault that is not its own. -/
def serverFault : ApiError := plain .internalError "error"

/-- The error of a list of refused fields. -/
def invalid (params : List InvalidParam) : ApiError where
  kind := .invalidInput
  code := "invalid"
  detail := "; ".intercalate (params.map fun p => p.name ++ ": " ++ p.reason)
  invalidParams := params

def invalidParam (name code reason : String) : ApiError := invalid [⟨name, code, reason⟩]

/-- Nothing, unless fields were refused. -/
def ofParams (params : List InvalidParam) : Except ApiError Unit :=
  if params = [] then .ok () else .error (invalid params)

theorem ofParams_eq_ok {params : List InvalidParam} {u : Unit} :
    ofParams params = .ok u ↔ params = [] := by
  rw [ofParams]
  split
  · next h => simp [h]
  · next h => simp [h]

/-- The line of a log. -/
def display (e : ApiError) : String :=
  s!"{e.kind.name} ({e.code}): {e.detail}"

end ApiError

/-- The document around an error. -/
structure Problem where
  type : String
  code : String
  title : String
  status : Nat
  detail : String
  occurrence : String
  invalidParams : List InvalidParam
  deriving DecidableEq, Repr, Inhabited

/-- A text without the slashes at its end. -/
def withoutSlashes (s : String) : String :=
  String.ofList (s.toList.reverse.dropWhile (· = '/')).reverse

/-- The document of an error for an installation at `base`; `occurrence` identifies
this one time that it happened. -/
def ApiError.problem (e : ApiError) (base occurrence : String) : Problem where
  type := withoutSlashes base ++ "/ref/fouten/" ++ e.kind.typeName ++ "/"
  code := e.code
  title := e.kind.title
  status := e.kind.status
  detail := e.detail
  occurrence := occurrence
  invalidParams := e.invalidParams

/-! ## Documents -/

open Json (Layout)

def InvalidParam.layout : Layout InvalidParam :=
  InvalidParam.mk <$> .required "name" Json.text? <*> .required "code" Json.text?
    <*> .required "reason" Json.text?

def InvalidParam.toJson (p : InvalidParam) : Json :=
  .object [("name", .string p.name), ("code", .string p.code), ("reason", .string p.reason)]

def Problem.layout : Layout Problem :=
  Problem.mk <$> .required "type" Json.text? <*> .required "code" Json.text?
    <*> .required "title" Json.text? <*> .required "status" (Json.natural? 16)
    <*> .required "detail" Json.text? <*> .required "instance" Json.text?
    <*> .defaulted "invalidParams" (Json.list? InvalidParam.layout.decode) []

def Problem.toJson (p : Problem) : Json :=
  .object ([
    ("type", .string p.type),
    ("code", .string p.code),
    ("title", .string p.title),
    ("status", .integer p.status),
    ("detail", .string p.detail),
    ("instance", .string p.occurrence)]
    ++ if p.invalidParams.isEmpty then [] else
      [("invalidParams", Json.ofList InvalidParam.toJson p.invalidParams)])

end CaseAccess
