import CaseAccess.Http.Applications

/-!
# The server

Requests are told apart by their paths: those for the applications, the health of the
installation, and the rest, which lead nowhere. An error is answered with its
problem document. A body that is larger than the installation takes counts as none.
-/

namespace CaseAccess

open Operation

/-- The version that the health of an installation shows. -/
def version : String := "0.3.0"

/-- What of a server does not change while it runs. -/
structure HttpServer where
  /-- The base of the addresses of problems that no handler answers. -/
  baseUrl : String
  /-- The size of the largest body, in units of 2 ^ 20 bytes. -/
  payloadLimit : Nat
  deriving DecidableEq, Repr, Inhabited

/-- Identifiers that are new with a request. -/
structure Fresh where
  /-- For an application. -/
  uuid : String
  /-- For a problem. -/
  occurrence : String
  deriving DecidableEq, Repr, Inhabited

/-- The answer to a request that ended with an error. -/
def ApiError.response (e : ApiError) (base occurrence : String) : HttpResponse where
  status := e.kind.status
  contentType := some "application/problem+json"
  body := some (e.problem base occurrence).toJson

namespace HttpServer

/-- The path of the applications. -/
def applicationsPath : String := "/autorisaties/api/v1/applicaties"

/-- The path of the health of the installation. -/
def healthPath : String := "/healthz"

/-- Whether a path is that of the applications, or is below it. -/
def isApplicationsPath (path : List Char) : Bool :=
  path = applicationsPath.toList || (applicationsPath ++ "/").toList.isPrefixOf path

/-- A text without the slashes at both of its ends. -/
def withinSlashes (s : List Char) : List Char :=
  ((s.dropWhile (· = '/')).reverse.dropWhile (· = '/')).reverse

/-- The part of a path below that of the applications. -/
def pathBelow (path : String) : String :=
  let prefixed := applicationsPath.toList.isPrefixOf path.toList
  String.ofList (withinSlashes
    (if prefixed then path.toList.drop applicationsPath.length else path.toList))

/-- The request without a body that is too large. -/
def limited (server : HttpServer) (r : HttpRequest) : HttpRequest :=
  if server.payloadLimit * 1048576 < r.body.utf8ByteSize then { r with body := "" } else r

/-- Answers a request for the applications. -/
def handleApplications (fresh : Fresh) (r : HttpRequest) : Operation HttpResponse := do
  let c ← context
  let base := c.settings.publicBaseUrl
  match Endpoint.parse? r.method (pathBelow r.path) with
  | none => return ApiError.methodNotAllowed.response base fresh.occurrence
  | some endpoint =>
      match ← attempt (endpoint.serve fresh.uuid r) with
      | .ok response => return response
      | .error e => return e.response base fresh.occurrence

/-- Answers a request for the health of the installation. -/
def handleHealth (r : HttpRequest) : Operation HttpResponse := do
  let c ← context
  if r.method = "GET" then
    return .json 200 (.object [
      ("status", .string "ok"),
      ("now", .string (c.now.text 0)),
      ("client_ip", Json.ofOption .string r.peer),
      ("version", .string version)])
  else return { status := 405 }

/-- Answers a request. -/
def handle (server : HttpServer) (fresh : Fresh) (r : HttpRequest) : Operation HttpResponse := do
  let r := server.limited r
  if isApplicationsPath r.route then handleApplications fresh r
  else if r.route = healthPath.toList then handleHealth r
  else
    let e : ApiError := .notFound s!"No route to {r.method} {r.path}"
    return e.response server.baseUrl fresh.occurrence

end HttpServer

end CaseAccess
