import CaseAccess.Administration.Basic
import CaseAccess.Http.Message
import CaseAccess.Json.Parser
import CaseAccess.Permission.Decision
import CaseAccess.Token.Verification

/-!
# The applications resource

Applications are administered over HTTP. A request is one of a few endpoints, or its
method is not allowed. Then its token must verify, the applications of its client
must be allowed the scope for reading or the one for changing, and only then is its
body read.
-/

namespace CaseAccess

open Operation

/-- What a request to the applications asks for. -/
inductive Endpoint where
  | list
  | create
  | consumer
  | read (uuid : String)
  | replace (uuid : String)
  | patch (uuid : String)
  | delete (uuid : String)
  deriving DecidableEq, Repr

namespace Endpoint

/-- The endpoint of a method and a path below the resource. -/
def parse? (method path : String) : Option Endpoint :=
  if path.toList.contains '/' then none
  else if path = "" then
    if method = "GET" then some .list
    else if method = "POST" then some .create
    else none
  else if method = "GET" then some (if path = "consumer" then .consumer else .read path)
  else if method = "PUT" then some (.replace path)
  else if method = "PATCH" then some (.patch path)
  else if method = "DELETE" then some (.delete path)
  else none

def isRead : Endpoint → Bool
  | .list | .consumer | .read _ => true
  | _ => false

/-- The scopes that an endpoint takes. -/
def scopes (e : Endpoint) (config : AuthzConfig) : ScopeSet :=
  if e.isRead then config.readScopes else config.createScope .ac

end Endpoint

/-- What the token of a request says. -/
def authenticate (r : HttpRequest) : Operation Credential := do
  let c ← context
  let secrets ← reading (·.secret?)
  match Token.authenticate secrets c.settings.authn.window c.now.epochSeconds r.credential? with
  | .ok credential => return credential
  | .error e => fail e.toApiError

/-- Ends with an error unless the client may use the endpoint. -/
def Endpoint.authorize (e : Endpoint) (credential : Credential) : Operation Unit := do
  let c ← context
  let applications ← clientApplications credential.clientId
  let request : AccessRequest := { component := some .ac, scopes := e.scopes c.settings.authz }
  request.check applications

/-- The value that a body writes. -/
def readBody {α : Type} (read : Json.Reader α) (body : String) : Except ApiError α :=
  if body = "" then .error (.invalidParam "body" "required" "request body is required")
  else
    match Json.parse? body >>= read with
    | some a => .ok a
    | none => .error (.invalidParam "body" "parse_error" "invalid json: the body cannot be read")

/-- Does what an endpoint asks for; `uuid` is that of a new application. -/
def Endpoint.perform (e : Endpoint) (uuid : String) (r : HttpRequest) : Operation HttpResponse := do
  let shown (status : Nat) (v : ApplicationView) : HttpResponse := .json status v.toJson
  match e with
  | .list =>
      return .json 200 (Json.ofList ApplicationView.toJson (← Administration.listApplications))
  | .create =>
      let body ← ofExcept (readBody ApplicationBody.layout.decode r.body)
      return shown 201 (← Administration.createApplication uuid body)
  | .consumer =>
      match r.queryValue? "clientId" with
      | none => fail (.invalidParam "clientId" "required" "clientId is required")
      | some clientId => return shown 200 (← Administration.findConsumer clientId)
  | .read id => return shown 200 (← Administration.getApplication id)
  | .replace id =>
      let body ← ofExcept (readBody ApplicationBody.layout.decode r.body)
      return shown 200 (← Administration.replaceApplication id body)
  | .patch id =>
      let patch ← ofExcept (readBody ApplicationPatch.layout.decode r.body)
      return shown 200 (← Administration.patchApplication id patch)
  | .delete id =>
      Administration.deleteApplication id
      return { status := 204 }

/-- Serves an endpoint to a caller that may use it. -/
def Endpoint.serve (e : Endpoint) (uuid : String) (r : HttpRequest) : Operation HttpResponse := do
  let credential ← authenticate r
  e.authorize credential
  e.perform uuid r

end CaseAccess
