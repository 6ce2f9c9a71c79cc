import CaseAccess.Config.Expansion
import CaseAccess.Json.Record
import CaseAccess.LocalBases

/-!
# Services

Types of other installations are fetched from services, each with the address below
which it answers and, if it asks for them, the credentials to use there. An address
belongs to the service with the longest root that it begins with; an address below
no root is never fetched.
-/

namespace CaseAccess

open Json (Layout)

structure ServiceConfig where
  apiRoot : String
  clientId : Option String := none
  secret : Option String := none
  deriving DecidableEq, Repr, Inhabited

namespace ServiceConfig

def layout : Layout ServiceConfig :=
  ServiceConfig.mk <$> .required "api_root" Json.text? <*> .optional "client_id" Json.text?
    <*> .optional "secret" Json.text?

def toJson (c : ServiceConfig) : Json :=
  .object [
    ("api_root", .string c.apiRoot),
    ("client_id", Json.ofOption .string c.clientId),
    ("secret", Json.ofOption .string c.secret)]

/-- The service with its root in normal form, ending in a slash, and the variables
of its secret resolved. -/
def complete (env : Environment) (c : ServiceConfig) : Except ConfigError ServiceConfig := do
  let url ← match Url.parse c.apiRoot with
    | .ok url => pure url
    | .error cause => throw (.within "parse api_root" (.address cause))
  if url.isOpaque then throw (.opaqueApiRoot c.apiRoot)
  let secret ← c.secret.mapM (expandField env "secret")
  if c.clientId.isSome ≠ secret.isSome then throw .credentialsIncomplete
  return ⟨String.ofList (withSlash url.chars), c.clientId, secret⟩

end ServiceConfig

/-- Where types are fetched from, for how long they are kept, and how long a fetch
may take. -/
structure TypesConfig where
  cacheTtl : Nat := 600
  fetchTimeout : Nat := 5
  services : List ServiceConfig := []
  deriving DecidableEq, Repr, Inhabited

namespace TypesConfig

def layout : Layout TypesConfig :=
  TypesConfig.mk <$> .defaulted "type_cache_ttl_seconds" (Json.natural? 64) 600
    <*> .defaulted "type_fetch_timeout_seconds" (Json.natural? 64) 5
    <*> .defaulted "services" (Json.list? ServiceConfig.layout.decode) []

def toJson (c : TypesConfig) : Json :=
  .object [
    ("type_cache_ttl_seconds", .integer c.cacheTtl),
    ("type_fetch_timeout_seconds", .integer c.fetchTimeout),
    ("services", Json.ofList ServiceConfig.toJson c.services)]

def complete (env : Environment) (c : TypesConfig) : Except ConfigError TypesConfig := do
  if maxCacheTtl < c.cacheTtl then throw .cacheTtlTooLong
  if c.fetchTimeout < minFetchTimeout ∨ maxFetchTimeout < c.fetchTimeout then
    throw .fetchTimeoutOutOfRange
  let services ← c.services.zipIdx.mapM fun (service, i) =>
    ConfigError.inPart s!"services[{i}]" (service.complete env)
  return { c with services := services }

end TypesConfig

/-- The services, those with longer roots first. -/
structure ServiceMap where
  services : List ServiceConfig
  deriving DecidableEq, Repr, Inhabited

namespace ServiceMap

/-- The services of a list; of roots of one length the first stays first. -/
def ofList (services : List ServiceConfig) : ServiceMap :=
  ⟨services.mergeSort fun a b => decide (b.apiRoot.utf8ByteSize ≤ a.apiRoot.utf8ByteSize)⟩

/-- The service that an address belongs to. -/
def find? (m : ServiceMap) (address : String) : Option ServiceConfig :=
  m.services.find? fun s => s.apiRoot.toList.isPrefixOf address.toList

end ServiceMap

end CaseAccess
