import CaseAccess.Catalog.Service
import CaseAccess.Config.Sections

/-!
# The configuration of an installation

Where the installation listens and keeps its data, the base of the addresses that it
hands out, and the parts about tokens, permissions, cases and types. Every field has
a default, so an empty document is a configuration.
-/

namespace CaseAccess

open Json (Layout)

/-- The directories of the configuration, the data and the keys. -/
structure Directories where
  config : String
  data : String
  keys : String
  deriving DecidableEq, Repr, Inhabited

/-- A name inside a directory; an absolute name stands for itself. -/
def pathIn (dir name : String) : String :=
  if dir = "" ∨ name.toList.head? = some '/' then name
  else if dir.toList.getLast? = some '/' then dir ++ name
  else dir ++ "/" ++ name

/-! ## Storage -/

inductive StorageKind where
  | sqlite
  deriving DecidableEq, Repr, Inhabited

instance : Named StorageKind := ⟨[.sqlite], fun | .sqlite => "sqlite"⟩

inductive CacheKind where
  | memory
  deriving DecidableEq, Repr, Inhabited

instance : Named CacheKind := ⟨[.memory], fun | .memory => "memory"⟩

/-- A data file, unless everything is kept in memory. -/
structure FileConfig where
  memory : Bool := false
  path : String := ""
  deriving DecidableEq, Repr, Inhabited

structure CacheConfig where
  enable : Bool := true
  name : CacheKind := .memory
  deriving DecidableEq, Repr, Inhabited

structure StorageConfig where
  name : StorageKind := .sqlite
  file : FileConfig := {}
  cache : CacheConfig := {}
  deriving DecidableEq, Repr, Inhabited

def FileConfig.layout : Layout FileConfig :=
  FileConfig.mk <$> .defaulted "memory" Json.bool? false <*> .defaulted "path" Json.text? ""

def FileConfig.toJson (c : FileConfig) : Json :=
  .object [("memory", .bool c.memory), ("path", .string c.path)]

/-- The file, by default one in the data directory. -/
def FileConfig.complete (env : Environment) (dirs : Directories) (c : FileConfig) :
    Except ConfigError FileConfig := do
  if c.memory then return c
  let path ← expandField env "path" c.path
  return { c with path := if path = "" then pathIn dirs.data "zgw-authz.db" else path }

def CacheConfig.layout : Layout CacheConfig :=
  CacheConfig.mk <$> .defaulted "enable" Json.bool? true <*> .defaulted "name" Json.named? .memory

def CacheConfig.toJson (c : CacheConfig) : Json :=
  .object [("enable", .bool c.enable), ("name", Json.ofNamed c.name)]

def StorageConfig.layout : Layout StorageConfig :=
  StorageConfig.mk <$> .defaulted "name" Json.named? .sqlite
    <*> .defaulted "sqlite" FileConfig.layout.decode {}
    <*> .defaulted "cache" CacheConfig.layout.decode {}

def StorageConfig.toJson (c : StorageConfig) : Json :=
  .object [
    ("name", Json.ofNamed c.name),
    ("sqlite", c.file.toJson),
    ("cache", c.cache.toJson)]

def StorageConfig.complete (env : Environment) (dirs : Directories) (c : StorageConfig) :
    Except ConfigError StorageConfig := do
  let file ← ConfigError.inPart "sqlite" (c.file.complete env dirs)
  return { c with file := file }

/-! ## Logs -/

inductive LogTarget where
  | stdout
  | stderr
  | file
  deriving DecidableEq, Repr, Inhabited

instance : Named LogTarget where
  all := [.stdout, .stderr, .file]
  name
    | .stdout => "stdout"
    | .stderr => "stderr"
    | .file => "file"

inductive LogLevel where
  | error
  | warning
  | info
  | debug
  deriving DecidableEq, Repr, Inhabited

instance : Named LogLevel where
  all := [.error, .warning, .info, .debug]
  name
    | .error => "error"
    | .warning => "warning"
    | .info => "info"
    | .debug => "debug"

structure LogsConfig where
  name : LogTarget := .stdout
  level : LogLevel := .info
  deriving DecidableEq, Repr, Inhabited

def LogsConfig.layout : Layout LogsConfig :=
  LogsConfig.mk <$> .defaulted "name" Json.named? .stdout <*> .defaulted "level" Json.named? .info

def LogsConfig.toJson (c : LogsConfig) : Json :=
  .object [("name", Json.ofNamed c.name), ("level", Json.ofNamed c.level)]

/-! ## The whole -/

structure ServerConfig where
  bind : String := "127.0.0.1:8000"
  ssl : Bool := false
  certPath : String := ""
  keyPath : String := ""
  keepAlive : Nat := 0
  workers : Nat := 0
  payloadLimit : Nat := 3
  publicBaseUrl : String := "http://localhost:8000"
  localBaseUrls : List String := []
  authn : AuthnConfig := {}
  authz : AuthzConfig := {}
  guard : GuardConfig := {}
  types : TypesConfig := {}
  storage : StorageConfig := {}
  logs : LogsConfig := {}
  deriving DecidableEq, Repr, Inhabited

namespace ServerConfig

def layout : Layout ServerConfig :=
  ServerConfig.mk <$> .defaulted "bind" Json.text? ({} : ServerConfig).bind
    <*> .defaulted "ssl" Json.bool? false <*> .defaulted "cert_path" Json.text? ""
    <*> .defaulted "key_path" Json.text? "" <*> .defaulted "keep_alive_secs" (Json.natural? 64) 0
    <*> .defaulted "workers" (Json.natural? 64) 0
    <*> .defaulted "payload_limit_mib" (Json.natural? 64) 3
    <*> .defaulted "public_base_url" Json.text? ({} : ServerConfig).publicBaseUrl
    <*> .defaulted "local_base_urls" (Json.list? Json.text?) []
    <*> .defaulted "authn" AuthnConfig.layout.decode {}
    <*> .defaulted "authz" AuthzConfig.layout.decode {}
    <*> .defaulted "guard" GuardConfig.layout.decode {}
    <*> .defaulted "types" TypesConfig.layout.decode {}
    <*> .defaulted "db" StorageConfig.layout.decode {}
    <*> .defaulted "logs" LogsConfig.layout.decode {}

def toJson (c : ServerConfig) : Json :=
  .object [
    ("bind", .string c.bind),
    ("ssl", .bool c.ssl),
    ("cert_path", .string c.certPath),
    ("key_path", .string c.keyPath),
    ("keep_alive_secs", .integer c.keepAlive),
    ("workers", .integer c.workers),
    ("payload_limit_mib", .integer c.payloadLimit),
    ("public_base_url", .string c.publicBaseUrl),
    ("local_base_urls", Json.ofTexts c.localBaseUrls),
    ("authn", c.authn.toJson),
    ("authz", c.authz.toJson),
    ("guard", c.guard.toJson),
    ("types", c.types.toJson),
    ("db", c.storage.toJson),
    ("logs", c.logs.toJson)]

/-- Refuses a text that is no address. -/
def checkAddress (part text : String) : Except ConfigError Unit :=
  match Url.parse text with
  | .ok _ => .ok ()
  | .error cause => .error (.within part (.address cause))

/-- A base of local addresses with its variables resolved. -/
def completeBase (env : Environment) (text : String) : Except ConfigError String := do
  let text ← expandField env "local_base_urls" text
  checkAddress s!"parse local base url '{text}'" text
  return text

def complete (env : Environment) (dirs : Directories) (c : ServerConfig) :
    Except ConfigError ServerConfig := do
  let bind ← expandField env "bind" c.bind
  if bind = "" then throw (.fieldEmpty "bind")
  let certPath ← expandField env "cert_path" c.certPath
  let keyPath ← expandField env "key_path" c.keyPath
  if c.payloadLimit < minPayloadLimit then throw .payloadLimitTooSmall
  if maxPayloadLimit < c.payloadLimit then throw .payloadLimitTooLarge
  let publicBaseUrl ← expandField env "public_base_url" c.publicBaseUrl
  checkAddress "parse public_base_url" publicBaseUrl
  let localBaseUrls ← c.localBaseUrls.mapM (completeBase env)
  let authn ← ConfigError.inPart "authn" (c.authn.complete env)
  let authz ← ConfigError.inPart "authz" c.authz.complete
  let guard ← ConfigError.inPart "guard" c.guard.complete
  let types ← ConfigError.inPart "types" (c.types.complete env)
  let storage ← ConfigError.inPart "db" (c.storage.complete env dirs)
  return { c with
    bind := bind
    certPath := if certPath = "" then pathIn dirs.keys "server.crt" else certPath
    keyPath := if keyPath = "" then pathIn dirs.keys "server.key" else keyPath
    publicBaseUrl := withoutSlashes publicBaseUrl
    localBaseUrls := localBaseUrls
    authn := authn
    authz := authz
    guard := guard
    types := types
    storage := storage }

/-- The bases below which types are held here: those configured, and the catalogs
below the address of the installation itself. -/
def localTypeBases (c : ServerConfig) : List String :=
  let own := c.publicBaseUrl ++ "/catalogi/api/v1/"
  if own ∈ c.localBaseUrls then c.localBaseUrls else c.localBaseUrls ++ [own]

/-- The mask that stands for a secret where a configuration is shown. -/
def mask : String := "******"

/-- The configuration without its secrets. -/
def masked (c : ServerConfig) : ServerConfig :=
  { c with
    authn := { c.authn with secrets := c.authn.secrets.map fun _ _ => mask }
    types := { c.types with
      services := c.types.services.map fun s => { s with secret := s.secret.map fun _ => mask } } }

end ServerConfig

/-- The part of a configuration that may change while the installation runs. -/
structure Settings where
  publicBaseUrl : String
  authn : AuthnConfig
  authz : AuthzConfig
  guard : GuardConfig
  deriving DecidableEq, Repr, Inhabited

def ServerConfig.settings (c : ServerConfig) : Settings :=
  ⟨c.publicBaseUrl, c.authn, c.authz, c.guard⟩

end CaseAccess
