import CaseAccess.Http.Server

/-!
# Setting up an installation

A configuration says how references are read, where types are fetched from and how
requests are taken; that is fixed as long as an installation runs. The secrets of the
configuration are stored at the start.
-/

namespace CaseAccess

/-- What a configuration fixes for an installation. -/
structure Site where
  bases : LocalBases
  services : ServiceMap
  typeTtl : Nat
  server : HttpServer
  deriving DecidableEq, Repr, Inhabited

/-- The site of a configuration. -/
def Site.of? (config : ServerConfig) : Except ConfigError Site :=
  match LocalBases.of? config.localTypeBases with
  | .error e =>
      .error (.within "init reference parser"
        (.within s!"parse local base url '{e.text}'" (.address e.cause)))
  | .ok bases => .ok {
      bases := bases
      services := ServiceMap.ofList config.types.services
      typeTtl := config.types.cacheTtl
      server := ⟨config.publicBaseUrl, config.payloadLimit⟩ }

/-- The context of an operation at a site. -/
def Site.context (site : Site) (settings : Settings)
    (answer : ServiceConfig → String → CatalogAnswer) (now : Instant) (uptime : Nat) : Context where
  settings := settings
  bases := site.bases
  services := site.services
  typeTtl := site.typeTtl
  answer := answer
  now := now
  uptime := uptime

/-- The store with the secrets of a configuration. -/
def Store.seed (s : Store) (secrets : SortedMap String String) : Store :=
  secrets.toList.foldl (fun s p => s.saveSecret p.1 p.2) s

/-- An installation at its start, over what the store held before. -/
def Installation.start (config : ServerConfig) (store : Store) : Installation where
  store := store.seed config.authn.secrets
  grantCache := { enabled := config.storage.cache.enable }

end CaseAccess
