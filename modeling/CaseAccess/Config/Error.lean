import CaseAccess.Url.Host

/-!
# What can be wrong with a configuration

Each error is a cause, and `within` says in which part of the configuration it was
found; the message names the parts from the outside in.
-/

namespace CaseAccess

inductive ConfigError where
  | tokenExpiryZero
  | tokenExpiryTooLong
  | tokenLeewayTooLong
  | clientIdEmpty
  | secretEmpty (clientId : String)
  | unknownComponent (message : String)
  | createScopeEmpty (component : String)
  | createScopeMissing
  | fieldEmpty (name : String)
  | statusScopeEmpty
  | bypassScopeEmpty
  | cacheTtlTooLong
  | fetchTimeoutOutOfRange
  | opaqueApiRoot (text : String)
  | credentialsIncomplete
  | payloadLimitTooSmall
  | payloadLimitTooLarge
  | address (cause : Url.UrlError)
  | variable (key : String)
  | within (part : String) (cause : ConfigError)
  deriving DecidableEq, Repr

/-- The longest time of life of a token, in seconds, and of a fetched type: a day. -/
def maxTokenWindow : Nat := 86400
def maxCacheTtl : Nat := 86400

/-- The bounds of the time that a fetch may take, in seconds. -/
def minFetchTimeout : Nat := 1
def maxFetchTimeout : Nat := 60

/-- The bounds of the size of a body, in units of 2 ^ 20 bytes. -/
def minPayloadLimit : Nat := 1
def maxPayloadLimit : Nat := 10

def ConfigError.message : ConfigError → String
  | .tokenExpiryZero => "token_expiry_seconds should not be 0"
  | .tokenExpiryTooLong => s!"token_expiry_seconds should not exceed {maxTokenWindow}"
  | .tokenLeewayTooLong => "token_leeway_seconds should be less than token_expiry_seconds"
  | .clientIdEmpty => "client id of a secret cannot be empty"
  | .secretEmpty clientId => s!"secret of client '{clientId}' cannot be empty"
  | .unknownComponent message => message
  | .createScopeEmpty component => s!"create scope for component '{component}' cannot be empty"
  | .createScopeMissing => "create_scope_per_component should configure the 'ac' component"
  | .fieldEmpty name => s!"{name} cannot be empty"
  | .statusScopeEmpty => "status_scope cannot be empty, remove it to disable"
  | .bypassScopeEmpty => "closed_case_bypass cannot contain empty scopes"
  | .cacheTtlTooLong => s!"type_cache_ttl_seconds should be at most {maxCacheTtl}"
  | .fetchTimeoutOutOfRange =>
      s!"type_fetch_timeout_seconds should be in range [{minFetchTimeout}, {maxFetchTimeout}]"
  | .opaqueApiRoot text => s!"api_root '{text}' cannot be a base url"
  | .credentialsIncomplete => "client_id and secret should be set together"
  | .payloadLimitTooSmall =>
      s!"payload_limit_mib must be greater than or equal to {minPayloadLimit}"
  | .payloadLimitTooLarge => s!"payload_limit_mib must be less than or equal to {maxPayloadLimit}"
  | .address cause => cause.message
  | .variable key =>
      s!"error looking key '{key}' up: environment variable not found: "
        ++ "environment variable not found"
  | .within part cause => s!"{part}: {cause.message}"

/-- What may be wrong, found in a part of the configuration. -/
def ConfigError.inPart {α : Type} (part : String) : Except ConfigError α → Except ConfigError α
  | .ok a => .ok a
  | .error e => .error (.within part e)

end CaseAccess
