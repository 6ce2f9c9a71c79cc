import CaseAccess.Case.Record
import CaseAccess.Config.Expansion
import CaseAccess.ScopeSet
import CaseAccess.Token.Basic

/-!
# Tokens, permissions and cases

The three parts of the configuration that can be replaced while the installation
runs. `complete` resolves the variables in a part and refuses what makes no sense,
naming the first thing that is wrong.
-/

namespace CaseAccess

open Json (Layout)

/-! ## Tokens -/

/-- How tokens are verified, and the secrets that are stored at the start. -/
structure AuthnConfig where
  window : TokenWindow := {}
  secrets : SortedMap String String := {}
  deriving DecidableEq, Repr, Inhabited

namespace AuthnConfig

def layout : Layout AuthnConfig :=
  (fun expiry leeway secrets => ⟨⟨expiry, leeway⟩, secrets⟩)
    <$> .defaulted "token_expiry_seconds" (Json.natural? 64) 3600
    <*> .defaulted "token_leeway_seconds" (Json.natural? 64) 0
    <*> .defaulted "secrets" (Json.table? Json.text?) {}

def toJson (c : AuthnConfig) : Json :=
  .object [
    ("token_expiry_seconds", .integer c.window.expiry),
    ("token_leeway_seconds", .integer c.window.leeway),
    ("secrets", Json.ofTextMap c.secrets)]

/-- A secret with its variables resolved. -/
def completeSecret (env : Environment) (clientId secret : String) :
    Except ConfigError (String × String) := do
  if clientId = "" then throw .clientIdEmpty
  let secret ← expandField env clientId secret
  if secret = "" then throw (.secretEmpty clientId)
  return (clientId, secret)

def complete (env : Environment) (c : AuthnConfig) : Except ConfigError AuthnConfig := do
  if c.window.expiry = 0 then throw .tokenExpiryZero
  if maxTokenWindow < c.window.expiry then throw .tokenExpiryTooLong
  if c.window.expiry ≤ c.window.leeway then throw .tokenLeewayTooLong
  let secrets ← c.secrets.toList.mapM fun p => completeSecret env p.1 p.2
  return { c with secrets := SortedMap.ofList secrets }

end AuthnConfig

/-! ## Permissions -/

/-- The scopes that creating objects of a component and reading applications take. -/
structure AuthzConfig where
  createScopes : SortedMap String String := SortedMap.ofList [
    ("zrc", "zaken.aanmaken"), ("drc", "documenten.aanmaken"), ("brc", "besluiten.aanmaken"),
    ("ztc", "catalogi.schrijven"), ("ac", "autorisaties.bijwerken")]
  readScope : String := "autorisaties.lezen"
  deriving DecidableEq, Repr, Inhabited

namespace AuthzConfig

def layout : Layout AuthzConfig :=
  AuthzConfig.mk
    <$> .defaulted "create_scope_per_component" (Json.table? Json.text?)
      ({} : AuthzConfig).createScopes
    <*> .defaulted "read_scope" Json.text? ({} : AuthzConfig).readScope

def toJson (c : AuthzConfig) : Json :=
  .object [
    ("create_scope_per_component", Json.ofTextMap c.createScopes),
    ("read_scope", .string c.readScope)]

/-- Refuses a scope that is empty or belongs to no component. -/
def checkCreateScope (component scope : String) : Except ConfigError Unit := do
  if (Named.ofName? component : Option Component).isNone then
    throw (.within "create_scope_per_component"
      (.unknownComponent (Component.unknownMessage component)))
  if scope = "" then throw (.createScopeEmpty component)

def complete (c : AuthzConfig) : Except ConfigError AuthzConfig := do
  c.createScopes.toList.forM fun p => checkCreateScope p.1 p.2
  if (c.createScopes.get? Component.ac.name).isNone then throw .createScopeMissing
  if c.readScope = "" then throw (.fieldEmpty "read_scope")
  return c

/-- The scope that creating an object of the component takes; none where none is
configured, so that it is never allowed. -/
def createScope (c : AuthzConfig) (component : Component) : ScopeSet :=
  match c.createScopes.get? component.name with
  | some scope => ScopeSet.single scope
  | none => {}

def readScopes (c : AuthzConfig) : ScopeSet := ScopeSet.single c.readScope

end AuthzConfig

/-! ## Cases -/

/-- The scopes that decide about writing to cases. -/
structure GuardConfig where
  /-- Lets a write through on a closed case. -/
  forceWriteScope : String := "zaken.geforceerd-bijwerken"
  /-- Lets a closed case be reopened. -/
  reopenScope : String := "zaken.heropenen"
  /-- Needed, where it is set, for a status on a case that has one. -/
  statusScope : Option String := none
  /-- The scope that lets a write through in place of `forceWriteScope`, by the scope
  that the write takes. -/
  closedCaseBypass : SortedMap String String := {}
  deriving DecidableEq, Repr, Inhabited

namespace GuardConfig

def layout : Layout GuardConfig :=
  GuardConfig.mk
    <$> .defaulted "force_write_scope" Json.text? ({} : GuardConfig).forceWriteScope
    <*> .defaulted "reopen_scope" Json.text? ({} : GuardConfig).reopenScope
    <*> .optional "status_scope" Json.text?
    <*> .defaulted "closed_case_bypass" (Json.table? Json.text?) {}

def toJson (c : GuardConfig) : Json :=
  .object [
    ("force_write_scope", .string c.forceWriteScope),
    ("reopen_scope", .string c.reopenScope),
    ("status_scope", Json.ofOption .string c.statusScope),
    ("closed_case_bypass", Json.ofTextMap c.closedCaseBypass)]

def complete (c : GuardConfig) : Except ConfigError GuardConfig := do
  if c.forceWriteScope = "" then throw (.fieldEmpty "force_write_scope")
  if c.reopenScope = "" then throw (.fieldEmpty "reopen_scope")
  if c.statusScope = some "" then throw .statusScopeEmpty
  if c.closedCaseBypass.toList.any fun p => p.1 = "" ∨ p.2 = "" then throw .bypassScopeEmpty
  return c

/-- The scopes of which any lets a write that takes `required` through on a closed
case: those configured for a required scope, and if there are none, the scope that
forces every write. -/
def bypassScopes (c : GuardConfig) (required : ScopeSet) : List String :=
  let configured := required.toList.filterMap c.closedCaseBypass.get?
  (SortedSet.ofList (if configured = [] then [c.forceWriteScope] else configured)).toList

end GuardConfig

end CaseAccess
