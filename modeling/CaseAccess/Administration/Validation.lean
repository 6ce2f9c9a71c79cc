import CaseAccess.ApiError
import CaseAccess.Application.Document
import CaseAccess.LocalBases
import CaseAccess.Text.Blank

/-!
# Validating applications

A body or a patch is read as a whole: every field that is wrong is reported, in the
order of the fields, and only one without such a field has a meaning. An application
either has every permission or lists grants, never both and never neither.
-/

namespace CaseAccess

/-- What a body or a patch asks for. Without grants those that are stored are kept. -/
structure ApplicationInput where
  clientIds : SortedSet String
  label : String
  hasAllPermissions : Bool
  grants : Option (List Grant)
  deriving DecidableEq, Repr

/-- The name under which errors are reported that concern several fields. -/
def nonFieldErrors : String := "nonFieldErrors"

/-! ## Grants -/

/-- What is wrong with a part that could not be read. -/
def refusal {α : Type} : Except InvalidParam α → List InvalidParam
  | .ok _ => []
  | .error p => [p]

namespace GrantBody

def readScopes (path : String) (g : GrantBody) : Except InvalidParam ScopeSet :=
  if g.scopes = [] then .error ⟨path ++ ".scopes", "required", "scopes cannot be empty"⟩
  else .ok (SortedSet.ofList g.scopes)

/-- The type of a grant, from the field that its component has for it. -/
def readType (bases : LocalBases) (path : String) (component : Component) (g : GrantBody) :
    Except InvalidParam (Option TypeRef) :=
  match component.typeField? with
  | none => .ok none
  | some field =>
      match g.typeText? field with
      | none =>
          .error ⟨s!"{path}.{field}", "required", s!"{field} is required for component {component}"⟩
      | some text =>
          match bases.read text with
          | .ok r => .ok (some r)
          | .error e => .error ⟨s!"{path}.{field}", "bad-url", e.message⟩

/-- The ceiling of a grant, which it has to have where objects have a level. -/
def readCeiling (path : String) (component : Component) (g : GrantBody) :
    Except InvalidParam (Option Confidentiality) :=
  let name := path ++ ".maxVertrouwelijkheidaanduiding"
  match g.ceiling with
  | some text =>
      match Named.ofName? text with
      | some level => .ok (some level)
      | none => .error ⟨name, "invalid_choice", Confidentiality.unknownMessage text⟩
  | none =>
      if component.hasConfidentiality then
        .error ⟨name, "required",
          s!"maxVertrouwelijkheidaanduiding is required for component {component}"⟩
      else .ok none

/-- The grant at a place in the list, of an application that is not known yet. -/
def read (bases : LocalBases) (place : Nat) (g : GrantBody) :
    Except (List InvalidParam) Grant :=
  let path := s!"autorisaties.{place}"
  match Named.ofName? g.component with
  | none =>
      .error [⟨path ++ ".component", "invalid_choice", Component.unknownMessage g.component⟩]
  | some component =>
      match g.readScopes path, g.readType bases path component, g.readCeiling path component with
      | .ok scopes, .ok typeRef, .ok ceiling =>
          .ok ⟨0, "", component, scopes, typeRef, ceiling⟩
      | scopes, typeRef, ceiling => .error (refusal scopes ++ refusal typeRef ++ refusal ceiling)

end GrantBody

/-- The grants of a list, each read at its place. -/
def readGrants (bases : LocalBases) (bodies : List GrantBody) :
    List (Except (List InvalidParam) Grant) :=
  bodies.zipIdx.map fun (body, place) => body.read bases place

/-- What is wrong with the grants of a list. -/
def grantRefusals (grants : List (Except (List InvalidParam) Grant)) : List InvalidParam :=
  grants.flatMap fun
    | .ok _ => []
    | .error ps => ps

/-- The grants of a list that could be read. -/
def acceptedGrants (grants : List (Except (List InvalidParam) Grant)) : List Grant :=
  grants.filterMap Except.toOption

/-! ## Other fields -/

def clientIdRefusals (ids : List String) : List InvalidParam :=
  (if ids = [] then [⟨"clientIds", "required", "at least one client id is required"⟩] else [])
    ++ if ids.any (trimmed · = "") then [⟨"clientIds", "blank", "client ids cannot be blank"⟩]
      else []

/-- The client identifiers that a list writes. -/
def readClientIds (ids : List String) : SortedSet String :=
  SortedSet.ofList (ids.map trimmed)

def labelRefusals (label : String) : List InvalidParam :=
  if trimmed label = "" then [⟨"label", "required", "label cannot be empty"⟩] else []

/-- What is wrong where an application has every permission and grants, or neither. -/
def exclusivityRefusals (hasAllPermissions hasGrants : Bool) : List InvalidParam :=
  match hasAllPermissions, hasGrants with
  | true, true => [⟨nonFieldErrors, "ambiguous-authorizations-specified",
      "either set heeftAlleAutorisaties or list autorisaties, not both"⟩]
  | false, false => [⟨nonFieldErrors, "missing-autorisaties",
      "set heeftAlleAutorisaties or list autorisaties"⟩]
  | _, _ => []

/-! ## Bodies and patches -/

/-- What a body asks for. -/
def ApplicationBody.read (bases : LocalBases) (b : ApplicationBody) :
    Except ApiError ApplicationInput := do
  let grants := readGrants bases b.grants
  ApiError.ofParams (clientIdRefusals b.clientIds ++ labelRefusals b.label
    ++ exclusivityRefusals b.hasAllPermissions (!b.grants.isEmpty) ++ grantRefusals grants)
  return ⟨readClientIds b.clientIds, b.label, b.hasAllPermissions, some (acceptedGrants grants)⟩

/-- What is wrong with a value that may be left out. -/
def givenRefusals {α : Type} (refusals : α → List InvalidParam) : Option α → List InvalidParam
  | some a => refusals a
  | none => []

/-- What a patch asks for, of an application that is now as `current` says. -/
def ApplicationPatch.read (bases : LocalBases) (current : Application) (p : ApplicationPatch) :
    Except ApiError ApplicationInput := do
  let hasAllPermissions := p.hasAllPermissions.getD current.hasAllPermissions
  let grants := p.grants.map (readGrants bases)
  ApiError.ofParams (givenRefusals clientIdRefusals p.clientIds
    ++ givenRefusals labelRefusals p.label
    ++ givenRefusals (fun l => exclusivityRefusals hasAllPermissions (!l.isEmpty)) p.grants
    ++ givenRefusals grantRefusals grants)
  return {
    clientIds := (p.clientIds.map readClientIds).getD current.clientIds
    label := p.label.getD current.label
    hasAllPermissions := hasAllPermissions
    grants := grants.map acceptedGrants }

end CaseAccess
