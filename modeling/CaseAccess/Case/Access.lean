import CaseAccess.Case.Guard
import CaseAccess.Catalog.Lookup
import CaseAccess.Permission.Decision

/-!
# Access to cases

What every operation on a case asks before it writes: whether the caller has the
scopes on the type and the level of the case, whether the guard lets the write
through, and what the type of the case is. A case that is not there is reported as
such only to a caller that has the scopes on some type; every other caller is denied,
as it would be for a case that is there.
-/

namespace CaseAccess

open Operation

/-- A request for scopes on a case, at a level. -/
def CaseRecord.request (c : CaseRecord) (scopes : ScopeSet) (level : Confidentiality) :
    AccessRequest :=
  ⟨some .zrc, scopes, some c.caseType, some level⟩

/-- Whether the caller has a scope on a case. -/
def CaseRecord.holds (c : CaseRecord) (applications : List Application) (scope : String) :
    Operation Bool :=
  (c.request (ScopeSet.single scope) c.confidentiality).allow applications

/-- Ends with an error unless the caller has the scopes on a case, at a level. -/
def CaseRecord.authorize (c : CaseRecord) (applications : List Application) (scopes : ScopeSet)
    (level : Confidentiality) : Operation Unit :=
  (c.request scopes level).check applications

/-- Ends with an error if the guard denies a write that takes these scopes. -/
def CaseRecord.guardWrite (c : CaseRecord) (applications : List Application)
    (required : ScopeSet) : Operation Unit := do
  let ctx ← context
  match ← c.checkWrite (c.holds applications) ctx.settings.guard required with
  | some denial => fail denial.toApiError
  | none => return ()

/-- The error that a case is not there. -/
def noCase (id : String) : ApiError :=
  .notFound s!"case {id} not found"

/-- The case with that id. -/
def loadCase (applications : List Application) (id : String) (scopes : ScopeSet) :
    Operation CaseRecord := do
  match ← reading (·.case? id) with
  | some c => return c
  | none =>
      let request : AccessRequest := { component := some .zrc, scopes := scopes }
      request.check applications
      fail (noCase id)

/-- The case with that id, for a write that takes these scopes. -/
def openCase (applications : List Application) (id : String) (required : ScopeSet) :
    Operation CaseRecord := do
  let c ← loadCase applications id required
  c.authorize applications required c.confidentiality
  c.guardWrite applications required
  return c

/-- The first of the sets of scopes that the caller has on a case. If it has none,
the error is that of the first set. -/
def CaseRecord.authorizeAny (c : CaseRecord) (applications : List Application)
    (candidates : List ScopeSet) : Operation ScopeSet :=
  go none candidates
where
  go (first : Option ApiError) : List ScopeSet → Operation ScopeSet
    | [] => fail (first.getD .permissionDenied)
    | scopes :: rest => do
        match ← attempt (c.authorize applications scopes c.confidentiality) with
        | .ok () => return scopes
        | .error e => go (first.or (some e)) rest

/-- The definition of the type of a case. -/
def resolveCaseType (reference : TypeRef) : Operation TypeDefinition := do
  match ← resolveType reference .zrc with
  | .ok d => return d
  | .error why =>
      if why.isTransient then
        fail (.catalogUnavailable s!"cannot resolve case type {reference}: {why}")
      else
        fail (.invalidParam "zaaktype" "invalid-resource" s!"case type {reference}: {why}")

/-- The reference that a field of a request writes. -/
def readReference (field text : String) : Operation TypeRef := do
  let ctx ← context
  match ctx.bases.read text with
  | .ok r => return r
  | .error e => fail (.invalidParam field "bad-url" e.message)

/-- Announces a change of a case, or of something that belongs to it. -/
def announceCase (c : CaseRecord) (sub : Option Notification.SubResource) (action : Action) :
    Operation Unit := do
  let ctx ← context
  publish [Notification.ofCase ctx.settings.publicBaseUrl ctx.now c sub action]

end CaseAccess
