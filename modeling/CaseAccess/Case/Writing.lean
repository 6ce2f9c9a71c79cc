import CaseAccess.Case.Access

/-!
# Writing cases

The operations on cases: creating and changing one, recording a status, setting the
result, and deciding whether an object may be attached. Each asks for permission
first, then for the guard, and writes in one transaction; what changed is announced
after it.
-/

namespace CaseAccess

open Operation

/-- The scope that changing a case takes. -/
def updateScopes : ScopeSet := ScopeSet.single "zaken.bijwerken"

/-! ## Creating -/

structure NewCase where
  /-- Without an id the case gets one. -/
  id : Option String
  caseType : String
  confidentiality : Confidentiality
  mainCase : Option String
  properties : SortedMap String String
  deriving DecidableEq, Repr

/-- The main case of a new case, if it may be that. -/
def checkMainCase (applications : List Application) (required : ScopeSet) (id mainId : String) :
    Operation CaseRecord := do
  match ← reading (·.case? mainId) with
  | none =>
      fail (.invalidParam "hoofdzaak" "does_not_exist" s!"main case {mainId} does not exist")
  | some main =>
      if main.mainCase.isSome || main.id = id then fail GuardDenial.subCaseOfSubCase.toApiError
      main.guardWrite applications required
      return main

/-- Stores a new case. -/
def storeCase (c : CaseRecord) : Operation Unit := transaction do
  if (← reading (·.case? c.id)).isSome then fail (.conflict "unique" s!"case {c.id} exists")
  changingOr (·.createCase c)

/-- Creates a case; `freshId` is its id if it comes without one. -/
def createCase (applications : List Application) (freshId : String) (input : NewCase) :
    Operation CaseRecord := do
  let ctx ← context
  let caseType ← readReference "zaaktype" input.caseType
  let required := ctx.settings.authz.createScope .zrc
  let c : CaseRecord := {
    id := input.id.getD freshId
    caseType := caseType
    confidentiality := input.confidentiality
    properties := input.properties }
  c.authorize applications required c.confidentiality
  let _ ← resolveCaseType caseType
  let main ← input.mainCase.mapM (checkMainCase applications required c.id)
  let c := { c with mainCase := main.map (·.id) }
  storeCase c
  announceCase c none .create
  return c

/-! ## Changing -/

/-- What is to change of a case. -/
structure CaseUpdate where
  confidentiality : Option Confidentiality := none
  properties : Option (SortedMap String String) := none
  suspended : Option Bool := none
  suspensionReason : Option String := none
  archiveNomination : Option String := none
  archiveActionDate : Option Date := none
  decisions : Option (List DecisionDates) := none
  relatedEndDates : Option (List Date) := none
  deriving DecidableEq, Repr, Inhabited

/-- The case after a change. That it was suspended once stays known. -/
def CaseUpdate.apply (u : CaseUpdate) (c : CaseRecord) : CaseRecord :=
  { c with
    confidentiality := u.confidentiality.getD c.confidentiality
    properties := u.properties.getD c.properties
    suspended := u.suspended.getD c.suspended
    everSuspended := c.everSuspended || u.suspended.getD false
    suspensionReason := u.suspensionReason.or c.suspensionReason
    archiveNomination := u.archiveNomination.or c.archiveNomination
    archiveActionDate := u.archiveActionDate.or c.archiveActionDate
    decisions := u.decisions.getD c.decisions
    relatedEndDates := u.relatedEndDates.getD c.relatedEndDates }

/-- Ends with an error if the caller may not have the case at the level that the
change gives it. -/
def CaseUpdate.checkLevel (u : CaseUpdate) (applications : List Application) (c : CaseRecord) :
    Operation Unit :=
  match u.confidentiality with
  | some level =>
      if level = c.confidentiality then pure () else c.authorize applications updateScopes level
  | none => pure ()

def updateCase (applications : List Application) (id : String) (u : CaseUpdate) :
    Operation CaseRecord := do
  let c ← openCase applications id updateScopes
  u.checkLevel applications c
  let c := u.apply c
  changing (·.updateCase c)
  announceCase c none .update
  return c

/-! ## Statuses -/

/-- A list in which no member equals the one before it. -/
def withoutRepeats {α : Type} [DecidableEq α] : List α → List α
  | a :: b :: rest => if a = b then withoutRepeats (b :: rest) else a :: withoutRepeats (b :: rest)
  | l => l

/-- The sets of scopes of which any admits a caller to recording a status. What it
may record with them is for the guard to decide. -/
def statusScopes (settings : Settings) : List ScopeSet :=
  let create := settings.authz.createScope .zrc
  withoutRepeats ([updateScopes]
    ++ (if create.isEmpty then [] else [create])
    ++ (settings.guard.statusScope.map ScopeSet.single).toList
    ++ [ScopeSet.single settings.guard.reopenScope])

/-- The sub-case with the type of its result. -/
def readSubCase (c : CaseRecord) (result : Option ResultRecord) : Operation SubCase := do
  match result with
  | none => return ⟨c, false, none⟩
  | some r =>
      match ← resolveType c.caseType .zrc with
      | .ok d => return ⟨c, true, d.resultType? r.resultType⟩
      | .error _ => return ⟨c, true, none⟩

/-- What decides about recording a status on a case. -/
def readTransition (c : CaseRecord) (required : ScopeSet) (caseType : TypeDefinition)
    (statusType : TypeRef) (setAt : Instant) : Operation StatusTransition := do
  let statuses ← readingOr (·.listStatuses c.id)
  let result ← reading (·.result? c.id)
  let mainCase ← reading fun s => c.mainCase >>= s.case?
  let subCases ← reading fun s => (s.subCases c.id).map fun sub => (sub, s.result? sub.id)
  let subCases ← subCases.mapM fun (sub, result) => readSubCase sub result
  return {
    case := c
    required := required
    caseType := caseType
    statusType := statusType
    setAt := setAt
    statuses := statuses
    result := result.map (·.resultType)
    mainCase := mainCase
    subCases := subCases }

/-- Writes what a plan says. -/
def TransitionPlan.store (plan : TransitionPlan) : Operation StatusRecord := transaction do
  let created ← changingWithOr (·.createStatus plan.status)
  changing (·.updateCase plan.case)
  plan.subCases.forM fun sub => changing (·.updateCase sub)
  return created

/-- Records a status on a case. -/
def recordStatus (applications : List Application) (id statusType : String) (setAt : Instant) :
    Operation StatusRecord := do
  let ctx ← context
  let c ← loadCase applications id updateScopes
  let required ← c.authorizeAny applications (statusScopes ctx.settings)
  let statusType ← readReference "statustype" statusType
  let caseType ← resolveCaseType c.caseType
  let t ← readTransition c required caseType statusType setAt
  match ← t.decide (c.holds applications) ctx.settings.guard with
  | .error denial => fail denial.toApiError
  | .ok plan =>
      let created ← plan.store
      announceCase plan.case (some ⟨"status", s!"statussen/{created.id}"⟩) .create
      announceCase plan.case none .update
      plan.subCases.forM fun sub => announceCase sub none .update
      return created

/-! ## Results -/

/-- Sets the result of a case. -/
def setResult (applications : List Application) (id resultType : String) :
    Operation ResultRecord := do
  let c ← openCase applications id updateScopes
  let resultType ← readReference "resultaattype" resultType
  let caseType ← resolveCaseType c.caseType
  if (caseType.resultType? resultType).isNone then
    fail (.typeMismatch "zaaktype-mismatch"
      s!"result type {resultType} does not belong to the case type")
  let result : ResultRecord := ⟨c.id, resultType⟩
  changing (·.saveResult result)
  announceCase c (some ⟨"resultaat", s!"resultaten/{c.id}"⟩) .create
  return result

/-! ## Attachments -/

/-- An object of another component that is to be linked to a case. -/
structure Attachment where
  relation : Relation
  typeRef : String
  scopes : ScopeSet
  deriving DecidableEq, Repr

/-- The field that names the type of an attached object. -/
def Relation.field : Relation → String
  | .document => "informatieobjecttype"
  | .decision => "besluittype"
  | .status => "statustype"
  | .result => "resultaattype"

/-- The code of the error that a type is not related to the type of the case. -/
def Relation.mismatchCode : Relation → String
  | .document => "missing-zaaktype-informatieobjecttype-relation"
  | .decision => "missing-zaaktype-besluittype-relation"
  | .status | .result => "zaaktype-mismatch"

/-- Ends with an error unless an object may be attached to a case: the caller has the
scopes, the case takes writes, and its type is related to the type of the object. -/
def authorizeAttachment (applications : List Application) (id : String) (a : Attachment) :
    Operation Unit := do
  let c ← openCase applications id a.scopes
  let field := a.relation.field
  let typeRef ← readReference field a.typeRef
  let _ ← resolveCaseType c.caseType
  let related ← relatedTypes c.caseType a.relation
  if typeRef ∉ related.getD {} then
    fail (.typeMismatch a.relation.mismatchCode
      s!"{field} {typeRef} is not permitted by the case type")

/-! ## Reading -/

def getCase (id : String) : Operation (Option CaseRecord) :=
  reading (·.case? id)

def listStatuses (id : String) : Operation (List StatusRecord) :=
  readingOr (·.listStatuses id)

end CaseAccess
