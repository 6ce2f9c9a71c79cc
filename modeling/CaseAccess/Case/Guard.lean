import CaseAccess.Case.Denial
import CaseAccess.Config.Sections

/-!
# The guard of cases

A closed case takes no writes, except from a caller that holds a scope which lets
them through. A status moves a case through its life: a final one closes it, and
another one takes it into progress, or reopens it. The guard decides whether a status
may be recorded and what is then to be written; it reads everything that it decides
on from its arguments, and asks `holds` whether the caller has a scope on the case.

A case is closed only with a result, and a main case only after its sub-cases are
closed and have results. Closing a case sets its archive date, and those of the
sub-cases that wait for the end date of their main case; dates that are set already
are kept.
-/

namespace CaseAccess

/-- A sub-case as its main case sees it when it is closed. -/
structure SubCase where
  case : CaseRecord
  hasResult : Bool
  /-- The type of its result, if it resolves. -/
  resultType : Option ResultType
  deriving DecidableEq, Repr

/-- What decides about recording a status. -/
structure StatusTransition where
  case : CaseRecord
  /-- The scopes by which the caller was admitted. -/
  required : ScopeSet
  caseType : TypeDefinition
  statusType : TypeRef
  setAt : Instant
  /-- The statuses of the case. -/
  statuses : List StatusRecord
  /-- The type of the result of the case. -/
  result : Option TypeRef
  mainCase : Option CaseRecord
  subCases : List SubCase
  deriving DecidableEq, Repr

/-- What is written when a status is recorded. -/
structure TransitionPlan where
  status : StatusRecord
  case : CaseRecord
  /-- The sub-cases that get an archive date. -/
  subCases : List CaseRecord := []
  reopened : Bool := false
  deriving DecidableEq, Repr

/-! ## Closing -/

/-- A date of the archive, or the denial that it cannot be found. -/
def archiveDate (result : ResultType) (c : CaseRecord) (endDate : Date)
    (mainCaseEndDate : Option Date) : Except GuardDenial (Option Date) :=
  match actionDate result c endDate mainCaseEndDate with
  | .ok d => .ok d
  | .error cause => .error (.archive cause)

/-- The case with the archive date of its result, unless it has one. -/
def CaseRecord.archived (c : CaseRecord) (result : ResultType) (endDate : Date)
    (mainCaseEndDate : Option Date) : Except GuardDenial CaseRecord := do
  let date ← match c.archiveActionDate with
    | some d => pure (some d)
    | none => archiveDate result c endDate mainCaseEndDate
  return { c with
    archiveNomination := c.archiveNomination.or result.archiveNomination
    archiveActionDate := date }

/-- The denial of the first sub-case that keeps its main case open. -/
def openSubCase? : List SubCase → Option GuardDenial
  | [] => none
  | sub :: rest =>
      if !sub.case.isClosed then some (.subCasesOpen sub.case.id)
      else if !sub.hasResult then some (.subCaseResultMissing sub.case.id)
      else openSubCase? rest

/-- The sub-case with the archive date that the end of its main case gives it, if it
waits for that. -/
def SubCase.archived? (sub : SubCase) (endDate : Date) :
    Except GuardDenial (Option CaseRecord) :=
  match sub.resultType with
  | none => .ok none
  | some result =>
      if result.derivation.method ≠ .hoofdzaak ∨ sub.case.archiveActionDate.isSome then .ok none
      else
        (sub.case.archived result (sub.case.endDate.getD endDate) (some endDate)).map some

namespace StatusTransition

/-- The case and its sub-cases after the case was closed. -/
def close (t : StatusTransition) : Except GuardDenial (CaseRecord × List CaseRecord) := do
  let result ← match t.result with
    | some r => pure r
    | none => throw .resultMissing
  match openSubCase? t.subCases with
  | some denial => throw denial
  | none =>
      let endDate := t.setAt.date
      let closed := { t.case with
        lifecycle := t.case.lifecycle.next true
        endDate := some endDate }
      let case ← match t.caseType.resultType? result with
        | some r => closed.archived r endDate (t.mainCase.bind (·.endDate))
        | none => pure closed
      let subCases ← t.subCases.mapM (·.archived? endDate)
      return (case, subCases.filterMap id)

/-- The status as it is recorded. -/
def status (t : StatusTransition) (isFinal : Bool) : StatusRecord :=
  ⟨0, t.case.id, t.statusType, t.setAt, isFinal⟩

/-- The plan of a status that closes the case. -/
def closing (t : StatusTransition) : Except GuardDenial TransitionPlan := do
  let (case, subCases) ← t.close
  return { status := t.status true, case := case, subCases := subCases }

/-- The plan of a status that keeps the case open, or reopens it. -/
def opening (t : StatusTransition) : TransitionPlan :=
  let next := { t.case with lifecycle := t.case.lifecycle.next false }
  if t.case.isClosed then
    { status := t.status false
      case := { next with endDate := none, archiveNomination := none, archiveActionDate := none }
      reopened := true }
  else { status := t.status false, case := next }

end StatusTransition

/-! ## Permission -/

section Permission

variable {m : Type → Type} [Monad m] (holds : String → m Bool)

/-- Whether the caller holds any of the scopes, asked in order. -/
def holdsAny : List String → m Bool
  | [] => return false
  | scope :: rest => do
      if ← holds scope then return true
      holdsAny rest

/-- The denial of a write that takes `required`, if there is one. -/
def CaseRecord.checkWrite (c : CaseRecord) (config : GuardConfig) (required : ScopeSet) :
    m (Option GuardDenial) := do
  if !c.isClosed then return none
  if ← holdsAny holds (config.bypassScopes required) then return none
  return some .caseClosed

namespace StatusTransition

/-- The denial of a status on account of the state of the case. -/
def checkState (t : StatusTransition) (config : GuardConfig) (isFinal : Bool) :
    m (Option GuardDenial) := do
  if t.case.isClosed && !isFinal then
    if t.mainCase.any (·.isClosed) then return some .mainCaseClosed
    if ← holds config.reopenScope then return none
    return some (.reopenForbidden config.reopenScope)
  t.case.checkWrite holds config t.required

/-- The denial of a second status without the scope for it. -/
def checkStatusScope (t : StatusTransition) (config : GuardConfig) (isFinal : Bool) :
    m (Option GuardDenial) := do
  match config.statusScope with
  | none => return none
  | some scope =>
      if t.statuses = [] || (t.case.isClosed && !isFinal) then return none
      if ← holdsAny holds [scope, config.reopenScope] then return none
      return some .statusScopeMissing

/-- Decides whether the status may be recorded, and what is then to be written. -/
def decide (t : StatusTransition) (config : GuardConfig) :
    m (Except GuardDenial TransitionPlan) := do
  match t.caseType.statusType? t.statusType with
  | none => return .error (.statusTypeMismatch t.statusType)
  | some statusType =>
      if t.statuses.any (·.setAt = t.setAt) then return .error (.duplicateStatus t.setAt)
      if let some denial ← t.checkState holds config statusType.isFinal then
        return .error denial
      if let some denial ← t.checkStatusScope holds config statusType.isFinal then
        return .error denial
      return if statusType.isFinal then t.closing else .ok t.opening

end StatusTransition

end Permission

end CaseAccess
