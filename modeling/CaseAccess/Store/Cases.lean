import CaseAccess.Store.Basic

/-!
# Cases in the store

A status is kept with its point in time to the microsecond, and of one case no two
statuses are kept with one point in time. The statuses of a case are listed from the
oldest; the list cannot be read when one of them lies outside the years 0 to 9999.
-/

namespace CaseAccess.Store

def createCase (s : Store) (c : CaseRecord) : Except StoreFault Store := do
  let cases ← orKeyTaken (s.cases.add? c)
  return { s with cases := cases }

/-- Changes a case, if it is there. -/
def updateCase (s : Store) (c : CaseRecord) : Store :=
  { s with cases := s.cases.replace c }

def case? (s : Store) (id : String) : Option CaseRecord :=
  s.cases.get? id

/-- The cases that have this main case, by their ids. -/
def subCases (s : Store) (id : String) : List CaseRecord :=
  (s.cases.rows.filter (·.mainCase = some id)).mergeSort fun a b => (compare a.id b.id).isLE

/-! ## Statuses -/

/-- The store with a status, which gets its number and is given back as it came. -/
def createStatus (s : Store) (r : StatusRecord) : Except StoreFault (StatusRecord × Store) :=
  let kept := { r with id := s.statuses.next, setAt := r.setAt.truncated }
  if s.statuses.rows.any fun q => q.caseId = kept.caseId ∧ q.setAt = kept.setAt then
    .error .keyTaken
  else .ok ({ r with id := s.statuses.next }, { s with statuses := s.statuses.add fun _ => kept })

/-- The statuses of a case, in the order in which they were recorded. -/
def recordedStatuses (s : Store) (caseId : String) : List StatusRecord :=
  s.statuses.rows.filter (·.caseId = caseId)

/-- The statuses of a case, from the oldest. -/
def listStatuses (s : Store) (caseId : String) : Except StoreFault (List StatusRecord) :=
  let statuses := s.recordedStatuses caseId
  if statuses.all (·.setAt.isReadable) then
    .ok (statuses.mergeSort fun a b => decide (a.setAt ≤ b.setAt))
  else .error .unreadable

/-! ## Results -/

def saveResult (s : Store) (r : ResultRecord) : Store :=
  { s with results := s.results.put r }

def result? (s : Store) (caseId : String) : Option ResultRecord :=
  s.results.get? caseId

end CaseAccess.Store
