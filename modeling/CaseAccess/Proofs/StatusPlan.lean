import CaseAccess.Case.Guard
import CaseAccess.Proofs.Effect

/-!
# What a status does to a case

The guard turns a status into a plan. Whatever the archive makes of it, the plan says
the same of the life of the case: the state goes one step on, the case has an end date
exactly if the status is final, and that is the date of the status. Of its sub-cases a
plan changes at most what the archive knows of them.
-/

namespace CaseAccess

/-- Two records of one case that agree in its type, in its state and in its place below a
main case. -/
structure CaseRecord.SameStanding (z z' : CaseRecord) : Prop where
  id : z'.id = z.id
  caseType : z'.caseType = z.caseType
  lifecycle : z'.lifecycle = z.lifecycle
  endDate : z'.endDate = z.endDate
  mainCase : z'.mainCase = z.mainCase

/-- The archive sets its nomination and its date, and keeps a date that is set. -/
theorem of_archived {z z' : CaseRecord} {result : ResultType} {endDate : Date}
    {mainCaseEndDate : Option Date}
    (h : z.archived result endDate mainCaseEndDate = .ok z') :
    z' = { z with
      archiveNomination := z.archiveNomination.or result.archiveNomination
      archiveActionDate := z'.archiveActionDate } ∧
    (z.archiveActionDate.isSome = true → z'.archiveActionDate = z.archiveActionDate) ∧
    (z.archiveActionDate = none →
      actionDate result z endDate mainCaseEndDate = .ok z'.archiveActionDate) := by
  rw [CaseRecord.archived] at h
  cases hd : z.archiveActionDate with
  | some d =>
      rw [hd] at h
      cases h
      exact ⟨rfl, fun _ => rfl, fun hnone => by cases hnone⟩
  | none =>
      rw [hd] at h
      obtain ⟨date, hdate, h⟩ := except_of_bind_ok h
      cases h
      refine ⟨rfl, fun hsome => (by cases hsome), fun _ => ?_⟩
      rw [archiveDate] at hdate
      split at hdate
      · next d hd =>
          cases hdate
          exact hd
      · cases hdate

theorem archived_sameStanding {z z' : CaseRecord} {result : ResultType} {endDate : Date}
    {mainCaseEndDate : Option Date}
    (h : z.archived result endDate mainCaseEndDate = .ok z') : z.SameStanding z' := by
  obtain ⟨heq, -⟩ := of_archived h
  rw [heq]
  exact ⟨rfl, rfl, rfl, rfl, rfl⟩

/-- A sub-case gets a date only if it waits for the end of its main case. -/
theorem of_archived? {sub : SubCase} {endDate : Date} {z' : CaseRecord}
    (h : sub.archived? endDate = .ok (some z')) :
    ∃ result, sub.resultType = some result ∧ result.derivation.method = .hoofdzaak ∧
      sub.case.archiveActionDate = none ∧
      sub.case.archived result (sub.case.endDate.getD endDate) (some endDate) = .ok z' := by
  rw [SubCase.archived?] at h
  split at h
  · cases h
  · next result hresult =>
      split at h
      · cases h
      · next hwaits =>
          rw [not_or, Decidable.not_not, Bool.not_eq_true, Option.isSome_eq_false_iff,
            Option.isNone_iff_eq_none] at hwaits
          cases harchived : sub.case.archived result (sub.case.endDate.getD endDate)
              (some endDate) with
          | error denial =>
              rw [harchived] at h
              cases h
          | ok z =>
              rw [harchived] at h
              cases h
              exact ⟨result, hresult, hwaits.1, hwaits.2, harchived⟩

theorem archived?_sameStanding {sub : SubCase} {endDate : Date} {z' : CaseRecord}
    (h : sub.archived? endDate = .ok (some z')) : sub.case.SameStanding z' := by
  obtain ⟨_, -, -, -, harchived⟩ := of_archived? h
  exact archived_sameStanding harchived

/-- What a plan for a status makes of a case. -/
structure TransitionPlan.Follows (plan : TransitionPlan) (t : StatusTransition)
    (isFinal : Bool) : Prop where
  status : plan.status = t.status isFinal
  id : plan.case.id = t.case.id
  caseType : plan.case.caseType = t.case.caseType
  mainCase : plan.case.mainCase = t.case.mainCase
  lifecycle : plan.case.lifecycle = t.case.lifecycle.next isFinal
  endDate : plan.case.endDate = if isFinal then some t.setAt.date else none
  subCases : ∀ z ∈ plan.subCases, ∃ sub ∈ t.subCases, sub.case.SameStanding z

theorem opening_follows (t : StatusTransition) : t.opening.Follows t false := by
  rw [StatusTransition.opening]
  split
  · exact ⟨rfl, rfl, rfl, rfl, rfl, rfl, fun z hz => by cases hz⟩
  · next hopen =>
      refine ⟨rfl, rfl, rfl, rfl, rfl, ?_, fun z hz => by cases hz⟩
      simpa [CaseRecord.isClosed] using hopen

/-- The case as closing leaves it, before the archive has dated it. -/
def StatusTransition.closed (t : StatusTransition) : CaseRecord :=
  { t.case with lifecycle := t.case.lifecycle.next true, endDate := some t.setAt.date }

/-- A case is closed only with a result and over sub-cases that allow it. -/
theorem close_ok {t : StatusTransition} {z : CaseRecord} {subs : List CaseRecord}
    (h : t.close = .ok (z, subs)) :
    ∃ result, t.result = some result ∧ openSubCase? t.subCases = none ∧
      (t.caseType.resultType? result = none ∧ z = t.closed ∨
        ∃ r, t.caseType.resultType? result = some r ∧
          t.closed.archived r t.setAt.date (t.mainCase.bind (·.endDate)) = .ok z) ∧
      ∃ found, t.subCases.mapM (·.archived? t.setAt.date) = .ok found ∧
        subs = found.filterMap id := by
  rw [StatusTransition.close] at h
  cases hresult : t.result with
  | none =>
      rw [hresult] at h
      cases h
  | some result =>
      rw [hresult] at h
      obtain ⟨_, hpure, h⟩ := except_of_bind_ok h
      cases hpure
      cases hopen : openSubCase? t.subCases with
      | some denial =>
          simp only [hopen] at h
          cases h
      | none =>
          simp only [hopen] at h
          refine ⟨result, rfl, rfl, ?_⟩
          cases htype : t.caseType.resultType? result with
          | none =>
              rw [htype] at h
              obtain ⟨z', hz', h⟩ := except_of_bind_ok h
              obtain ⟨found, hfound, h⟩ := except_of_bind_ok h
              cases hz'
              cases h
              exact ⟨.inl ⟨rfl, rfl⟩, found, hfound, rfl⟩
          | some r =>
              rw [htype] at h
              obtain ⟨z', hz', h⟩ := except_of_bind_ok h
              obtain ⟨found, hfound, h⟩ := except_of_bind_ok h
              cases h
              exact ⟨.inr ⟨r, rfl, hz'⟩, found, hfound, rfl⟩

/-- A main case is closed over sub-cases that are closed and have results. -/
theorem openSubCase?_eq_none {subs : List SubCase} :
    openSubCase? subs = none ↔
      ∀ sub ∈ subs, sub.case.isClosed = true ∧ sub.hasResult = true := by
  induction subs with
  | nil => simp [openSubCase?]
  | cons sub rest ih =>
      rw [openSubCase?, List.forall_mem_cons, ← ih]
      cases sub.case.isClosed with
      | false => simp
      | true =>
          cases sub.hasResult with
          | false => simp
          | true => simp

theorem closing_ok {t : StatusTransition} {plan : TransitionPlan} (h : t.closing = .ok plan) :
    t.result.isSome = true ∧ openSubCase? t.subCases = none := by
  obtain ⟨p, hclose, -⟩ := except_of_bind_ok h
  obtain ⟨result, hresult, hnone, -⟩ := close_ok hclose
  rw [hresult]
  exact ⟨rfl, hnone⟩

theorem closing_follows {t : StatusTransition} {plan : TransitionPlan}
    (h : t.closing = .ok plan) : plan.Follows t true := by
  obtain ⟨⟨z, subs⟩, hclose, h⟩ := except_of_bind_ok h
  cases h
  obtain ⟨result, -, -, hz, found, hfound, rfl⟩ := close_ok hclose
  have hsame : t.closed.SameStanding z := by
    rcases hz with ⟨-, rfl⟩ | ⟨r, -, hr⟩
    · exact ⟨rfl, rfl, rfl, rfl, rfl⟩
    · exact archived_sameStanding hr
  refine ⟨rfl, hsame.id, hsame.caseType, hsame.mainCase, hsame.lifecycle, hsame.endDate, ?_⟩
  intro sub hsub
  obtain ⟨o, ho, rfl⟩ := List.mem_filterMap.1 hsub
  obtain ⟨a, ha, hfa⟩ := exists_of_mapM_ok hfound ho
  exact ⟨a, ha, archived?_sameStanding hfa⟩

theorem plan_follows {t : StatusTransition} {isFinal : Bool} {plan : TransitionPlan}
    (h : (if isFinal then t.closing else .ok t.opening) = .ok plan) : plan.Follows t isFinal := by
  cases isFinal with
  | true => exact closing_follows h
  | false =>
      cases h
      exact opening_follows t

end CaseAccess
