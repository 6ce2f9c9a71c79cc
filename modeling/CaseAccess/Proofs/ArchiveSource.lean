import CaseAccess.Proofs.CaseTypes

/-!
# What archive dates derive from

The archive date of a case is its archive period after its own end date, or after the end
date of its main case; which one it is, the type of its result says. `Store.due?` is the
date that comes out of this now, and a case is `DatedBySources` when it is the one that the
case has.

Both read the row of the case together with its result, its type and the end date of its
main case, as they are at the moment. The operations compute the date from the same things,
but only in some moments, so the two may come apart.
-/

namespace CaseAccess

/-- The end date of the main case, if there is one and it is closed. -/
def Store.mainEnd (s : Store) (z : CaseRecord) : Option Date :=
  z.mainCase.bind fun mainId => (s.case? mainId).bind (·.endDate)

/-- The type of the result that a case has. -/
def Store.resultType? (s : Store) (z : CaseRecord) : Option ResultType :=
  (s.result? z.id).bind fun r => (s.type? z.caseType).bind (·.resultType? r.resultType)

/-- The archive date of a closed case is the one that its sources give: its period after
its own end date, or after that of its main case. -/
def Store.DatedBySources (s : Store) (z : CaseRecord) : Prop :=
  ∀ endDate ∈ z.endDate, ∀ result ∈ s.resultType? z, ∀ p ∈ result.archiveActionPeriod,
    (result.derivation.method = .afgehandeld →
      (p.addTo endDate).map some = .ok z.archiveActionDate) ∧
    (result.derivation.method = .hoofdzaak → ∀ mainEnd ∈ s.mainEnd z,
      (p.addTo mainEnd).map some = .ok z.archiveActionDate)

/-- The date that a result counts from, when it counts from the end of a case. -/
def ResultType.source? (result : ResultType) (endDate : Date) (mainEnd : Option Date) :
    Option Date :=
  match result.derivation.method with
  | .afgehandeld => some endDate
  | .hoofdzaak => mainEnd
  | _ => none

theorem ResultType.source?_eq_some {result : ResultType} {endDate source : Date}
    {mainEnd : Option Date} : result.source? endDate mainEnd = some source ↔
      (result.derivation.method = .afgehandeld ∧ endDate = source) ∨
        (result.derivation.method = .hoofdzaak ∧ mainEnd = some source) := by
  rw [ResultType.source?]
  cases result.derivation.method <;> simp

/-- What a result gives that counts from the end of a case. -/
theorem ResultType.map_addTo_of_actionDate {result : ResultType} {z : CaseRecord}
    {endDate source : Date} {mainEnd date : Option Date} {p : Period}
    (h : actionDate result z endDate mainEnd = .ok date)
    (hperiod : result.archiveActionPeriod = some p)
    (hsource : result.source? endDate mainEnd = some source) :
    (p.addTo source).map some = .ok date := by
  have hread : sourceDate result.derivation z endDate mainEnd = .ok (some source) := by
    rw [sourceDate]
    rcases ResultType.source?_eq_some.1 hsource with ⟨hmethod, rfl⟩ | ⟨hmethod, rfl⟩
    · rw [hmethod]
    · rw [hmethod]
  rw [actionDate, hperiod] at h
  simp only at h
  rw [hread] at h
  have h : (dateAfter p source >>= fun d => pure (some d)) = .ok date := h
  rw [dateAfter] at h
  cases hadd : p.addTo source with
  | error cause =>
      rw [hadd] at h
      cases h
  | ok d =>
      rw [hadd] at h
      cases h
      rfl

namespace Store

variable {s t : Store} {z z' : CaseRecord}

/-- The archive date that the sources of a closed case give now. Nothing is given while the
case that it counts from is open, or if it does not count from the end of a case. -/
def due? (s : Store) (z : CaseRecord) : Option (Except PeriodError Date) :=
  z.endDate.bind fun endDate => (s.resultType? z).bind fun result =>
    result.archiveActionPeriod.bind fun p =>
      (result.source? endDate (s.mainEnd z)).map p.addTo

theorem due?_eq_some {due : Except PeriodError Date} :
    s.due? z = some due ↔ ∃ endDate result p source, z.endDate = some endDate ∧
      s.resultType? z = some result ∧ result.archiveActionPeriod = some p ∧
      result.source? endDate (s.mainEnd z) = some source ∧ p.addTo source = due := by
  simp only [due?, Option.bind_eq_some_iff, Option.map_eq_some_iff]
  constructor
  · rintro ⟨endDate, hend, result, hresult, p, hperiod, source, hsource, hdue⟩
    exact ⟨endDate, result, p, source, hend, hresult, hperiod, hsource, hdue⟩
  · rintro ⟨endDate, result, p, source, hend, hresult, hperiod, hsource, hdue⟩
    exact ⟨endDate, hend, result, hresult, p, hperiod, source, hsource, hdue⟩

/-- A case is dated by its sources when it has the date that they give now. -/
theorem datedBySources_iff :
    s.DatedBySources z ↔ ∀ due, s.due? z = some due → due.map some = .ok z.archiveActionDate := by
  constructor
  · intro h due hdue
    obtain ⟨endDate, result, p, source, hend, hresult, hperiod, hsource, rfl⟩ := due?_eq_some.1 hdue
    obtain ⟨hown, hmain⟩ := h endDate hend result hresult p hperiod
    rcases ResultType.source?_eq_some.1 hsource with ⟨hmethod, rfl⟩ | ⟨hmethod, hmainEnd⟩
    · exact hown hmethod
    · exact hmain hmethod source hmainEnd
  · intro h endDate hend result hresult p hperiod
    have hgiven : ∀ source, result.source? endDate (s.mainEnd z) = some source →
        (p.addTo source).map some = .ok z.archiveActionDate := fun source hsource =>
      h _ (due?_eq_some.2 ⟨endDate, result, p, source, hend, hresult, hperiod, hsource, rfl⟩)
    exact ⟨fun hmethod => hgiven endDate (ResultType.source?_eq_some.2 (.inl ⟨hmethod, rfl⟩)),
      fun hmethod mainEnd hmain =>
        hgiven mainEnd (ResultType.source?_eq_some.2 (.inr ⟨hmethod, hmain⟩))⟩

/-- The date that is computed for a case from its end and that of its main case. -/
theorem datedBySources_of_actionDate {endDate : Date} (hend : z.endDate = some endDate)
    (h : ∀ result, s.resultType? z = some result → ∃ y : CaseRecord,
      actionDate result y endDate (s.mainEnd z) = .ok z.archiveActionDate) :
    s.DatedBySources z := by
  refine datedBySources_iff.2 fun due hdue => ?_
  obtain ⟨endDate', result, p, source, hend', hresult, hperiod, hsource, rfl⟩ := due?_eq_some.1 hdue
  rw [hend, Option.some.injEq] at hend'
  subst hend'
  obtain ⟨y, hdate⟩ := h result hresult
  exact ResultType.map_addTo_of_actionDate hdate hperiod hsource

/-- A date that was right, and is the same, is right where the same date is given. -/
theorem DatedBySources.again (h : s.DatedBySources z)
    (hsame : z'.archiveActionDate = z.archiveActionDate)
    (hdue : ∀ due, t.due? z' = some due → s.due? z = some due) : t.DatedBySources z' := by
  refine datedBySources_iff.2 fun due hgiven => ?_
  rw [hsame]
  exact datedBySources_iff.1 h due (hdue due hgiven)

theorem mainEnd_congr (hmain : z'.mainCase = z.mainCase)
    (h : ∀ mainId, z.mainCase = some mainId →
      (t.case? mainId).bind (·.endDate) = (s.case? mainId).bind (·.endDate)) :
    t.mainEnd z' = s.mainEnd z := by
  rw [Store.mainEnd, Store.mainEnd, hmain]
  cases hz : z.mainCase with
  | none => rfl
  | some mainId => exact h mainId hz

theorem resultType?_congr (htypes : t.types = s.types) (hid : z'.id = z.id)
    (htype : z'.caseType = z.caseType) (hresult : t.result? z.id = s.result? z.id) :
    t.resultType? z' = s.resultType? z := by
  rw [resultType?, resultType?, hid, hresult, htype, type?, htypes]
  rfl

end Store

end CaseAccess
