import CaseAccess.Proofs.ArchiveSource

/-!
# What a status does to archive dates

A plan for a status is about three kinds of cases: its own one, the sub-cases that it dates,
and all others, which it leaves as they are. `Planned.turns` follows a case through all three.
What comes out of it for the one case is listed in `Store.Turns`: it goes on with the date that
it has, it gets one with the end of its main case, it is open without one, or it was given a
final status.

A final status gives a date to its own case and, below it, to the cases that count from its
end. Each of them gets the date that its sources give once the plan is written, unless it has
a date. For a sub-case this takes that its type was found when the plan was made, which it
was if the type is held here.
-/

namespace CaseAccess

open Operation

/-- A plan for a status on a case, with what decided about it. -/
structure Planned (c : Context) (i : Installation) (z : CaseRecord) (d : TypeDefinition)
    (tr : StatusTransition) (isFinal : Bool) (plan : TransitionPlan) (t : Store) : Prop where
  found : i.store.case? z.id = some z
  resolved : c.resolution i.store i.typeCache z.caseType .zrc = .ok d
  read : tr.ReadFrom i.store z
  caseType : tr.caseType = d
  subCases : tr.subCases =
    (i.store.subCases z.id).map fun sub => subCase c i sub (i.store.result? sub.id)
  planned : (if isFinal then tr.closing else .ok tr.opening) = .ok plan
  created : ∃ r s, i.store.createStatus plan.status = .ok (r, s) ∧ plan.written s = t
  apex : z.mainCase ≠ some z.id

/-- A final status gives the case the date that its result gives, unless it has one. -/
theorem closing_archived {tr : StatusTransition} {plan : TransitionPlan}
    (h : tr.closing = .ok plan) {reference : TypeRef} {result : ResultType}
    (hreference : tr.result = some reference)
    (hresult : tr.caseType.resultType? reference = some result) :
    tr.closed.archived result tr.setAt.date (tr.mainCase.bind (·.endDate)) = .ok plan.case := by
  obtain ⟨⟨z, subs⟩, hclose, h⟩ := except_of_bind_ok (x := tr.close) h
  cases h
  obtain ⟨reference', hreference', -, hz, -⟩ := close_ok hclose
  rw [hreference, Option.some.injEq] at hreference'
  subst hreference'
  rcases hz with ⟨hnone, -⟩ | ⟨result', hresult', harchived⟩
  · rw [hresult] at hnone
    cases hnone
  · rw [hresult, Option.some.injEq] at hresult'
    subst hresult'
    exact harchived

/-- A final status leaves a date that is set. -/
theorem closing_keeps {tr : StatusTransition} {plan : TransitionPlan} (h : tr.closing = .ok plan)
    (hdated : tr.case.archiveActionDate.isSome = true) :
    plan.case.archiveActionDate = tr.case.archiveActionDate := by
  obtain ⟨⟨z, subs⟩, hclose, h⟩ := except_of_bind_ok (x := tr.close) h
  cases h
  obtain ⟨_, -, -, hz, -⟩ := close_ok hclose
  rcases hz with ⟨-, rfl⟩ | ⟨result, -, harchived⟩
  · rfl
  · exact (of_archived harchived).2.1 hdated

/-- A sub-case that is passed over has a date, or does not wait for its main case. -/
theorem archived?_none {sub : SubCase} {endDate : Date} (h : sub.archived? endDate = .ok none)
    {result : ResultType} (hresult : sub.resultType = some result)
    (hmethod : result.derivation.method = .hoofdzaak) :
    sub.case.archiveActionDate.isSome = true := by
  rw [SubCase.archived?, hresult] at h
  simp only at h
  split at h
  · next hpassed => exact hpassed.resolve_left fun hne => hne hmethod
  · cases harchived : sub.case.archived result (sub.case.endDate.getD endDate) (some endDate) with
    | ok z =>
        rw [harchived] at h
        cases h
    | error denial =>
        rw [harchived] at h
        cases h

/-- The type of every case is one of cases, if it is held here. -/
def Store.CasesTyped (s : Store) : Prop :=
  ∀ z ∈ s.cases.rows, s.Fits z.id fun _ => True

/-- What a command that sets no archive date may make of the case with an id: it goes on with its
date, it gets one with the end of its main case, it is open without one, or it is closed. -/
inductive Store.Turns (s t : Store) (id : String) (z' : CaseRecord) : Prop where
  | goesOn (z : CaseRecord) (found : s.case? id = some z) (endDate : z'.endDate = z.endDate)
      (date : z'.archiveActionDate = z.archiveActionDate)
  | dated (z : CaseRecord) (r : StatusRecord) (found : s.case? id = some z)
      (endDate : z'.endDate = z.endDate) (isClosed : z.isClosed = true)
      (undated : z.archiveActionDate = none)
      (recorded : t.statuses.rows = s.statuses.rows ++ [r]) (final : r.isFinal = true)
      (below : z'.mainCase = some r.caseId)
      (counts : z'.caseType.isRemote = false → ∃ result, t.resultType? z' = some result ∧
        result.derivation.method = .hoofdzaak)
  | opened (endDate : z'.endDate = none) (undated : z'.archiveActionDate = none)
  | closed (z : CaseRecord) (r : StatusRecord) (found : s.case? id = some z)
      (endDate : z'.endDate ≠ none)
      (keeps : z.archiveActionDate.isSome = true → z'.archiveActionDate = z.archiveActionDate)
      (recorded : t.statuses.rows = s.statuses.rows ++ [r]) (final : r.isFinal = true)
      (ofCase : r.caseId = id)

theorem Store.Turns.of_same {s t : Store} {id : String} {z : CaseRecord}
    (h : s.case? id = some z) : s.Turns t id z :=
  .goesOn z h rfl rfl

namespace Planned

variable {c : Context} {i : Installation} {z : CaseRecord} {d : TypeDefinition}
  {tr : StatusTransition} {isFinal : Bool} {plan : TransitionPlan} {t : Store} {id : String}

theorem case?_eq (h : Planned c i z d tr isFinal plan t) (other : String) :
    t.case? other =
      if other = z.id then some plan.case
      else (plan.subCases.find? (·.id = other)).or (i.store.case? other) := by
  obtain ⟨r, s, hcreate, rfl⟩ := h.created
  exact case?_written h.read h.found h.planned hcreate h.apex other

theorem types_eq (h : Planned c i z d tr isFinal plan t) : t.types = i.store.types := by
  obtain ⟨r, s, hcreate, rfl⟩ := h.created
  rw [(written_frame hcreate).1]

theorem result?_eq (h : Planned c i z d tr isFinal plan t) (other : String) :
    t.result? other = i.store.result? other := by
  obtain ⟨r, s, hcreate, rfl⟩ := h.created
  rw [(written_frame hcreate).1]
  rfl

theorem of_find? (h : Planned c i z d tr isFinal plan t) {other : String} {y' : CaseRecord}
    (hy : plan.subCases.find? (·.id = other) = some y') :
    isFinal = true ∧ ∃ sub ∈ tr.subCases, sub.archived? tr.setAt.date = .ok (some y') ∧
      sub.case.isClosed = true ∧ sub.case.mainCase = some z.id ∧
      i.store.case? other = some sub.case := by
  have hmem := List.mem_of_find?_eq_some hy
  have hid : y'.id = other := by simpa using List.find?_some hy
  obtain ⟨hfinal, -⟩ := (plan_dates h.planned).dated y' hmem
  obtain ⟨sub, hsub, harchived, hclosed, hmain, hfound⟩ :=
    ((plan_dates h.planned).below h.read).2 y' hmem
  exact ⟨hfinal, sub, hsub, harchived, hclosed, hmain, hid ▸ hfound⟩

/-- Every other case ends as before. -/
theorem endDate_eq (h : Planned c i z d tr isFinal plan t) {other : String}
    (hne : other ≠ z.id) :
    (t.case? other).bind (·.endDate) = (i.store.case? other).bind (·.endDate) := by
  rw [h.case?_eq, if_neg hne]
  cases hy : plan.subCases.find? (·.id = other) with
  | none => rw [Option.none_or]
  | some y' =>
      obtain ⟨-, sub, -, harchived, -, -, hfound⟩ := h.of_find? hy
      rw [hfound]
      exact (archived?_sameStanding harchived).endDate

theorem resultType?_eq (h : Planned c i z d tr isFinal plan t) {y y' : CaseRecord}
    (hid : y'.id = y.id) (htype : y'.caseType = y.caseType) :
    t.resultType? y' = i.store.resultType? y :=
  Store.resultType?_congr h.types_eq hid htype (h.result?_eq _)

/-- The main case of the case itself ends as the plan has read it. -/
theorem mainEnd_case (h : Planned c i z d tr isFinal plan t) :
    t.mainEnd plan.case = tr.mainCase.bind (·.endDate) := by
  have hread : tr.mainCase.bind (·.endDate) = i.store.mainEnd z := by
    rw [h.read.mainCase, Store.mainEnd]
    cases z.mainCase with
    | none => rfl
    | some mainId => rfl
  have hmain : plan.case.mainCase = z.mainCase := by
    rw [(plan_follows h.planned).mainCase, h.read.case]
  rw [hread]
  refine Store.mainEnd_congr hmain fun mainId hmainId => h.endDate_eq fun heq => ?_
  exact h.apex (heq ▸ hmainId)

/-- The status of the plan is the one that is recorded. -/
theorem recorded (h : Planned c i z d tr isFinal plan t) :
    ∃ r, t.statuses.rows = i.store.statuses.rows ++ [r] ∧ r.isFinal = isFinal ∧
      r.caseId = z.id := by
  obtain ⟨r, s, hcreate, rfl⟩ := h.created
  have hstatus := (plan_follows h.planned).status
  refine ⟨i.store.keptStatus plan.status, ?_, ?_, ?_⟩
  · rw [(written_frame hcreate).2.1]
    rfl
  · rw [Store.keptStatus, hstatus]
    rfl
  · rw [Store.keptStatus, hstatus]
    exact congrArg CaseRecord.id h.read.case

/-! ### What a final status gives -/

theorem archived_of_closing (h : Planned c i z d tr true plan t)
    (hlocal : z.caseType.isRemote = false) {result : ResultType}
    (hresult : i.store.resultType? z = some result) :
    tr.closed.archived result tr.setAt.date (tr.mainCase.bind (·.endDate)) = .ok plan.case := by
  rw [Store.resultType?] at hresult
  cases hr : i.store.result? z.id with
  | none =>
      rw [hr] at hresult
      cases hresult
  | some r =>
      rw [hr, ((resolution_eq_ok_of_local hlocal).1 h.resolved).1] at hresult
      have hreference : tr.result = some r.resultType := by
        rw [h.read.result, hr]
        rfl
      exact closing_archived h.planned hreference (h.caseType ▸ hresult)

/-- A case without a date gets the one that its sources give. -/
theorem datedBySources_self (h : Planned c i z d tr true plan t)
    (hlocal : z.caseType.isRemote = false) (hundated : z.archiveActionDate = none) :
    t.DatedBySources plan.case := by
  have hfollows := plan_follows h.planned
  have hend : plan.case.endDate = some tr.setAt.date := by rw [hfollows.endDate, if_pos rfl]
  have hsame : t.resultType? plan.case = i.store.resultType? z :=
    h.resultType?_eq (by rw [hfollows.id, h.read.case]) (by rw [hfollows.caseType, h.read.case])
  have hbefore : tr.closed.archiveActionDate = none := by
    rw [← hundated, ← h.read.case]
    rfl
  refine Store.datedBySources_of_actionDate hend fun result hresult => ⟨tr.closed, ?_⟩
  rw [h.mainEnd_case]
  exact (of_archived (h.archived_of_closing hlocal (hsame ▸ hresult))).2.2 hbefore

section SubCases

variable {y : CaseRecord} (htyped : i.store.CasesTyped) (hlocal : y.caseType.isRemote = false)

include htyped hlocal

/-- The result of a sub-case is the one that the plan has read for it. -/
theorem resultType_read (hy : i.store.case? id = some y) :
    (subCase c i y (i.store.result? y.id)).resultType = i.store.resultType? y := by
  obtain ⟨y', hfound, htype⟩ := htyped y (Table.mem_of_get? hy)
  have hid : y.id = id := Table.key_of_get? hy
  rw [hid, hy, Option.some.injEq] at hfound
  subst hfound
  obtain ⟨d', htype, hcomponent, -⟩ := htype hlocal
  have hresolved : c.resolution i.store i.typeCache y.caseType .zrc = .ok d' :=
    (resolution_eq_ok_of_local hlocal).2 ⟨htype, hcomponent⟩
  rw [Store.resultType?, htype]
  cases i.store.result? y.id with
  | none => rfl
  | some r =>
      rw [subCase, hresolved]
      rfl

/-- A final status gives a date to each sub-case that waits for one. -/
theorem dates_waiting (h : Planned c i z d tr true plan t) (hy : i.store.case? id = some y)
    (hbelow : y.mainCase = some z.id) {result : ResultType}
    (hresult : i.store.resultType? y = some result)
    (hmethod : result.derivation.method = .hoofdzaak) (hundated : y.archiveActionDate = none) :
    ∃ y' ∈ plan.subCases, y'.id = id := by
  have hcase := subCase_case c i y (i.store.result? y.id)
  have hsub : subCase c i y (i.store.result? y.id) ∈ tr.subCases := by
    rw [h.subCases]
    exact List.mem_map_of_mem (Store.mem_subCases.2 ⟨Table.mem_of_get? hy, hbelow⟩)
  obtain ⟨o, harchived, hwritten⟩ := (plan_dates h.planned).complete rfl _ hsub
  cases o with
  | none =>
      have hread := (resultType_read (c := c) htyped hlocal hy).trans hresult
      have hdated := archived?_none harchived hread hmethod
      rw [hcase, hundated] at hdated
      cases hdated
  | some y' =>
      refine ⟨y', hwritten y' rfl, ?_⟩
      rw [(archived?_sameStanding harchived).id, hcase]
      exact Table.key_of_get? hy

/-- A sub-case that the plan writes has the date that the end of its main case gives. -/
theorem datedBySources_subCase (h : Planned c i z d tr isFinal plan t)
    (hy : plan.subCases.find? (·.id = id) = some y) : t.DatedBySources y := by
  obtain ⟨hfinal, sub, hsub, harchived, hclosed, hbelow, hfound⟩ := h.of_find? hy
  have hsame := archived?_sameStanding harchived
  obtain ⟨result', hresult', -, hundated, hdated⟩ := of_archived? harchived
  obtain ⟨endDate, hend⟩ := Option.isSome_iff_exists.1 hclosed
  have hmain : t.mainEnd y = some tr.setAt.date := by
    subst hfinal
    rw [Store.mainEnd, hsame.mainCase, hbelow, Option.bind_some, h.case?_eq, if_pos rfl]
    exact (plan_follows h.planned).endDate
  refine Store.datedBySources_of_actionDate (hsame.endDate.trans hend) fun result hresult =>
    ⟨sub.case, ?_⟩
  obtain rfl : result' = result := by
    rw [h.subCases] at hsub
    obtain ⟨x, -, rfl⟩ := List.mem_map.1 hsub
    rw [subCase_case] at hsame hfound
    rw [h.resultType?_eq hsame.id hsame.caseType] at hresult
    rw [resultType_read htyped (hsame.caseType ▸ hlocal) hfound, hresult,
      Option.some.injEq] at hresult'
    exact hresult'.symm
  have hdate := (of_archived hdated).2.2 hundated
  rw [hend, Option.getD_some] at hdate
  rw [hmain]
  exact hdate

/-- A case without a date whose main case is closed gets the one that its sources give, if
it counts from there. -/
theorem datedBySources_below (h : Planned c i z d tr true plan t) (hy : t.case? id = some y)
    (hundated : ∀ x ∈ i.store.case? id, x.archiveActionDate = none)
    (hbelow : y.mainCase = some z.id) {result : ResultType}
    (hresult : t.resultType? y = some result)
    (hmethod : result.derivation.method = .hoofdzaak) : t.DatedBySources y := by
  have hne : id ≠ z.id := by
    intro hid
    rw [h.case?_eq, if_pos hid, Option.some.injEq] at hy
    rw [← hy, (plan_follows h.planned).mainCase, h.read.case] at hbelow
    exact h.apex hbelow
  rw [h.case?_eq, if_neg hne] at hy
  cases hfind : plan.subCases.find? (·.id = id) with
  | some y' =>
      rw [hfind] at hy
      cases hy
      exact h.datedBySources_subCase htyped hlocal hfind
  | none =>
      -- Closing the main case would have given it a date.
      rw [hfind, Option.none_or] at hy
      rw [h.resultType?_eq rfl rfl] at hresult
      obtain ⟨y', hy', hid⟩ :=
        dates_waiting htyped hlocal h hy hbelow hresult hmethod (hundated y hy)
      have hpassed := List.find?_eq_none.1 hfind y' hy'
      rw [decide_eq_true_eq] at hpassed
      exact absurd hid hpassed

end SubCases

/-! ### What a plan makes of a case -/

theorem turns_self (h : Planned c i z d tr isFinal plan t) : i.store.Turns t z.id plan.case := by
  have hcase := h.read.case
  cases isFinal with
  | true =>
      obtain ⟨r, hrecorded, hfinal, hof⟩ := h.recorded
      have hend : plan.case.endDate = some tr.setAt.date := (plan_follows h.planned).endDate
      refine .closed z r h.found ?_ (fun hdated => ?_) hrecorded hfinal hof
      · rw [hend]
        exact Option.some_ne_none _
      · rw [← hcase] at hdated ⊢
        exact closing_keeps h.planned hdated
  | false =>
      obtain rfl : tr.opening = plan := Except.ok.inj h.planned
      rw [StatusTransition.opening]
      split
      · exact .opened rfl rfl
      · rw [hcase]
        exact .goesOn z h.found rfl rfl

/-- A sub-case that the plan writes was closed before its main case, and had no date. -/
theorem turns_subCase (h : Planned c i z d tr isFinal plan t) (htyped : i.store.CasesTyped)
    {y : CaseRecord} (hy : plan.subCases.find? (·.id = id) = some y) :
    i.store.Turns t id y := by
  obtain ⟨hfinal, sub, hsub, harchived, hclosed, hbelow, hfound⟩ := h.of_find? hy
  have hsame := archived?_sameStanding harchived
  obtain ⟨result, hresult, hmethod, hundated, -⟩ := of_archived? harchived
  obtain ⟨r, hrecorded, hrfinal, hof⟩ := h.recorded
  refine .dated sub.case r hfound hsame.endDate hclosed hundated hrecorded
    (hrfinal.trans hfinal) ?_ fun hlocal => ⟨result, ?_, hmethod⟩
  · rw [hsame.mainCase, hbelow, hof]
  · rw [h.subCases] at hsub
    obtain ⟨x, -, rfl⟩ := List.mem_map.1 hsub
    rw [subCase_case] at hsame hfound
    rw [h.resultType?_eq hsame.id hsame.caseType, ← hresult]
    exact (resultType_read htyped (hsame.caseType ▸ hlocal) hfound).symm

theorem turns (h : Planned c i z d tr isFinal plan t) (htyped : i.store.CasesTyped)
    {z' : CaseRecord} (hz' : t.case? id = some z') : i.store.Turns t id z' := by
  rw [h.case?_eq] at hz'
  by_cases hid : id = z.id
  · rw [if_pos hid] at hz'
    cases hz'
    rw [hid]
    exact h.turns_self
  · rw [if_neg hid] at hz'
    cases hy : plan.subCases.find? (·.id = id) with
    | none =>
        rw [hy, Option.none_or] at hz'
        exact .of_same hz'
    | some y =>
        rw [hy] at hz'
        cases hz'
        exact h.turns_subCase htyped hy

end Planned

end CaseAccess
