import CaseAccess.Proofs.CaseHistory
import CaseAccess.Proofs.StatusPlan
import CaseAccess.Proofs.StatusVerdict

/-!
# The rules for a status

The guard asks one thing after another and ends with the first denial. When it has asked
everything it may still be that the case cannot be closed, because a date of the archive
cannot be computed. What it asks depends on whether the case is closed and on whether
the status is final, so the questions of one run are not those of another.

The rules are stated here without an order. `Permitted` has a field for each rule, and
each rule says itself when it applies. The guard gives a plan just when all of them
hold, whatever it was asked and whatever the caller has. The two denials that come
before the plan are none just when the rules on the state and on the scopes hold, and
closing a case succeeds just when it is `Closable`. In the archive every step is of one
form: there is a date already, or one can be computed.

What a plan makes of its case is the other half. It changes the state, the end date and
what the archive knows, and nothing else. A nomination or a date that the archive has
stays, unless the case is reopened: then all of it goes with the end date.
-/

namespace CaseAccess

open Operation

namespace StatusTransition

/-- The status takes a closed case back. -/
def Reopens (t : StatusTransition) (isFinal : Bool) : Prop :=
  t.case.isClosed = true ∧ isFinal = false

/-- What has to be there to close a case. -/
structure Closable (t : StatusTransition) : Prop where
  result : ∃ reference, t.result = some reference
  subCases : ∀ sub ∈ t.subCases, sub.case.isClosed = true ∧ sub.hasResult = true
  /-- A case without an archive date can be given the one of its result. -/
  dated : ∀ reference result, t.result = some reference →
    t.caseType.resultType? reference = some result → t.case.archiveActionDate = none →
      ∃ date, actionDate result t.case t.setAt.date (t.mainCase.bind (·.endDate)) = .ok date
  /-- So can the sub-cases whose date is counted from the end of their main case. -/
  subsDated : ∀ sub ∈ t.subCases, ∀ result, sub.resultType = some result →
    result.derivation.method = .hoofdzaak → sub.case.archiveActionDate = none →
      ∃ date, actionDate result sub.case (sub.case.endDate.getD t.setAt.date)
        (some t.setAt.date) = .ok date

/-- The rules for a status of that type, for a caller that has some scopes on the case. -/
structure Permitted (t : StatusTransition) (has : String → Bool) (config : GuardConfig)
    (type : StatusType) : Prop where
  belongs : t.caseType.statusType? t.statusType = some type
  fresh : ∀ r ∈ t.statuses, r.setAt ≠ t.setAt
  reopens : t.Reopens type.isFinal →
    (∀ z, t.mainCase = some z → z.isClosed = false) ∧ has config.reopenScope = true
  bypasses : t.case.isClosed = true → type.isFinal = true →
    ∃ scope ∈ config.bypassScopes t.required, has scope = true
  statusScope : ∀ scope, config.statusScope = some scope → t.statuses ≠ [] →
    ¬ t.Reopens type.isFinal → has scope = true ∨ has config.reopenScope = true
  closes : type.isFinal = true → t.Closable

end StatusTransition

/-- What a plan for a status of that type makes of its case. -/
structure TransitionPlan.Changes (plan : TransitionPlan) (t : StatusTransition)
    (type : StatusType) : Prop where
  status : plan.status = t.status type.isFinal
  lifecycle : plan.case.lifecycle = t.case.lifecycle.next type.isFinal
  endDate : plan.case.endDate = if type.isFinal then some t.setAt.date else none
  /-- Nothing is changed but the state, the end date and the archive. -/
  otherwise : plan.case = { t.case with
    lifecycle := plan.case.lifecycle
    endDate := plan.case.endDate
    archiveNomination := plan.case.archiveNomination
    archiveActionDate := plan.case.archiveActionDate }
  reopened : plan.reopened = true ↔ t.Reopens type.isFinal
  cleared : plan.reopened = true →
    plan.case.archiveNomination = none ∧ plan.case.archiveActionDate = none
  nominationKept : plan.reopened = false → ∀ nomination,
    t.case.archiveNomination = some nomination → plan.case.archiveNomination = some nomination
  dateKept : plan.reopened = false → ∀ date,
    t.case.archiveActionDate = some date → plan.case.archiveActionDate = some date

/-! ## The denials before the plan -/

section Denials

variable {t : StatusTransition} {has : String → Bool} {config : GuardConfig} {isFinal : Bool}

theorem stateDenial?_eq_none :
    t.stateDenial? has config isFinal = none ↔
      (t.Reopens isFinal →
        (∀ z, t.mainCase = some z → z.isClosed = false) ∧ has config.reopenScope = true) ∧
      (t.case.isClosed = true → isFinal = true →
        ∃ scope ∈ config.bypassScopes t.required, has scope = true) := by
  rw [StatusTransition.stateDenial?, StatusTransition.Reopens, CaseRecord.writeDenial?]
  cases t.case.isClosed with
  | false => simp
  | true =>
      cases isFinal with
      | true => simp
      | false =>
          cases t.mainCase with
          | none => simp
          | some z => cases hmain : z.isClosed with
            | true => simp [hmain]
            | false => simp [hmain]

theorem scopeDenial?_eq_none_iff :
    t.scopeDenial? has config isFinal = none ↔
      ∀ scope, config.statusScope = some scope → t.statuses ≠ [] → ¬ t.Reopens isFinal →
        has scope = true ∨ has config.reopenScope = true := by
  rw [scopeDenial?_eq_none]
  refine forall₂_congr fun scope _ => ?_
  rw [StatusTransition.Reopens]
  tauto

end Denials

/-! ## Closing -/

/-- A case is put into the archive if it has a date or one can be computed. -/
theorem exists_archived_iff {z : CaseRecord} {result : ResultType} {endDate : Date}
    {mainCaseEndDate : Option Date} :
    (∃ z', z.archived result endDate mainCaseEndDate = .ok z') ↔
      (z.archiveActionDate = none →
        ∃ date, actionDate result z endDate mainCaseEndDate = .ok date) := by
  rw [CaseRecord.archived]
  cases hdate : z.archiveActionDate with
  | some date => exact ⟨fun _ hnone => (by cases hnone), fun _ => ⟨_, rfl⟩⟩
  | none =>
      rw [archiveDate]
      cases actionDate result z endDate mainCaseEndDate with
      | ok date => exact ⟨fun _ _ => ⟨date, rfl⟩, fun _ => ⟨_, rfl⟩⟩
      | error cause =>
          constructor
          · rintro ⟨_, h⟩
            cases h
          · intro h
            obtain ⟨_, h⟩ := h rfl
            cases h

theorem exists_archived?_iff {sub : SubCase} {endDate : Date} :
    (∃ o, sub.archived? endDate = .ok o) ↔
      ∀ result, sub.resultType = some result → result.derivation.method = .hoofdzaak →
        sub.case.archiveActionDate = none →
          ∃ date, actionDate result sub.case (sub.case.endDate.getD endDate) (some endDate) =
            .ok date := by
  rw [SubCase.archived?]
  cases sub.resultType with
  | none => exact ⟨fun _ result hresult => (by cases hresult), fun _ => ⟨none, rfl⟩⟩
  | some result =>
      simp only [Option.some.injEq, forall_eq']
      split
      · next hrests =>
          refine ⟨fun _ hmethod hnone => ?_, fun _ => ⟨none, rfl⟩⟩
          rw [hnone] at hrests
          exact absurd hmethod (hrests.resolve_right (by simp))
      · next hwaits =>
          rw [not_or, Decidable.not_not] at hwaits
          rw [forall_prop_of_true hwaits.1, ← exists_archived_iff]
          cases sub.case.archived result (sub.case.endDate.getD endDate) (some endDate) with
          | ok z => exact ⟨fun _ => ⟨z, rfl⟩, fun _ => ⟨some z, rfl⟩⟩
          | error denial =>
              constructor
              · rintro ⟨_, h⟩
                cases h
              · rintro ⟨_, h⟩
                cases h

/-- With a result and over sub-cases that allow it, closing is up to the archive. -/
theorem close_eq {t : StatusTransition} {reference : TypeRef} (hresult : t.result = some reference)
    (hopen : openSubCase? t.subCases = none) :
    t.close =
      (match t.caseType.resultType? reference with
        | some r => t.closed.archived r t.setAt.date (t.mainCase.bind (·.endDate))
        | none => .ok t.closed) >>= fun z =>
      t.subCases.mapM (·.archived? t.setAt.date) >>= fun found =>
      .ok (z, found.filterMap id) := by
  rw [StatusTransition.close, hresult]
  simp only [hopen, pure_bind]
  cases t.caseType.resultType? reference with
  | none => rfl
  | some r => rfl

/-- A case can be closed just when it is closable. -/
theorem exists_closing_iff {t : StatusTransition} :
    (∃ plan, t.closing = .ok plan) ↔ t.Closable := by
  constructor
  · rintro ⟨plan, h⟩
    obtain ⟨⟨z, subs⟩, hclose, -⟩ := except_of_bind_ok (x := t.close) h
    obtain ⟨reference, hreference, hopen, hz, found, hfound, -⟩ := close_ok hclose
    refine ⟨⟨reference, hreference⟩, openSubCase?_eq_none.1 hopen, ?_, ?_⟩
    · intro reference' result hreference' hresult
      rw [hreference, Option.some.injEq] at hreference'
      subst hreference'
      rcases hz with ⟨hnone, -⟩ | ⟨result', hresult', harchived⟩
      · rw [hresult] at hnone
        cases hnone
      · rw [hresult, Option.some.injEq] at hresult'
        subst hresult'
        exact (exists_archived_iff (z := t.closed)).1 ⟨z, harchived⟩
    · intro sub hsub
      exact exists_archived?_iff.1 (exists_mapM_ok_iff.1 ⟨found, hfound⟩ sub hsub)
  · intro h
    obtain ⟨reference, hreference⟩ := h.result
    obtain ⟨found, hfound⟩ : ∃ found, t.subCases.mapM (·.archived? t.setAt.date) = .ok found :=
      exists_mapM_ok_iff.2 fun sub hsub => exists_archived?_iff.2 (h.subsDated sub hsub)
    have hclose := close_eq hreference (openSubCase?_eq_none.2 h.subCases)
    rw [hfound] at hclose
    have hcase : ∃ z, t.close = .ok (z, found.filterMap id) := by
      cases hresult : t.caseType.resultType? reference with
      | none =>
          rw [hresult] at hclose
          exact ⟨_, hclose⟩
      | some result =>
          obtain ⟨z, hz⟩ : ∃ z, t.closed.archived result t.setAt.date
              (t.mainCase.bind (·.endDate)) = .ok z :=
            exists_archived_iff.2 (h.dated reference result hreference hresult)
          simp only [hresult, hz] at hclose
          exact ⟨z, hclose⟩
    obtain ⟨z, hz⟩ := hcase
    refine ⟨{ status := t.status true, case := z, subCases := found.filterMap id }, ?_⟩
    rw [StatusTransition.closing, hz]
    rfl

/-! ## Plans -/

section Plans

variable {t : StatusTransition} {type : StatusType} {plan : TransitionPlan}

theorem opening_changes (hfinal : type.isFinal = false) : t.opening.Changes t type := by
  have hfollows := opening_follows t
  rw [← hfinal] at hfollows
  cases hclosed : t.case.isClosed with
  | true =>
      have hopening : t.opening =
          { status := t.status false
            case := { t.case with
              lifecycle := t.case.lifecycle.next false
              endDate := none
              archiveNomination := none
              archiveActionDate := none }
            reopened := true } := by
        rw [StatusTransition.opening, if_pos hclosed]
      refine ⟨hfollows.status, hfollows.lifecycle, hfollows.endDate, ?_, ?_, ?_, ?_, ?_⟩
      all_goals rw [hopening]
      · exact ⟨fun _ => ⟨hclosed, hfinal⟩, fun _ => rfl⟩
      · exact fun _ => ⟨rfl, rfl⟩
      · exact fun h => by cases h
      · exact fun h => by cases h
  | false =>
      have hopening : t.opening =
          { status := t.status false
            case := { t.case with lifecycle := t.case.lifecycle.next false } } := by
        rw [StatusTransition.opening, if_neg (by rw [hclosed]; exact Bool.false_ne_true)]
      refine ⟨hfollows.status, hfollows.lifecycle, hfollows.endDate, ?_, ?_, ?_, ?_, ?_⟩
      all_goals rw [hopening]
      · refine ⟨fun h => (by cases h), fun h => ?_⟩
        rw [StatusTransition.Reopens, hclosed] at h
        cases h.1
      · exact fun h => by cases h
      · exact fun _ _ => id
      · exact fun _ _ => id

/-- Beside the state and the end date, closing writes what the archive did not know yet. -/
theorem archived_of_close {z : CaseRecord} {subs : List CaseRecord}
    (h : t.close = .ok (z, subs)) :
    z = { t.closed with
      archiveNomination := z.archiveNomination
      archiveActionDate := z.archiveActionDate } ∧
    (∀ nomination, t.case.archiveNomination = some nomination →
      z.archiveNomination = some nomination) ∧
    ∀ date, t.case.archiveActionDate = some date → z.archiveActionDate = some date := by
  obtain ⟨reference, -, -, ⟨-, rfl⟩ | ⟨result, -, harchived⟩, -⟩ := close_ok h
  · exact ⟨rfl, fun _ => id, fun _ => id⟩
  · obtain ⟨hz, hdated, -⟩ := of_archived harchived
    refine ⟨?_, fun nomination hnomination => ?_, fun date hdate => ?_⟩
    · rw [hz]
    · have hset : t.closed.archiveNomination = some nomination := hnomination
      rw [hz, hset]
      rfl
    · have hset : t.closed.archiveActionDate = some date := hdate
      rw [hdated (by rw [hset]; rfl), hset]

theorem closing_changes (hfinal : type.isFinal = true) (h : t.closing = .ok plan) :
    plan.Changes t type := by
  have hfollows := closing_follows h
  rw [← hfinal] at hfollows
  obtain ⟨⟨z, subs⟩, hclose, hplan⟩ := except_of_bind_ok (x := t.close) h
  cases hplan
  obtain ⟨hz, hnomination, hdate⟩ := archived_of_close hclose
  refine ⟨hfollows.status, hfollows.lifecycle, hfollows.endDate, ?_, ?_, ?_,
    fun _ => hnomination, fun _ => hdate⟩
  · rw [hz]
    rfl
  · refine ⟨fun h => (by cases h), fun h => ?_⟩
    rw [StatusTransition.Reopens, hfinal] at h
    cases h.2
  · exact fun h => by cases h

theorem plan_changes
    (h : (if type.isFinal then t.closing else .ok t.opening) = .ok plan) :
    plan.Changes t type := by
  cases hfinal : type.isFinal with
  | true =>
      rw [hfinal] at h
      exact closing_changes hfinal h
  | false =>
      rw [hfinal] at h
      cases h
      exact opening_changes hfinal

end Plans

theorem permitted_iff {t : StatusTransition} {has : String → Bool} {config : GuardConfig}
    {type : StatusType} :
    t.Permitted has config type ↔
      t.caseType.statusType? t.statusType = some type ∧ (∀ r ∈ t.statuses, r.setAt ≠ t.setAt) ∧
        t.stateDenial? has config type.isFinal = none ∧
        t.scopeDenial? has config type.isFinal = none ∧
        ∃ plan, (if type.isFinal then t.closing else .ok t.opening) = .ok plan := by
  have hplanned : (∃ plan, (if type.isFinal then t.closing else .ok t.opening) = .ok plan) ↔
      (type.isFinal = true → t.Closable) := by
    cases type.isFinal with
    | true => simp [exists_closing_iff]
    | false => simp
  rw [stateDenial?_eq_none, scopeDenial?_eq_none_iff, hplanned]
  constructor
  · rintro ⟨hbelongs, hfresh, hreopens, hbypasses, hscope, hcloses⟩
    exact ⟨hbelongs, hfresh, ⟨hreopens, hbypasses⟩, hscope, hcloses⟩
  · rintro ⟨hbelongs, hfresh, ⟨hreopens, hbypasses⟩, hscope, hcloses⟩
    exact ⟨hbelongs, hfresh, hreopens, hbypasses, hscope, hcloses⟩

/-- Whatever the caller has, the guard gives a plan just when all rules for the status
hold, and the plan changes of its case what it may. -/
theorem status_is_decided_by_rules {c : Context} {i : Installation}
    {holds : String → Operation Bool} {has : String → Bool}
    (hholds : ∀ scope, Ends c i (holds scope) (.ok (has scope))) (config : GuardConfig)
    (t : StatusTransition) :
    ∃ outcome, Ends c i (t.decide holds config) (.ok outcome) ∧
      ((∃ plan, outcome = .ok plan) ↔ ∃ type, t.Permitted has config type) ∧
      ∀ plan, outcome = .ok plan →
        ∃ type, t.caseType.statusType? t.statusType = some type ∧ plan.Changes t type := by
  refine ⟨t.plan has config, ends_decideStatus hholds t config, ?_, fun plan hplan => ?_⟩
  · simp only [permitted_iff, plan_eq_ok]
    constructor
    · rintro ⟨plan, type, hbelongs, hfresh, hstate, hscope, hplan⟩
      exact ⟨type, hbelongs, hfresh, hstate, hscope, plan, hplan⟩
    · rintro ⟨type, hbelongs, hfresh, hstate, hscope, plan, hplan⟩
      exact ⟨plan, type, hbelongs, hfresh, hstate, hscope, hplan⟩
  · obtain ⟨type, hbelongs, -, -, -, hplanned⟩ := plan_eq_ok.1 hplan
    exact ⟨type, hbelongs, plan_changes hplanned⟩

/-- A closed permit that the archive has dated. -/
def datedPermit : CaseRecord where
  id := "permit-1"
  caseType := ⟨"permit"⟩
  confidentiality := .openbaar
  lifecycle := .closed
  endDate := some Instant.epoch.date
  archiveNomination := some "vernietigen"
  archiveActionDate := some Instant.epoch.date

/-- A permit below it that waits for its end. -/
def waitingPermit : SubCase where
  case := { datedPermit with
    id := "permit-2"
    mainCase := some "permit-1"
    archiveActionDate := none }
  hasResult := true
  resultType := some ⟨⟨"kept"⟩, none, some { years := 1 }, { method := .hoofdzaak }⟩

/-- Another status on the dated permit. -/
def nextStatus (statusType : String) : StatusTransition where
  case := datedPermit
  required := updateScopes
  caseType := permit
  statusType := ⟨statusType⟩
  setAt := dayLater
  statuses := [⟨1, "permit-1", ⟨"done"⟩, Instant.epoch, true⟩]
  result := some ⟨"granted"⟩
  mainCase := none
  subCases := [waitingPermit]

/-- Forcing a second final status on the permit is a matter of the rules: they hold, and
it keeps its date. -/
theorem second_final_status_keeps_date :
    ∃ plan, Ends .alone office ((nextStatus "done").decide
        (fun scope => pure (decide (scope = "zaken.geforceerd-bijwerken"))) {})
        (.ok (.ok plan)) ∧
      plan.case.archiveActionDate = datedPermit.archiveActionDate := by
  have hpermitted : (nextStatus "done").Permitted
      (fun scope => decide (scope = "zaken.geforceerd-bijwerken")) {}
      ⟨⟨"done"⟩, 2, true⟩ := by
    refine ⟨rfl, by decide, fun h => (by cases h.2), fun _ _ => ?_,
      fun scope hscope => (by cases hscope), fun _ => ⟨⟨_, rfl⟩, by decide, ?_, ?_⟩⟩
    · exact ⟨"zaken.geforceerd-bijwerken", by decide, decide_eq_true rfl⟩
    · rintro _ _ - - hnone
      cases hnone
    · rintro sub hsub result hresult - -
      obtain rfl := List.mem_singleton.1 hsub
      cases hresult
      exact ⟨_, rfl⟩
  obtain ⟨outcome, hends, hiff, hchanges⟩ := status_is_decided_by_rules
    (c := .alone) (i := office) (fun scope => ends_pure _) {} (nextStatus "done")
  obtain ⟨plan, rfl⟩ := hiff.2 ⟨_, hpermitted⟩
  obtain ⟨type, htype, hplan⟩ := hchanges plan rfl
  cases htype
  have hagain : plan.reopened = false := by
    rw [Bool.eq_false_iff]
    intro h
    cases (hplan.reopened.1 h).2
  exact ⟨plan, hends, hplan.dateKept hagain _ rfl⟩

/-- Reopening it takes nomination and date away. -/
theorem reopening_clears_archive :
    ∃ plan, Ends .alone office ((nextStatus "opened").decide (datedPermit.holds [clerk]) {})
        (.ok (.ok plan)) ∧
      (datedPermit.archiveNomination.isSome = true ∧ plan.case.archiveNomination = none) ∧
      (datedPermit.archiveActionDate.isSome = true ∧ plan.case.archiveActionDate = none) := by
  refine ⟨(nextStatus "opened").opening, ?_, ⟨rfl, rfl⟩, rfl, rfl⟩
  have hholds : ∀ scope, Ends .alone office (datedPermit.holds [clerk] scope)
      (.ok (datedPermit.hasScope [clerk] .alone office scope)) := ends_holds .of_empty datedPermit
  have hends := ends_decideStatus hholds (nextStatus "opened") {}
  have hplan : (nextStatus "opened").plan (datedPermit.hasScope [clerk] .alone office) {} =
      .ok (nextStatus "opened").opening := rfl
  rw [hplan] at hends
  exact hends

end CaseAccess
