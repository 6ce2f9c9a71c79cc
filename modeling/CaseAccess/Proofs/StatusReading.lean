import CaseAccess.Proofs.CaseAuthority
import CaseAccess.Proofs.InstantOrder

/-!
# Reading statuses back

Recording a status compares its instant with those of the statuses that are there, to the
nanosecond. The store keeps the instant as a text to the microsecond, and keeps no text
twice for a case. Both agree on instants that their text gives back as they were. On the
others they do not: an instant that differs from a kept one by less than a microsecond
passes the comparison and is refused by the store, which is a fault of the server; the
list shows another instant than the one that was given back; and a year without four
digits is kept as a text that nobody reads again, after which every reading of the
statuses of that case is a fault.

`status_is_read_back_as_kept` says which of these happens when, for every instant.
-/

namespace CaseAccess

open Operation

/-! ## Kept instants -/

theorem Instant.truncated_truncated (t : Instant) : t.truncated.truncated = t.truncated := by
  obtain ⟨hmicros, hleap⟩ := t.truncated_nanos
  have hnanos := t.truncated.nanos_lt
  refine Instant.ext (Instant.truncated_date _) ?_ ?_
  · rw [Instant.truncated, dif_neg (by omega)]
  · rw [Instant.truncated, dif_neg (by omega)]
    show _ / 1000 * 1000 = _
    omega

theorem Instant.isReadable_truncated (t : Instant) :
    t.truncated.isReadable = t.isReadable := by
  rw [Instant.isReadable, Instant.isReadable, Instant.truncated_date]

/-- Every instant is kept as its text is read. -/
def Store.InMicroseconds (s : Store) : Prop :=
  ∀ r ∈ s.statuses.rows, r.setAt.truncated = r.setAt

theorem CaseCommand.Writes.inMicroseconds {c : Context} {i : Installation}
    {command : CaseCommand} {t : Store} {news : List Notification} (h : command.Writes c i t news)
    (hi : i.store.InMicroseconds) : t.InMicroseconds := by
  cases h with
  | create _ _ _ _ _ _ _ => exact hi
  | update _ _ _ _ => exact hi
  | recordStatus z required reference d t isFinal plan r s _ _ _ _ _ _ hcreate =>
      obtain ⟨-, hstatuses, -⟩ := written_frame hcreate
      intro r hr
      rw [hstatuses] at hr
      rcases List.mem_append.1 hr with hr | hr
      · exact hi r hr
      · rw [List.mem_singleton.1 hr]
        exact Instant.truncated_truncated _
  | setResult _ _ _ _ _ => exact hi
  | attach _ _ _ => exact hi

theorem Reachable.inMicroseconds {i : Installation} (h : Reachable i) :
    i.store.InMicroseconds := by
  induction h with
  | start config =>
      obtain ⟨kept, hkept⟩ := seed_eq {} config.authn.secrets
      rw [Installation.start, hkept]
      exact fun r hr => by cases hr
  | restart config _ ih =>
      next i _ =>
      obtain ⟨kept, hkept⟩ := seed_eq i.store config.authn.secrets
      rw [Installation.start, hkept]
      exact ih
  | @step i j hprev hstep ih =>
      cases hstep with
      | onCases command c =>
          rcases hrun : command.run c i with ⟨e | _, j⟩
          · rw [(caseCommand_quiet command c i e j hrun).store]
            exact ih
          · obtain ⟨news, hwrites, -⟩ := CaseCommand.writes_of hprev.coherent.agrees hrun
            exact hwrites.inMicroseconds ih
      | administration command c =>
          have hsame := (administration_keepsCases command c i).statuses
          rw [Store.InMicroseconds, hsame]
          exact ih
  | lookup _ hm c ih =>
      rw [(hm c _).store]
      exact ih

/-! ## The list -/

/-- A status is before another one, as an instant and as a text. -/
def StatusRecord.Precedes (q r : StatusRecord) : Prop :=
  q.setAt ≤ r.setAt ∧ q.setAt ≠ r.setAt ∧ q.setAt.text 6 < r.setAt.text 6

theorem parse?_eq_none {t : Instant} :
    Instant.parse? (t.text 6) = none ↔ t.isReadable = false := by
  rw [Instant.parse?_text]
  cases t.isReadable with
  | true => simp
  | false => simp

theorem parse?_eq_some {t kept : Instant} :
    Instant.parse? (t.text 6) = some kept ↔ t.isReadable = true ∧ t.truncated = kept := by
  rw [Instant.parse?_text]
  cases t.isReadable with
  | true => simp
  | false => simp

namespace Store

variable {s : Store} {id : String} {l : List StatusRecord}

/-- The statuses of a case are not listed just when a text is not read. -/
theorem listStatuses_eq_error :
    s.listStatuses id = .error .unreadable ↔
      ∃ q ∈ s.recordedStatuses id, Instant.parse? (q.setAt.text 6) = none := by
  have hall : (s.recordedStatuses id).all (·.setAt.isReadable) = false ↔
      ∃ q ∈ s.recordedStatuses id, Instant.parse? (q.setAt.text 6) = none := by
    simp only [List.all_eq_false, parse?_eq_none, Bool.not_eq_true]
  rw [listStatuses, ← hall]
  split
  · next hread => simp [hread]
  · next hread => simp [hread]

theorem listStatuses_ok (h : s.listStatuses id = .ok l) :
    (∀ r ∈ s.recordedStatuses id, r.setAt.isReadable = true) ∧
      l = (s.recordedStatuses id).mergeSort fun a b => decide (a.setAt ≤ b.setAt) := by
  rw [listStatuses] at h
  split at h
  · next hall =>
      cases h
      exact ⟨List.all_eq_true.1 hall, rfl⟩
  · cases h

theorem perm_listStatuses (h : s.listStatuses id = .ok l) : l.Perm (s.recordedStatuses id) := by
  rw [(listStatuses_ok h).2]
  exact List.mergeSort_perm _ _

theorem sorted_listStatuses (h : s.listStatuses id = .ok l) :
    l.Pairwise fun q r => q.setAt ≤ r.setAt := by
  have hmerge : ((s.recordedStatuses id).mergeSort fun a b => decide (a.setAt ≤ b.setAt)).Pairwise
      fun q r => decide (q.setAt ≤ r.setAt) = true := by
    refine List.pairwise_mergeSort (fun a b c hab hbc => ?_) (fun a b => ?_) _
    · exact decide_eq_true (Instant.le_trans (of_decide_eq_true hab) (of_decide_eq_true hbc))
    · rw [Bool.or_eq_true, decide_eq_true_eq, decide_eq_true_eq]
      exact Instant.le_total _ _
  rw [(listStatuses_ok h).2]
  exact hmerge.imp fun hle => of_decide_eq_true hle

/-- Of one case no two statuses have the same instant. -/
theorem apart_recordedStatuses (hs : s.Chronicled) (id : String) :
    (s.recordedStatuses id).Pairwise fun q r => q.setAt ≠ r.setAt := by
  have hcase : ∀ r ∈ s.recordedStatuses id, r.caseId = id := fun r hr => by
    simpa using (List.mem_filter.1 hr).2
  refine (hs.apart.filter _).imp_of_mem fun hq hr hne => hne ?_
  rw [hcase _ hq, hcase _ hr]

/-- What is listed increases, as instants and as texts. -/
theorem increasing_listStatuses (hs : s.Chronicled) (hkept : s.InMicroseconds)
    (h : s.listStatuses id = .ok l) : l.Pairwise (·.Precedes ·) := by
  have hperm := perm_listStatuses h
  have hapart : l.Pairwise fun q r => q.setAt ≠ r.setAt :=
    (hperm.pairwise_iff fun hne => Ne.symm hne).2 (apart_recordedStatuses hs id)
  refine ((sorted_listStatuses h).and hapart).imp_of_mem fun hq hr hboth => ?_
  have hread := (listStatuses_ok h).1
  rw [hperm.mem_iff] at hq hr
  exact ⟨hboth.1, hboth.2, Instant.text_lt_text (hkept _ (List.mem_of_mem_filter hq))
    (hkept _ (List.mem_of_mem_filter hr)) (hread _ hq) (hread _ hr) hboth.1 hboth.2⟩

/-- A status is not kept just when its instant, as it is kept, is there already. -/
theorem createStatus_error {r : StatusRecord} :
    (∃ fault, s.createStatus r = .error fault) ↔
      ∃ q ∈ s.recordedStatuses r.caseId, q.setAt = r.setAt.truncated := by
  have htaken : (s.statuses.rows.any fun q => q.caseId = r.caseId ∧ q.setAt = r.setAt.truncated) =
      true ↔ ∃ q ∈ s.recordedStatuses r.caseId, q.setAt = r.setAt.truncated := by
    simp only [List.any_eq_true, decide_eq_true_eq, recordedStatuses, List.mem_filter, and_assoc]
  rw [createStatus, ← htaken]
  simp only
  split
  · next h => exact ⟨fun _ => h, fun _ => ⟨_, rfl⟩⟩
  · next h =>
      refine ⟨?_, fun htaken => absurd htaken h⟩
      rintro ⟨fault, hfault⟩
      cases hfault

theorem error_listStatuses {fault : StoreFault} (h : s.listStatuses id = .error fault) :
    s.listStatuses id = .error .unreadable := by
  rw [listStatuses] at h ⊢
  split at h
  · cases h
  · next hread => rw [if_neg hread]

end Store

/-! ## Recording -/

section Recording

variable {applications : List Application} {c : Context} {i : Installation}
  {id statusType : String} {setAt : Instant}

/-- What decides about a status, and what is planned for it, has its case and instant. -/
theorem status_of_transition {z : CaseRecord} {required : ScopeSet} {reference : TypeRef}
    {d : TypeDefinition} {t : StatusTransition} {plan : TransitionPlan}
    (ht : transition c i z required d reference setAt = .ok t)
    (hverdict : t.verdict applications c i = .ok plan) :
    plan.status.caseId = z.id ∧ plan.status.setAt = setAt := by
  obtain ⟨type, -, -, -, -, hplan⟩ := plan_eq_ok.1 (verdict_eq_ok.1 hverdict)
  rw [(plan_follows hplan).status]
  obtain ⟨statuses, -, ht⟩ := except_of_bind_ok ht
  cases ht
  exact ⟨rfl, rfl⟩

/-- A plan that the store does not keep. -/
theorem createStatus_error_of_verdict {z : CaseRecord} {required : ScopeSet}
    {reference : TypeRef} {d : TypeDefinition} {t : StatusTransition} {plan : TransitionPlan}
    (ht : transition c i z required d reference setAt = .ok t)
    (hverdict : t.verdict applications c i = .ok plan) :
    (∃ fault, i.store.createStatus plan.status = .error fault) ↔
      ∃ q ∈ i.store.recordedStatuses z.id, Instant.parse? (setAt.text 6) = some q.setAt := by
  obtain ⟨hcase, hsetAt⟩ := status_of_transition ht hverdict
  obtain ⟨statuses, hlist, -⟩ := except_of_bind_ok ht
  have hread := (Store.listStatuses_ok (orFault_eq_ok.1 hlist)).1
  rw [Store.createStatus_error, hcase, hsetAt]
  refine exists_congr fun q => and_congr_right fun hq => ?_
  rw [parse?_eq_some, and_iff_right_of_imp fun heq => ?_, eq_comm]
  -- What is kept of the instant is read, and so is the instant itself.
  rw [← Instant.isReadable_truncated, heq]
  exact hread q hq

theorem kind_of_verdict {t : StatusTransition} {e : ApiError}
    (h : t.verdict applications c i = .error e) : e.kind ≠ .internalError := by
  rw [StatusTransition.verdict] at h
  split at h
  · cases h
  · cases h
    exact GuardDenial.kind_toApiError _

/-- For a caller that is admitted, two things end in a fault: a text of the case that is
not read, and a planned status that is read as one that is there. -/
theorem statusOutcome_fault_iff {z : CaseRecord} {required : ScopeSet} {reference : TypeRef}
    {d : TypeDefinition}
    (h : StatusAdmission applications c i z.id statusType z required reference d) :
    (∃ e, statusOutcome applications c i z.id statusType setAt = .error e ∧
        e.kind = .internalError) ↔
      (∃ q ∈ i.store.recordedStatuses z.id, Instant.parse? (q.setAt.text 6) = none) ∨
        ∃ t plan, transition c i z required d reference setAt = .ok t ∧
          t.verdict applications c i = .ok plan ∧
          ∃ q ∈ i.store.recordedStatuses z.id, Instant.parse? (setAt.text 6) = some q.setAt := by
  rw [statusOutcome, h.statusPlan_eq]
  cases hlist : i.store.listStatuses z.id with
  | error fault =>
      have hunread := Store.listStatuses_eq_error.1 (Store.error_listStatuses hlist)
      have ht : transition c i z required d reference setAt = .error .serverFault := by
        rw [transition, hlist]
        rfl
      rw [ht]
      exact iff_of_true ⟨_, rfl, rfl⟩ (.inl hunread)
  | ok statuses =>
      have hread : ¬ ∃ q ∈ i.store.recordedStatuses z.id,
          Instant.parse? (q.setAt.text 6) = none := by
        rw [← Store.listStatuses_eq_error, hlist]
        exact fun hfault => by cases hfault
      obtain ⟨t, ht⟩ : ∃ t, transition c i z required d reference setAt = .ok t := by
        rw [transition, hlist]
        exact ⟨_, rfl⟩
      rw [or_iff_right hread, ht, except_ok_bind]
      cases hverdict : t.verdict applications c i with
      | error e =>
          refine iff_of_false ?_ ?_
          · rintro ⟨e', he, hkind⟩
            cases he
            exact kind_of_verdict hverdict hkind
          · rintro ⟨t', plan, ht', hplan, -⟩
            cases ht'
            rw [hverdict] at hplan
            cases hplan
      | ok plan =>
          have hclash := createStatus_error_of_verdict ht hverdict
          rw [except_ok_bind]
          cases hcreate : i.store.createStatus plan.status with
          | error fault =>
              exact iff_of_true ⟨_, rfl, rfl⟩
                ⟨t, plan, rfl, hverdict, hclash.1 ⟨fault, hcreate⟩⟩
          | ok created =>
              refine iff_of_false ?_ ?_
              · rintro ⟨e, he, -⟩
                cases he
              · rintro ⟨t', plan', -, -, htaken⟩
                obtain ⟨fault, hfault⟩ := hclash.2 htaken
                rw [hcreate] at hfault
                cases hfault

/-- Nobody else is told of a fault. -/
theorem admitted_of_fault {e : ApiError}
    (h : statusOutcome applications c i id statusType setAt = .error e)
    (hkind : e.kind = .internalError) :
    ∃ z required reference d,
      StatusAdmission applications c i id statusType z required reference d := by
  rcases admission_or_error applications c i id statusType with hadmitted | ⟨e', hkind', herror⟩
  · exact hadmitted
  · rw [statusOutcome, herror] at h
    cases h
    exact absurd hkind hkind'

/-- An admitted caller that records a status at an instant of the list is told so. -/
theorem statusOutcome_duplicate {z : CaseRecord} {required : ScopeSet} {reference : TypeRef}
    {d : TypeDefinition}
    (h : StatusAdmission applications c i z.id statusType z required reference d)
    {before : List StatusRecord} (hlist : i.store.listStatuses z.id = .ok before)
    (htype : (d.statusType? reference).isSome = true) (htaken : ∃ q ∈ before, q.setAt = setAt) :
    statusOutcome applications c i z.id statusType setAt =
      .error (GuardDenial.duplicateStatus setAt).toApiError := by
  obtain ⟨type, htype⟩ := Option.isSome_iff_exists.1 htype
  have hany : before.any (fun q => decide (q.setAt = setAt)) = true := by
    simpa using htaken
  rw [statusOutcome, h.statusPlan_eq, transition, hlist]
  show (StatusTransition.verdict applications c i _ >>= _) = _
  rw [StatusTransition.verdict, StatusTransition.plan]
  simp only [htype, hany, if_true]
  rfl

/-- What the store has of a status that was recorded. -/
theorem recorded_of_recordStatus (hi : i.grantCache.Agrees i.store) {r : StatusRecord}
    {j : Installation} (h : recordStatus applications id statusType setAt c i = (.ok r, j)) :
    r.setAt = setAt ∧ (∃ before, i.store.listStatuses id = .ok before) ∧
      j.store.recordedStatuses id =
        i.store.recordedStatuses id ++ [{ r with setAt := setAt.truncated }] := by
  obtain ⟨plan, houtcome, -⟩ := recordStatus_outcome hi h
  obtain ⟨hplan, s, hcreate, hwritten⟩ := statusOutcome_eq_ok.1 houtcome
  obtain ⟨z, required, reference, d, t, hadmission, ht, hverdict⟩ := statusPlan_eq_ok.1 hplan
  obtain rfl : z.id = id := Table.key_of_get? hadmission.found
  obtain ⟨hcase, hsetAt⟩ := status_of_transition ht hverdict
  obtain ⟨statuses, hlist, -⟩ := except_of_bind_ok ht
  have hgiven := Store.createStatus_given hcreate
  refine ⟨by rw [hgiven]; exact hsetAt, ⟨statuses, orFault_eq_ok.1 hlist⟩, ?_⟩
  have hstatuses : (plan.written s).recordedStatuses z.id = s.recordedStatuses z.id := by
    obtain ⟨cases, hcases⟩ := Store.foldl_updateCase_eq plan.subCases (s.updateCase plan.case)
    rw [TransitionPlan.written, hcases]
    rfl
  rw [← hwritten, hstatuses, Store.recordedStatuses_same hcreate hcase, hgiven, Store.keptStatus,
    hsetAt]

/-- A status that is recorded and read is listed next to the ones before it. -/
theorem listed_of_recordStatus (hreach : Reachable i) {r : StatusRecord} {j : Installation}
    (h : recordStatus applications id statusType setAt c i = (.ok r, j))
    {before : List StatusRecord} (hbefore : i.store.listStatuses id = .ok before)
    (hread : setAt.isReadable = true) :
    ∃ after, j.store.listStatuses id = .ok after ∧
      after.Perm ({ r with setAt := setAt.truncated } :: before) ∧
      after.Pairwise (·.Precedes ·) := by
  obtain ⟨-, -, hrecorded⟩ := recorded_of_recordStatus hreach.coherent.agrees h
  have hj : Reachable j := by
    have hnext := hreach.step (.onCases (.recordStatus applications id statusType setAt) c i)
    rw [CaseCommand.run, Operation.forget, bind_of_ok h] at hnext
    exact hnext
  have hall : ∀ q ∈ j.store.recordedStatuses id, q.setAt.isReadable = true := by
    rw [hrecorded]
    intro q hq
    rcases List.mem_append.1 hq with hq | hq
    · exact (Store.listStatuses_ok hbefore).1 q hq
    · rw [List.mem_singleton.1 hq]
      exact (Instant.isReadable_truncated setAt).trans hread
  obtain ⟨after, hafter⟩ : ∃ after, j.store.listStatuses id = .ok after := by
    rw [Store.listStatuses, if_pos (List.all_eq_true.2 hall)]
    exact ⟨_, rfl⟩
  refine ⟨after, hafter, ?_, Store.increasing_listStatuses hj.chronicled hj.inMicroseconds hafter⟩
  have hperm := Store.perm_listStatuses hafter
  rw [hrecorded] at hperm
  refine hperm.trans ((List.perm_append_singleton _ _).trans ?_)
  exact (Store.perm_listStatuses hbefore).symm.cons _

end Recording

/-- Recording a status in an installation that can be found running, at any instant. It is
a fault of the server just when the caller is admitted and either some text of the case
is not read, or the guard lets an instant pass whose text is read as one that is there. An
instant that is there itself is a conflict. A status that is recorded is listed with the
instant that its text is read as, next to the ones before it, which increase as instants
and as texts; if its text is not read, the statuses of the case are not listed any more. -/
theorem status_is_read_back_as_kept {i : Installation} (hreach : Reachable i)
    (applications : List Application) (c : Context) (id statusType : String) (setAt : Instant) :
    ((∃ e, (recordStatus applications id statusType setAt c i).1 = .error e ∧
        e.kind = .internalError) ↔
      ∃ z required reference d,
        StatusAdmission applications c i id statusType z required reference d ∧
        ((∃ q ∈ i.store.recordedStatuses id, Instant.parse? (q.setAt.text 6) = none) ∨
          ∃ t plan, transition c i z required d reference setAt = .ok t ∧
            t.verdict applications c i = .ok plan ∧
            ∃ q ∈ i.store.recordedStatuses id, Instant.parse? (setAt.text 6) = some q.setAt)) ∧
    (∀ z required reference d before,
      StatusAdmission applications c i id statusType z required reference d →
      i.store.listStatuses id = .ok before → (d.statusType? reference).isSome = true →
      (∃ q ∈ before, q.setAt = setAt) →
      (recordStatus applications id statusType setAt c i).1 =
        .error (GuardDenial.duplicateStatus setAt).toApiError) ∧
    ∀ r j, recordStatus applications id statusType setAt c i = (.ok r, j) →
      r.setAt = setAt ∧ ∃ before, i.store.listStatuses id = .ok before ∧
        (Instant.parse? (setAt.text 6) = none →
          j.store.listStatuses id = .error .unreadable) ∧
        ∀ kept, Instant.parse? (setAt.text 6) = some kept →
          ∃ after, j.store.listStatuses id = .ok after ∧
            after.Perm ({ r with setAt := kept } :: before) ∧ after.Pairwise (·.Precedes ·) := by
  have hi := hreach.coherent.agrees
  refine ⟨⟨?_, ?_⟩, ?_, fun r j h => ?_⟩
  · rintro ⟨e, he, hkind⟩
    rw [recordStatus_fst hi] at he
    cases hout : statusOutcome applications c i id statusType setAt with
    | ok outcome =>
        rw [hout] at he
        cases he
    | error e' =>
        rw [hout] at he
        cases he
        obtain ⟨z, required, reference, d, hadmission⟩ := admitted_of_fault hout hkind
        obtain rfl : z.id = id := Table.key_of_get? hadmission.found
        exact ⟨z, required, reference, d, hadmission,
          (statusOutcome_fault_iff hadmission).1 ⟨_, hout, hkind⟩⟩
  · rintro ⟨z, required, reference, d, hadmission, hfault⟩
    obtain rfl : z.id = id := Table.key_of_get? hadmission.found
    obtain ⟨e, he, hkind⟩ := (statusOutcome_fault_iff hadmission).2 hfault
    refine ⟨e, ?_, hkind⟩
    rw [recordStatus_fst hi, he]
    rfl
  · intro z required reference d before hadmission hlist htype htaken
    obtain rfl : z.id = id := Table.key_of_get? hadmission.found
    rw [recordStatus_fst hi, statusOutcome_duplicate hadmission hlist htype htaken]
    rfl
  · obtain ⟨hsetAt, ⟨before, hbefore⟩, hrecorded⟩ := recorded_of_recordStatus hi h
    refine ⟨hsetAt, before, hbefore, fun hnone => ?_, fun kept hkept => ?_⟩
    · rw [Store.listStatuses_eq_error, hrecorded]
      refine ⟨_, List.mem_append_right _ List.mem_cons_self, ?_⟩
      rw [parse?_eq_none] at hnone ⊢
      exact (Instant.isReadable_truncated setAt).trans hnone
    · obtain ⟨hread, rfl⟩ := parse?_eq_some.1 hkept
      exact listed_of_recordStatus hreach h hbefore hread

/-- A dossier with a status at the epoch. -/
def openedRoom : Installation := CaseCommand.runAll [
  .create [clerk] "dossier-1" ⟨none, "dossier", .openbaar, none, {}⟩,
  .recordStatus [clerk] "dossier-1" "opened" Instant.epoch] Context.alone archiveRoom

theorem reachable_openedRoom : Reachable openedRoom :=
  ((Reachable.start {}).step (.administration _ _ _)).reaches (reaches_runAll _ _ _)

/-- A day later the status is listed as it was recorded. -/
theorem openedRoom_lists_a_day_later :
    ∃ r j after, recordStatus [clerk] "dossier-1" "opened" dayLater .alone openedRoom =
        (.ok r, j) ∧ j.store.listStatuses "dossier-1" = .ok after ∧ r ∈ after ∧
          after.Pairwise (·.Precedes ·) := by
  have hok : (recordStatus [clerk] "dossier-1" "opened" dayLater .alone openedRoom).1.isOk =
      true := by decide +kernel
  have hkept : Instant.parse? (dayLater.text 6) = some dayLater := by decide +kernel
  rcases hrun : recordStatus [clerk] "dossier-1" "opened" dayLater .alone openedRoom with
    ⟨e | r, j⟩
  · rw [hrun] at hok
    cases hok
  · obtain ⟨hsetAt, before, -, -, hlisted⟩ := (status_is_read_back_as_kept reachable_openedRoom
      [clerk] .alone "dossier-1" "opened" dayLater).2.2 r j hrun
    obtain ⟨after, hafter, hperm, hincreasing⟩ := hlisted dayLater hkept
    refine ⟨r, j, after, rfl, hafter, hperm.mem_iff.2 ?_, hincreasing⟩
    rw [← hsetAt]
    exact List.mem_cons_self

/-- Half a microsecond after `Instant.epoch`. -/
def soonAfter : Instant := (Instant.ofEpoch? 0 500).getD Instant.epoch

/-- The start of the year 10000. -/
def farAfter : Instant := (Instant.ofEpoch? 253402300800 0).getD Instant.epoch

/-- An instant that no status has, and a fault; and a status that is recorded, after which
none of the case is listed. -/
theorem openedRoom_loses_statuses :
    ((recordStatus [clerk] "dossier-1" "opened" soonAfter .alone openedRoom).1 =
        .error .serverFault ∧
      ∀ q ∈ openedRoom.store.recordedStatuses "dossier-1", q.setAt ≠ soonAfter) ∧
    ((recordStatus [clerk] "dossier-1" "opened" farAfter .alone openedRoom).1.isOk = true ∧
      (recordStatus [clerk] "dossier-1" "opened" farAfter .alone openedRoom).2.store.listStatuses
        "dossier-1" = .error .unreadable) := by
  decide +kernel

end CaseAccess
