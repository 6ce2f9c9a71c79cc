import CaseAccess.Proofs.AdministrationFrame
import CaseAccess.Proofs.CaseChange
import CaseAccess.Proofs.StatusPlan

/-!
# A case is what its statuses say

What is kept of a case holds its state twice, as a state of its life and as an end
date, and the statuses that were recorded on it say the same a third time. The three
stay in step. Starting without cases, after any commands the state of a case is what
its statuses lead to from new, its end date is that of its last status if this is
final, and the statuses themselves are only ever added to.

The invariant is `Chronicled`. Besides what is claimed it says that a status belongs to
a case that is there, so that a new case begins without a history, that statuses are
numbered upwards, and that no case is its own main case, so that closing a case
does not rewrite it as one of its sub-cases. A command preserves it because of what the
operations write: a new case without statuses, a case in its old standing, or a status
together with the case that follows from it.
-/

namespace CaseAccess

open Operation

/-! ## What a history says -/

/-- The state to which statuses lead, from new. -/
def lifecycleAfter (statuses : List StatusRecord) : Lifecycle :=
  statuses.foldl (fun state r => state.next r.isFinal) .new

/-- The date of the last status, if it is final. -/
def endDateAfter (statuses : List StatusRecord) : Option Date :=
  (statuses.getLast?.filter (·.isFinal)).map (·.setAt.date)

theorem lifecycleAfter_append (statuses : List StatusRecord) (r : StatusRecord) :
    lifecycleAfter (statuses ++ [r]) = (lifecycleAfter statuses).next r.isFinal := by
  rw [lifecycleAfter, List.foldl_append]
  rfl

theorem endDateAfter_append (statuses : List StatusRecord) (r : StatusRecord) :
    endDateAfter (statuses ++ [r]) = if r.isFinal then some r.setAt.date else none := by
  rw [endDateAfter, List.getLast?_append]
  cases h : r.isFinal with
  | true => simp [Option.filter, h]
  | false => simp [Option.filter, h]

theorem next_eq_closed {state : Lifecycle} {isFinal : Bool} :
    state.next isFinal = .closed ↔ isFinal = true := by
  cases isFinal with
  | true => simp [Lifecycle.next]
  | false => cases state <;> simp [Lifecycle.next]

/-- A history leads to closed just when it leads to an end date. -/
theorem closed_iff_endDate (statuses : List StatusRecord) :
    lifecycleAfter statuses = .closed ↔ (endDateAfter statuses).isSome = true := by
  rcases List.eq_nil_or_concat statuses with rfl | ⟨l, r, rfl⟩
  · simp [lifecycleAfter, endDateAfter]
  · rw [List.concat_eq_append, lifecycleAfter_append, endDateAfter_append, next_eq_closed]
    cases r.isFinal with
    | true => simp
    | false => simp

/-! ## The invariant -/

/-- A case is in the state that its statuses say. -/
structure Store.Tells (s : Store) (z : CaseRecord) : Prop where
  lifecycle : z.lifecycle = lifecycleAfter (s.recordedStatuses z.id)
  endDate : z.endDate = endDateAfter (s.recordedStatuses z.id)

structure Store.Chronicled (s : Store) : Prop where
  tells : ∀ z ∈ s.cases.rows, s.Tells z
  owned : ∀ r ∈ s.statuses.rows, r.caseId ∈ s.cases.rows.map (·.id)
  numbered : s.statuses.Ascending StatusRecord.id
  apart : s.statuses.rows.Pairwise fun q r => q.caseId = r.caseId → q.setAt ≠ r.setAt
  apex : ∀ z ∈ s.cases.rows, z.mainCase ≠ some z.id

namespace Store

variable {s t : Store} {z z' : CaseRecord}

theorem Tells.of_sameStanding (h : s.Tells z) (hsame : z.SameStanding z') : s.Tells z' := by
  refine ⟨?_, ?_⟩
  · rw [hsame.lifecycle, hsame.id]
    exact h.lifecycle
  · rw [hsame.endDate, hsame.id]
    exact h.endDate

theorem Tells.congr (h : s.Tells z)
    (hstatuses : t.recordedStatuses z.id = s.recordedStatuses z.id) : t.Tells z := by
  refine ⟨?_, ?_⟩
  · rw [hstatuses]
    exact h.lifecycle
  · rw [hstatuses]
    exact h.endDate

/-- Only cases and statuses matter. -/
theorem Chronicled.congr (h : s.Chronicled) (hcases : t.cases = s.cases)
    (hstatuses : t.statuses = s.statuses) : t.Chronicled := by
  have hrecorded : ∀ id, t.recordedStatuses id = s.recordedStatuses id := by
    intro id
    rw [recordedStatuses, recordedStatuses, hstatuses]
  refine ⟨?_, ?_, ?_, ?_, ?_⟩
  · rw [hcases]
    exact fun z hz => (h.tells z hz).congr (hrecorded z.id)
  · rw [hcases, hstatuses]
    exact h.owned
  · rw [hstatuses]
    exact h.numbered
  · rw [hstatuses]
    exact h.apart
  · rw [hcases]
    exact h.apex

/-! ## What is written -/

theorem ids_updateCase (z : CaseRecord) :
    (s.updateCase z).cases.rows.map (·.id) = s.cases.rows.map (·.id) :=
  Table.map_key_instead z s.cases.rows

/-- A new case has no statuses, and tells just that. -/
theorem Chronicled.createCase (h : s.Chronicled) {cases : Table CaseRecord.id}
    (hadd : s.cases.add? z = some cases) (hlifecycle : z.lifecycle = .new)
    (hend : z.endDate = none) (hmain : z.mainCase ≠ some z.id) :
    ({ s with cases := cases } : Store).Chronicled := by
  rw [Table.add?] at hadd
  split at hadd
  · cases hadd
  · next hfree =>
      cases hadd
      have hnone : s.recordedStatuses z.id = [] := by
        rw [recordedStatuses, List.filter_eq_nil_iff]
        intro r hr hcase
        rw [decide_eq_true_eq] at hcase
        exact hfree (hcase ▸ h.owned r hr)
      refine ⟨?_, ?_, h.numbered, h.apart, ?_⟩
      · intro y hy
        rcases List.mem_append.1 hy with hy | hy
        · exact (h.tells y hy).congr rfl
        · rw [List.mem_singleton] at hy
          subst hy
          refine Tells.congr (s := s) ⟨?_, ?_⟩ rfl
          · rw [hnone, hlifecycle]
            rfl
          · rw [hnone, hend]
            rfl
      · intro r hr
        rw [List.map_append]
        exact List.mem_append_left _ (h.owned r hr)
      · intro y hy
        rcases List.mem_append.1 hy with hy | hy
        · exact h.apex y hy
        · rw [List.mem_singleton] at hy
          subst hy
          exact hmain

/-- A case may be rewritten as one that tells the same and is not below itself. -/
theorem Chronicled.updateCase (h : s.Chronicled) (htells : s.Tells z)
    (hmain : z.mainCase ≠ some z.id) : (s.updateCase z).Chronicled := by
  refine ⟨?_, ?_, h.numbered, h.apart, ?_⟩
  · intro y hy
    rcases Table.mem_replace hy with rfl | ⟨hy, -⟩
    · exact htells.congr rfl
    · exact (h.tells y hy).congr rfl
  · intro r hr
    rw [ids_updateCase]
    exact h.owned r hr
  · intro y hy
    rcases Table.mem_replace hy with rfl | ⟨hy, -⟩
    · exact hmain
    · exact h.apex y hy

theorem Chronicled.foldl_updateCase (h : s.Chronicled) {l : List CaseRecord}
    (hl : ∀ z ∈ l, s.Tells z ∧ z.mainCase ≠ some z.id) :
    (l.foldl (fun s z => s.updateCase z) s).Chronicled := by
  induction l generalizing s with
  | nil => exact h
  | cons z rest ih =>
      obtain ⟨htells, hmain⟩ := hl z (by simp)
      refine ih (h.updateCase htells hmain) fun y hy => ?_
      obtain ⟨hy₁, hy₂⟩ := hl y (List.mem_cons_of_mem _ hy)
      exact ⟨hy₁.congr rfl, hy₂⟩

section Recorded

variable {r r' : StatusRecord} (h : s.Chronicled) (hcreate : s.createStatus r = .ok (r', t))

include hcreate

theorem recordedStatuses_same (hcase : r.caseId = z.id) :
    t.recordedStatuses z.id = s.recordedStatuses z.id ++ [s.keptStatus r] := by
  obtain ⟨rfl, -⟩ := createStatus_ok hcreate
  have hkept : decide ((s.keptStatus r).caseId = z.id) = true := decide_eq_true hcase
  rw [recordedStatuses, recordedStatuses, Numbered.add, List.filter_append, List.filter_cons,
    if_pos hkept]
  rfl

theorem recordedStatuses_other (hcase : r.caseId ≠ z.id) :
    t.recordedStatuses z.id = s.recordedStatuses z.id := by
  obtain ⟨rfl, -⟩ := createStatus_ok hcreate
  have hkept : ¬ decide ((s.keptStatus r).caseId = z.id) = true := by
    rw [decide_eq_true_iff]
    exact hcase
  rw [recordedStatuses, recordedStatuses, Numbered.add, List.filter_append, List.filter_cons,
    if_neg hkept]
  exact List.append_nil _

include h

/-- A status is recorded together with the case that follows from it. -/
theorem Chronicled.record (hz : z ∈ s.cases.rows) (hcase : r.caseId = z.id)
    (hid : z'.id = z.id) (hmain : z'.mainCase = z.mainCase)
    (hlifecycle : z'.lifecycle = z.lifecycle.next r.isFinal)
    (hend : z'.endDate = if r.isFinal then some r.setAt.date else none) :
    (t.updateCase z').Chronicled := by
  have hrecorded := recordedStatuses_same hcreate hcase
  have hother : ∀ y ∈ s.cases.rows, y.id ≠ z.id → t.Tells y := fun y hy hne =>
    (h.tells y hy).congr (recordedStatuses_other hcreate (hcase ▸ hne.symm))
  have htells : t.Tells z' := by
    refine ⟨?_, ?_⟩
    · rw [hid, hrecorded, lifecycleAfter_append, hlifecycle, (h.tells z hz).lifecycle]
      rfl
    · rw [hid, hrecorded, endDateAfter_append, hend, ← Instant.truncated_date]
      rfl
  obtain ⟨rfl, hapart⟩ := createStatus_ok hcreate
  have hnumbered : (s.statuses.add fun _ => s.keptStatus r).Ascending StatusRecord.id :=
    h.numbered.add rfl
  refine ⟨?_, ?_, hnumbered, ?_, ?_⟩
  · intro y hy
    rcases Table.mem_replace hy with rfl | ⟨hy, hne⟩
    · exact htells.congr rfl
    · exact (hother y hy (hid ▸ hne)).congr rfl
  · intro q hq
    rw [ids_updateCase]
    rcases List.mem_append.1 hq with hq | hq
    · exact h.owned q hq
    · rw [List.mem_singleton] at hq
      subst hq
      exact hcase ▸ List.mem_map_of_mem hz
  · refine List.pairwise_append.2 ⟨h.apart, List.pairwise_singleton _ _, fun q hq q' hq' => ?_⟩
    rw [List.mem_singleton] at hq'
    subst hq'
    exact hapart q hq
  · intro y hy
    rcases Table.mem_replace hy with rfl | ⟨hy, -⟩
    · rw [hmain, hid]
      exact h.apex z hz
    · exact h.apex y hy

end Recorded

/-- A plan that follows from a transition keeps the invariant as a whole: the case
tells the new status, and its sub-cases are in their old standing. -/
theorem Chronicled.plan (h : s.Chronicled) {tr : StatusTransition} {isFinal : Bool}
    {plan : TransitionPlan} {r : StatusRecord} {id : String} (hfound : s.case? id = some z)
    (hread : tr.ReadFrom s z) (hplan : plan.Follows tr isFinal)
    (hcreate : s.createStatus plan.status = .ok (r, t)) :
    (plan.subCases.foldl (fun s z => s.updateCase z) (t.updateCase plan.case)).Chronicled := by
  have hz : z ∈ s.cases.rows := Table.mem_of_get? hfound
  have hstatus := hplan.status
  have hcase : plan.status.caseId = z.id := by
    rw [hstatus, StatusTransition.status, hread.case]
  refine Chronicled.foldl_updateCase (h.record hcreate hz hcase ?_ ?_ ?_ ?_) ?_
  · rw [hplan.id, hread.case]
  · rw [hplan.mainCase, hread.case]
  · rw [hplan.lifecycle, hstatus, hread.case]
    rfl
  · rw [hplan.endDate, hstatus]
    rfl
  · intro y hy
    obtain ⟨sub, hsub, hsame⟩ := hplan.subCases y hy
    -- A sub-case was read from the rows below `z`, and so it is not `z` itself.
    obtain ⟨hrow, hbelow⟩ := mem_subCases.1 (hread.case_mem_subCases hsub)
    have hne : sub.case.id ≠ z.id := by
      intro hid
      refine h.apex sub.case hrow ?_
      rw [hbelow, hid]
    have htells : t.Tells sub.case :=
      (h.tells sub.case hrow).congr (recordedStatuses_other hcreate (hcase ▸ hne.symm))
    refine ⟨(htells.of_sameStanding hsame).congr rfl, ?_⟩
    rw [hsame.mainCase, hsame.id]
    exact h.apex sub.case hrow

end Store

/-! ## Commands -/

/-- A history goes on: the invariant is kept, and so is every status. -/
structure Installation.Continues (i j : Installation) : Prop where
  chronicled : i.store.Chronicled → j.store.Chronicled
  kept : i.store.statuses.rows <+: j.store.statuses.rows

open Installation (Continues LooksUp KeepsCases)

instance : IsPreorder Installation Continues where
  refl _ := ⟨id, List.prefix_refl _⟩
  trans _ _ _ h₁ h₂ := ⟨h₂.chronicled ∘ h₁.chronicled, h₁.kept.trans h₂.kept⟩

theorem Installation.KeepsCases.continues {i j : Installation} (h : KeepsCases i j) :
    Continues i j where
  chronicled hi := hi.congr h.cases h.statuses
  kept := by simp [h.statuses]

theorem Installation.LooksUp.continues {i j : Installation} (h : LooksUp i j) :
    Continues i j where
  chronicled hi := by
    rw [h.store]
    exact hi
  kept := by simp [h.store]

theorem createCase_continues (applications : List Application) (freshId : String)
    (input : NewCase) : Moves Continues (createCase applications freshId input) := by
  refine (createCase_quiet applications freshId input).moves Installation.LooksUp.continues ?_
  intro c i z j hop
  obtain ⟨cases, hadd, hj, hlifecycle, hend, hmain⟩ := createCase_ok hop
  refine ⟨fun hi => ?_, ?_⟩
  · rw [hj]
    refine hi.createCase hadd hlifecycle hend fun hself => ?_
    exact (hmain z.id hself).1 rfl
  · simp [hj]

theorem apply_sameStanding (u : CaseUpdate) (z : CaseRecord) : z.SameStanding (u.apply z) :=
  ⟨rfl, rfl, rfl, rfl, rfl⟩

theorem updateCase_continues (applications : List Application) (id : String) (u : CaseUpdate) :
    Moves Continues (updateCase applications id u) := by
  refine (updateCase_quiet applications id u).moves Installation.LooksUp.continues ?_
  intro c i z j hop
  obtain ⟨before, hfound, rfl, hj⟩ := updateCase_ok hop
  have hbefore := Table.mem_of_get? hfound
  refine ⟨fun hi => ?_, ?_⟩
  · rw [hj]
    exact hi.updateCase ((hi.tells before hbefore).of_sameStanding (apply_sameStanding u before))
      (hi.apex before hbefore)
  · simp [hj, Store.updateCase]

theorem recordStatus_continues (applications : List Application) (id statusType : String)
    (setAt : Instant) : Moves Continues (recordStatus applications id statusType setAt) := by
  refine (recordStatus_quiet applications id statusType setAt).moves
    Installation.LooksUp.continues ?_
  intro c i r j hop
  obtain ⟨before, t, type, plan, s, _, _, hfound, hread, -, -, hplan, hcreate, hj⟩ :=
    recordStatus_ok hop
  refine ⟨fun hi => ?_, ?_⟩
  · rw [hj]
    exact hi.plan hfound hread (plan_follows hplan) hcreate
  · obtain ⟨rfl, -⟩ := Store.createStatus_ok hcreate
    obtain ⟨cases, hcases⟩ := Store.foldl_updateCase_eq plan.subCases _
    rw [hj, hcases]
    exact List.prefix_append _ _

theorem setResult_continues (applications : List Application) (id resultType : String) :
    Moves Continues (setResult applications id resultType) := by
  refine (setResult_quiet applications id resultType).moves Installation.LooksUp.continues ?_
  intro c i result j hop
  obtain ⟨before, -, -, hj⟩ := setResult_ok hop
  refine ⟨fun hi => ?_, ?_⟩
  · rw [hj]
    exact hi.congr rfl rfl
  · simp [hj, Store.saveResult]

theorem caseCommand_continues (command : CaseCommand) : Moves Continues command.run := by
  cases command with
  | create applications freshId input =>
      exact moves_forget (createCase_continues applications freshId input)
  | update applications id change =>
      exact moves_forget (updateCase_continues applications id change)
  | recordStatus applications id statusType setAt =>
      exact moves_forget (recordStatus_continues applications id statusType setAt)
  | setResult applications id resultType =>
      exact moves_forget (setResult_continues applications id resultType)
  | attach applications id attachment =>
      exact (authorizeAttachment_steady applications id attachment).looksUp.mono
        fun _ _ => Installation.LooksUp.continues

theorem step_continues {i j : Installation} (h : Step i j) : Continues i j := by
  cases h with
  | onCases command c => exact caseCommand_continues command c i
  | administration command c => exact (administration_keepsCases command c i).continues

theorem reaches_continues {i j : Installation} (h : Reaches i j) : Continues i j := by
  induction h with
  | refl => exact refl_of Continues i
  | tail _ hstep ih => exact trans_of Continues ih (step_continues hstep)

/-! ## Installations without cases -/

/-- Nothing is kept of cases, as before the first of them. -/
structure Store.WithoutCases (s : Store) : Prop where
  cases : s.cases.rows = []
  statuses : s.statuses.rows = []

theorem Store.WithoutCases.chronicled {s : Store} (h : s.WithoutCases) : s.Chronicled := by
  refine ⟨?_, ?_, .of_empty h.statuses, ?_, ?_⟩
  · rw [h.cases]
    exact fun z hz => by cases hz
  · rw [h.statuses]
    exact fun r hr => by cases hr
  · rw [h.statuses]
    exact List.Pairwise.nil
  · rw [h.cases]
    exact fun z hz => by cases hz

theorem Reachable.chronicled {i : Installation} (h : Reachable i) : i.store.Chronicled := by
  induction h with
  | start config =>
      obtain ⟨kept, hkept⟩ := seed_eq {} config.authn.secrets
      have hempty : (Installation.start config {}).store.WithoutCases := by
        rw [Installation.start, hkept]
        exact ⟨rfl, rfl⟩
      exact hempty.chronicled
  | restart config hprev ih =>
      next i =>
      obtain ⟨kept, hkept⟩ := seed_eq i.store config.authn.secrets
      rw [Installation.start, hkept]
      exact ih.congr rfl rfl
  | step _ hstep ih => exact (step_continues hstep).chronicled ih
  | lookup _ hm c ih => exact (hm c _).toLooksUp.continues.chronicled ih

/-- After any commands, the state and the end date of every case are what its statuses
say, and say the same of its being closed; statuses are numbered upwards, those of one
case have instants of their own, and whatever happens next, they stay as they are. -/
theorem case_state_is_history {i j : Installation} (h : i.store.WithoutCases)
    (hrun : Reaches i j) :
    (∀ z ∈ j.store.cases.rows,
      z.lifecycle = lifecycleAfter (j.store.recordedStatuses z.id) ∧
      z.endDate = endDateAfter (j.store.recordedStatuses z.id) ∧
      (z.lifecycle = .closed ↔ z.endDate.isSome = true)) ∧
    (j.store.statuses.rows.Pairwise fun q r => q.id < r.id) ∧
    (j.store.statuses.rows.Pairwise fun q r => q.caseId = r.caseId → q.setAt ≠ r.setAt) ∧
    ∀ k, Reaches j k → j.store.statuses.rows <+: k.store.statuses.rows := by
  have hj : j.store.Chronicled := (reaches_continues hrun).chronicled h.chronicled
  refine ⟨fun z hz => ?_, hj.numbered.rows, hj.apart, fun k hk => (reaches_continues hk).kept⟩
  have htells := hj.tells z hz
  refine ⟨htells.lifecycle, htells.endDate, ?_⟩
  rw [htells.lifecycle, htells.endDate]
  exact closed_iff_endDate _

/-- A type of case with a result and two statuses, the second of which closes a case. -/
def permit : TypeDefinition where
  reference := ⟨"permit"⟩
  component := .zrc
  catalog := none
  relations := {
    statusTypes := [⟨⟨"opened"⟩, 1, false⟩, ⟨⟨"done"⟩, 2, true⟩]
    resultTypes := [⟨⟨"granted"⟩, none, none, { method := .afgehandeld }⟩] }

def office : Installation where
  store := { types := ⟨[permit], by decide⟩ }

def clerk : Application := ⟨"clerk", "Clerk", {}, true⟩

/-- Midnight, a day after `Instant.epoch`. -/
def dayLater : Instant := (Instant.ofEpoch? 86400 0).getD Instant.epoch

/-- A permit that was asked for, granted and closed. -/
def grantedPermit : List CaseCommand := [
  .create [clerk] "permit-1" ⟨none, "permit", .openbaar, none, {}⟩,
  .recordStatus [clerk] "permit-1" "opened" Instant.epoch,
  .setResult [clerk] "permit-1" "granted",
  .recordStatus [clerk] "permit-1" "done" ((Instant.ofEpoch? 3600 0).getD Instant.epoch)]

theorem grantedPermit_history :
    office.store.WithoutCases ∧
      (CaseCommand.runAll grantedPermit Context.alone office).store.cases.rows.map (·.lifecycle) =
        [.closed] ∧
      ∀ z ∈ (CaseCommand.runAll grantedPermit Context.alone office).store.cases.rows,
        z.endDate.isSome = true := by
  have hstart : office.store.WithoutCases := ⟨rfl, rfl⟩
  have hclosed : (CaseCommand.runAll grantedPermit Context.alone office).store.cases.rows.map
      (·.lifecycle) = [.closed] := by decide +kernel
  refine ⟨hstart, hclosed, fun z hz => ?_⟩
  obtain ⟨hcases, -⟩ :=
    case_state_is_history hstart (reaches_runAll grantedPermit Context.alone office)
  refine (hcases z hz).2.2.1 ?_
  have hstate : z.lifecycle ∈
      (CaseCommand.runAll grantedPermit Context.alone office).store.cases.rows.map
        (·.lifecycle) := List.mem_map_of_mem hz
  rw [hclosed, List.mem_singleton] at hstate
  exact hstate

end CaseAccess
