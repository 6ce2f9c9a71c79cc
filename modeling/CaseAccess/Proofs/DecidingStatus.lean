import CaseAccess.Proofs.StatusReading

/-!
# The status that decides

Statuses may be recorded at any instants, in any order. The state of a case follows the
order in which they were recorded, and their list is in the order of their instants. So
the last of the list says whether the case is closed only where the two orders agree on
what comes last. What always says it is the status that was recorded last, the one with
the greatest number, and `last_recorded_status_decides` also says when the list ends
with that status: just when no other one was given a later instant.

A history that was written back shows the difference. A permit is closed, and then
opened again with a status of an earlier instant: it is open, and its list ends with the
final status.
-/

namespace CaseAccess

namespace Store

variable {s : Store} {id : String} {l : List StatusRecord} {r : StatusRecord}

/-- Of one case there is one status at an instant. -/
theorem Chronicled.eq_of_setAt (h : s.Chronicled) {q : StatusRecord}
    (hq : q ∈ s.recordedStatuses id) (hr : r ∈ s.recordedStatuses id)
    (hsame : q.setAt = r.setAt) : q = r := by
  have : Std.Symm fun q r : StatusRecord => q.setAt ≠ r.setAt := ⟨fun _ _ => Ne.symm⟩
  by_contra hne
  exact (apart_recordedStatuses h id).forall hq hr hne hsame

/-- The status that was recorded last has the greatest number. -/
theorem Chronicled.id_le_last (h : s.Chronicled)
    (hlast : (s.recordedStatuses id).getLast? = some r) :
    ∀ q ∈ s.recordedStatuses id, q.id ≤ r.id := by
  have hnumbered : (s.recordedStatuses id).Pairwise fun q r => q.id < r.id :=
    h.numbered.rows.filter _
  obtain ⟨earlier, hsplit⟩ := List.getLast?_eq_some_iff.1 hlast
  rw [hsplit, List.pairwise_append] at hnumbered
  intro q hq
  rw [hsplit] at hq
  rcases List.mem_append.1 hq with hq | hq
  · exact Nat.le_of_lt (hnumbered.2.2 q hq r (by simp))
  · rw [List.mem_singleton.1 hq]

/-- The list ends with a status of the latest instant. -/
theorem setAt_le_last (h : s.listStatuses id = .ok l) (hlast : l.getLast? = some r) :
    ∀ q ∈ s.recordedStatuses id, q.setAt ≤ r.setAt := by
  have hsorted := sorted_listStatuses h
  obtain ⟨earlier, rfl⟩ := List.getLast?_eq_some_iff.1 hlast
  intro q hq
  rcases List.mem_append.1 ((perm_listStatuses h).mem_iff.2 hq) with hq | hq
  · exact (List.pairwise_append.1 hsorted).2.2 q hq r (by simp)
  · rw [List.mem_singleton.1 hq]
    exact Instant.le_refl _

/-- The list ends with a given status just when no status has a later instant. -/
theorem Chronicled.getLast?_listStatuses (hs : s.Chronicled) (h : s.listStatuses id = .ok l)
    (hr : r ∈ s.recordedStatuses id) :
    l.getLast? = some r ↔ ∀ q ∈ s.recordedStatuses id, q.setAt ≤ r.setAt := by
  refine ⟨setAt_le_last h, fun hlatest => ?_⟩
  have hperm := perm_listStatuses h
  have hne : l ≠ [] := List.ne_nil_of_mem (hperm.mem_iff.2 hr)
  have hlast := List.getLast?_eq_some_getLast hne
  have hrow : l.getLast hne ∈ s.recordedStatuses id :=
    hperm.mem_iff.1 (List.getLast_mem hne)
  rw [hlast, hs.eq_of_setAt hrow hr
    (Instant.le_antisymm (hlatest _ hrow) (setAt_le_last h hlast r hr))]

/-- A case is closed just when the status that was recorded last is final. -/
theorem Tells.isClosed_iff {z : CaseRecord} (h : s.Tells z)
    (hlast : (s.recordedStatuses z.id).getLast? = some r) :
    z.isClosed = true ↔ r.isFinal = true := by
  obtain ⟨earlier, hsplit⟩ := List.getLast?_eq_some_iff.1 hlast
  rw [CaseRecord.isClosed, h.endDate, hsplit, endDateAfter_append]
  cases r.isFinal with
  | true => simp
  | false => simp

end Store

/-- After any commands, a case that has statuses is closed, by its end date and by its
state, just when the status that was recorded last is final. Where the statuses are
listed, the list ends with that status just when none was recorded at a later instant. -/
theorem last_recorded_status_decides {i j : Installation} (h : i.store.WithoutCases)
    (hrun : Reaches i j) {z : CaseRecord} (hz : z ∈ j.store.cases.rows)
    (hstatuses : j.store.recordedStatuses z.id ≠ []) :
    ∃ r, (j.store.recordedStatuses z.id).getLast? = some r ∧
      (∀ q ∈ j.store.recordedStatuses z.id, q.id ≤ r.id) ∧
      (z.isClosed = true ↔ r.isFinal = true) ∧
      (z.lifecycle = .closed ↔ r.isFinal = true) ∧
      ∀ listed, j.store.listStatuses z.id = .ok listed →
        (listed.getLast? = some r ↔ ∀ q ∈ listed, q.setAt ≤ r.setAt) := by
  have hj : j.store.Chronicled := (reaches_continues hrun).chronicled h.chronicled
  have hlast := List.getLast?_eq_some_getLast hstatuses
  have htells := hj.tells z hz
  have hclosed := htells.isClosed_iff hlast
  refine ⟨_, hlast, hj.id_le_last hlast, hclosed, ?_, fun listed hlisted => ?_⟩
  · rw [htells.lifecycle, closed_iff_endDate, ← htells.endDate]
    exact hclosed
  · rw [hj.getLast?_listStatuses hlisted (List.mem_of_getLast? hlast)]
    simp only [(Store.perm_listStatuses hlisted).mem_iff]

/-- A permit that was granted and closed, and then opened again with a status from an
hour before. -/
def backdatedPermit : List CaseCommand := [
  .create [clerk] "permit-1" ⟨none, "permit", .openbaar, none, {}⟩,
  .setResult [clerk] "permit-1" "granted",
  .recordStatus [clerk] "permit-1" "done" ((Instant.ofEpoch? 3600 0).getD Instant.epoch),
  .recordStatus [clerk] "permit-1" "opened" Instant.epoch]

theorem backdatedPermit_open : office.store.WithoutCases ∧
    ∃ z ∈ (CaseCommand.runAll backdatedPermit .alone office).store.cases.rows,
      z.isClosed = false ∧
      ∃ r, ((CaseCommand.runAll backdatedPermit .alone office).store.recordedStatuses
        z.id).getLast? = some r ∧ r.isFinal = false := by
  have hstart : office.store.WithoutCases := ⟨rfl, rfl⟩
  have hrow : ∃ z ∈ (CaseCommand.runAll backdatedPermit .alone office).store.cases.rows,
      z.isClosed = false ∧ (CaseCommand.runAll backdatedPermit .alone
        office).store.recordedStatuses z.id ≠ [] := by decide +kernel
  obtain ⟨z, hz, hopen, hstatuses⟩ := hrow
  obtain ⟨r, hlast, -, hclosed, -⟩ := last_recorded_status_decides hstart
    (reaches_runAll backdatedPermit .alone office) hz hstatuses
  refine ⟨hstart, z, hz, hopen, r, hlast, ?_⟩
  rw [← Bool.not_eq_true, ← hclosed, hopen]
  exact Bool.false_ne_true

/-- The permit is open, and its list of statuses ends with a final one. -/
theorem backdatedPermit_listed_closed : office.store.WithoutCases ∧
    Reaches office (CaseCommand.runAll backdatedPermit .alone office) ∧
    ∃ z ∈ (CaseCommand.runAll backdatedPermit .alone office).store.cases.rows,
      z.isClosed = false ∧ z.lifecycle = .reopened ∧
      ∃ listed r, (CaseCommand.runAll backdatedPermit .alone office).store.listStatuses z.id =
          .ok listed ∧ listed.getLast? = some r ∧ r.isFinal = true := by
  have hstart : office.store.WithoutCases := ⟨rfl, rfl⟩
  have hrun := reaches_runAll backdatedPermit .alone office
  have hchronicled := (reaches_continues hrun).chronicled hstart.chronicled
  refine ⟨hstart, hrun, ?_⟩
  generalize hj : CaseCommand.runAll backdatedPermit .alone office = j at hchronicled
  have hrow : ∃ z ∈ j.store.cases.rows, z.isClosed = false ∧ z.lifecycle = .reopened ∧
      (j.store.recordedStatuses z.id).all (·.setAt.isReadable) = true ∧
      ∃ r ∈ j.store.recordedStatuses z.id, r.isFinal = true ∧
        ∀ q ∈ j.store.recordedStatuses z.id, q.setAt ≤ r.setAt := by
    subst hj
    decide +kernel
  obtain ⟨z, hz, hopen, hreopened, hreadable, r, hr, hfinal, hlatest⟩ := hrow
  have hlisted : ∃ listed, j.store.listStatuses z.id = .ok listed := by
    rw [Store.listStatuses, if_pos hreadable]
    exact ⟨_, rfl⟩
  obtain ⟨listed, hlisted⟩ := hlisted
  exact ⟨z, hz, hopen, hreopened, listed, r, hlisted,
    (hchronicled.getLast?_listStatuses hlisted hr).2 hlatest, hfinal⟩

end CaseAccess
