import CaseAccess.Proofs.AdministrationFrame
import CaseAccess.Proofs.CaseHistory
import CaseAccess.Proofs.PlanRows

/-!
# A case keeps its place

A record of a case is written as a whole each time, by an update of the case, by a
status on it, and when the case that it belongs to is closed. Of what was in it before,
three things are still there: its id, its type and its main case. What it says of having
been suspended is never taken back either, and it says so as long as it is suspended.

That a main case is there and belongs to no other case is looked at only once, when a
case is created below it. It stays true because cases are not deleted and keep their
main case, or their not having one. So cases stand in two layers, and no chain of main
cases is longer than one link.

`Store.Evolves` is what a store of cases may come to: cases that were there are kept,
and one that was not is below a case that may be a main case. It can be followed through
any commands without knowing more of the store than that.
-/

namespace CaseAccess

open Operation
open Installation (LooksUp KeepsCases)

/-! ## Records of one case -/

/-- A case that is suspended says that it was suspended once. -/
def CaseRecord.Noted (z : CaseRecord) : Prop := z.suspended = true → z.everSuspended = true

/-- What a later record of a case keeps of an earlier one. -/
structure CaseRecord.Keeps (z z' : CaseRecord) : Prop where
  id : z'.id = z.id
  caseType : z'.caseType = z.caseType
  mainCase : z'.mainCase = z.mainCase
  everSuspended : z.everSuspended = true → z'.everSuspended = true
  noted : z.Noted → z'.Noted

namespace CaseRecord

instance : IsPreorder CaseRecord Keeps where
  refl _ := ⟨rfl, rfl, rfl, fun h => h, fun h => h⟩
  trans _ _ _ h₁ h₂ :=
    ⟨h₂.id.trans h₁.id, h₂.caseType.trans h₁.caseType, h₂.mainCase.trans h₁.mainCase,
      h₂.everSuspended ∘ h₁.everSuspended, h₂.noted ∘ h₁.noted⟩

/-- An update that suspends a case notes it, and lifting a suspension leaves the note. -/
theorem keeps_apply (u : CaseUpdate) (z : CaseRecord) : z.Keeps (u.apply z) := by
  refine ⟨rfl, rfl, rfl, fun hever => ?_, fun hnoted hsuspended => ?_⟩
  · rw [CaseUpdate.apply, hever, Bool.true_or]
  · rw [CaseUpdate.apply] at hsuspended ⊢
    rw [Bool.or_eq_true]
    cases hu : u.suspended with
    | none =>
        rw [hu] at hsuspended
        exact .inl (hnoted hsuspended)
    | some suspended =>
        rw [hu] at hsuspended
        exact .inr hsuspended

theorem keeps_archived {z z' : CaseRecord} {result : ResultType} {endDate : Date}
    {mainCaseEndDate : Option Date} (h : z.archived result endDate mainCaseEndDate = .ok z') :
    z.Keeps z' := by
  rw [(of_archived h).1]
  exact ⟨rfl, rfl, rfl, fun h => h, fun h => h⟩

end CaseRecord

theorem keeps_opening (t : StatusTransition) : t.case.Keeps t.opening.case := by
  rw [StatusTransition.opening]
  split
  · exact ⟨rfl, rfl, rfl, fun h => h, fun h => h⟩
  · exact ⟨rfl, rfl, rfl, fun h => h, fun h => h⟩

theorem keeps_close {t : StatusTransition} {z : CaseRecord} {subs : List CaseRecord}
    (h : t.close = .ok (z, subs)) :
    t.case.Keeps z ∧ ∀ y ∈ subs, ∃ sub ∈ t.subCases, sub.case.Keeps y := by
  obtain ⟨result, -, -, hz, found, hfound, rfl⟩ := close_ok h
  have hclosed : t.case.Keeps t.closed := ⟨rfl, rfl, rfl, fun h => h, fun h => h⟩
  refine ⟨?_, fun y hy => ?_⟩
  · rcases hz with ⟨-, rfl⟩ | ⟨r, -, harchived⟩
    · exact hclosed
    · exact trans_of CaseRecord.Keeps hclosed (CaseRecord.keeps_archived harchived)
  · obtain ⟨o, ho, rfl⟩ := List.mem_filterMap.1 hy
    obtain ⟨sub, hsub, hdated⟩ := exists_of_mapM_ok hfound ho
    obtain ⟨result, -, -, -, harchived⟩ := of_archived? hdated
    exact ⟨sub, hsub, CaseRecord.keeps_archived harchived⟩

/-- What a plan writes are later records of the cases that it was made for. -/
theorem keeps_plan {t : StatusTransition} {isFinal : Bool} {plan : TransitionPlan}
    (h : (if isFinal then t.closing else .ok t.opening) = .ok plan) :
    t.case.Keeps plan.case ∧ ∀ y ∈ plan.subCases, ∃ sub ∈ t.subCases, sub.case.Keeps y := by
  cases isFinal with
  | false =>
      have hnone := (plan_dates h).dated
      cases h
      exact ⟨keeps_opening t, fun y hy => by cases (hnone y hy).1⟩
  | true =>
      obtain ⟨⟨z, subs⟩, hclose, h⟩ := except_of_bind_ok (x := t.close) h
      cases h
      exact keeps_close hclose

/-! ## Stores of cases -/

namespace Store

variable {s t u : Store} {z : CaseRecord}

/-- The main case of a case is there, is another one, and has no main case itself. -/
def Linked (s : Store) (z : CaseRecord) : Prop :=
  ∀ mainId, z.mainCase = some mainId →
    mainId ≠ z.id ∧ ∃ main, s.case? mainId = some main ∧ main.mainCase = none

/-- The same cases, with later records of them. -/
def Rewrites (s t : Store) : Prop :=
  ∀ id, Option.Rel CaseRecord.Keeps (s.case? id) (t.case? id)

structure Evolves (s t : Store) : Prop where
  kept : ∀ id z, s.case? id = some z → ∃ z', t.case? id = some z' ∧ z.Keeps z'
  added : ∀ id z, s.case? id = none → t.case? id = some z → t.Linked z ∧ z.Noted

theorem Rewrites.congr (h : t.cases = s.cases) : s.Rewrites t := by
  intro id
  have hid : t.case? id = s.case? id := by rw [case?, case?, h]
  rw [hid]
  cases s.case? id with
  | none => exact .none
  | some z => exact .some (refl_of CaseRecord.Keeps z)

/-- One more case is written, as a later record of what it was at first. -/
theorem Rewrites.updateCase (h : s.Rewrites t) {before : CaseRecord}
    (hbefore : s.case? z.id = some before) (hz : before.Keeps z) :
    s.Rewrites (t.updateCase z) := by
  intro id
  rw [case?_updateCase]
  split
  · next hid =>
      subst hid
      have hthere := h z.id
      rw [hbefore] at hthere ⊢
      generalize t.case? z.id = o at hthere
      cases hthere
      exact .some hz
  · exact h id

theorem Rewrites.foldl_updateCase (h : s.Rewrites t) {l : List CaseRecord}
    (hl : ∀ z ∈ l, ∃ before, s.case? z.id = some before ∧ before.Keeps z) :
    s.Rewrites (l.foldl (fun s z => s.updateCase z) t) := by
  induction l generalizing t with
  | nil => exact h
  | cons z rest ih =>
      obtain ⟨before, hbefore, hz⟩ := hl z List.mem_cons_self
      exact ih (h.updateCase hbefore hz) fun y hy => hl y (List.mem_cons_of_mem _ hy)

theorem Rewrites.evolves (h : s.Rewrites t) : s.Evolves t := by
  refine ⟨fun id z hz => ?_, fun id z hnone hz => ?_⟩
  · have hid := h id
    rw [hz] at hid
    generalize t.case? id = o at hid ⊢
    cases hid with
    | some hkeeps => exact ⟨_, rfl, hkeeps⟩
  · have hid := h id
    rw [hnone, hz] at hid
    cases hid

/-- A link holds on: the case above is kept, and keeps having no main case. -/
theorem Linked.evolves (hz : s.Linked z) (h : s.Evolves t) : t.Linked z := by
  intro mainId hmain
  obtain ⟨hne, main, hfound, hnone⟩ := hz mainId hmain
  obtain ⟨main', hfound', hkeeps⟩ := h.kept mainId main hfound
  refine ⟨hne, main', hfound', ?_⟩
  rw [hkeeps.mainCase]
  exact hnone

theorem Linked.keeps {z' : CaseRecord} (hz : s.Linked z) (h : z.Keeps z') : s.Linked z' := by
  intro mainId hmain
  rw [h.mainCase] at hmain
  rw [h.id]
  exact hz mainId hmain

theorem Evolves.trans (h₁ : s.Evolves t) (h₂ : t.Evolves u) : s.Evolves u := by
  refine ⟨fun id z hz => ?_, fun id z hnone hz => ?_⟩
  · obtain ⟨z₁, hz₁, hkeeps₁⟩ := h₁.kept id z hz
    obtain ⟨z₂, hz₂, hkeeps₂⟩ := h₂.kept id z₁ hz₁
    exact ⟨z₂, hz₂, trans_of CaseRecord.Keeps hkeeps₁ hkeeps₂⟩
  · cases hmiddle : t.case? id with
    | none => exact h₂.added id z hmiddle hz
    | some y =>
        obtain ⟨hlinked, hnoted⟩ := h₁.added id y hnone hmiddle
        obtain ⟨y', hy', hkeeps⟩ := h₂.kept id y hmiddle
        rw [hz] at hy'
        cases hy'
        exact ⟨(hlinked.evolves h₂).keeps hkeeps, hkeeps.noted hnoted⟩

theorem Evolves.createCase {cases : Table CaseRecord.id} (hadd : s.cases.add? z = some cases)
    (hlinked : s.Linked z) (hnoted : z.Noted) : s.Evolves { s with cases := cases } := by
  have hget : ∀ id, ({ s with cases := cases } : Store).case? id =
      if z.id = id then some z else s.case? id := Table.get?_add? hadd
  have hfree : s.case? z.id = none := Table.get?_of_add? hadd
  have hkept : ∀ id y, s.case? id = some y →
      ({ s with cases := cases } : Store).case? id = some y := by
    intro id y hy
    rw [hget, if_neg, hy]
    rintro rfl
    rw [hfree] at hy
    cases hy
  refine ⟨fun id y hy => ⟨y, hkept id y hy, refl_of CaseRecord.Keeps y⟩, fun id y hnone hy => ?_⟩
  rw [hget] at hy
  split at hy
  · cases hy
    refine ⟨fun mainId hmain => ?_, hnoted⟩
    obtain ⟨hne, main, hfound, hnone⟩ := hlinked mainId hmain
    exact ⟨hne, main, hkept mainId main hfound, hnone⟩
  · rw [hnone] at hy
    cases hy

/-- What a plan writes are later records, of the case and of cases below it. -/
theorem evolves_plan {tr : StatusTransition} {isFinal : Bool} {plan : TransitionPlan}
    {r : StatusRecord} {id : String} (hfound : s.case? id = some z) (hread : tr.ReadFrom s z)
    (hplan : (if isFinal then tr.closing else .ok tr.opening) = .ok plan)
    (hcreate : s.createStatus plan.status = .ok (r, t)) :
    s.Evolves (plan.subCases.foldl (fun s z => s.updateCase z) (t.updateCase plan.case)) := by
  obtain ⟨hcase, hsubs⟩ := keeps_plan hplan
  rw [hread.case] at hcase
  have hthere : ∀ {y y' : CaseRecord}, y ∈ s.cases.rows → y.Keeps y' → s.case? y'.id = some y := by
    intro y y' hy hkeeps
    rw [hkeeps.id]
    exact Table.get?_eq_some.2 ⟨hy, rfl⟩
  have hrow : z ∈ s.cases.rows := Table.mem_of_get? hfound
  obtain ⟨rfl, -⟩ := createStatus_ok hcreate
  have hsame : s.Rewrites { s with statuses := s.statuses.add fun _ => s.keptStatus plan.status } :=
    .congr rfl
  refine ((hsame.updateCase (hthere hrow hcase) hcase).foldl_updateCase fun y hy => ?_).evolves
  obtain ⟨sub, hsub, hkeeps⟩ := hsubs y hy
  have hbelow := (mem_subCases.1 (hread.case_mem_subCases hsub)).1
  exact ⟨sub.case, hthere hbelow hkeeps, hkeeps⟩

end Store

/-! ## Commands -/

/-- What the store of cases may come to. -/
def Installation.Evolves (i j : Installation) : Prop := i.store.Evolves j.store

open Installation (Evolves)

instance : IsPreorder Installation Evolves where
  refl _ := (Store.Rewrites.congr rfl).evolves
  trans _ _ _ h₁ h₂ := Store.Evolves.trans h₁ h₂

theorem Installation.LooksUp.evolves {i j : Installation} (h : LooksUp i j) : Evolves i j :=
  (Store.Rewrites.congr (congrArg Store.cases h.store)).evolves

theorem Installation.KeepsCases.evolves {i j : Installation} (h : KeepsCases i j) : Evolves i j :=
  (Store.Rewrites.congr h.cases).evolves

/-- A new case is not suspended. -/
theorem createCase_unsuspended {applications : List Application} {freshId : String}
    {input : NewCase} {c : Context} {i j : Installation} {z : CaseRecord}
    (h : createCase applications freshId input c i = (.ok z, j)) : z.suspended = false := by
  obtain ⟨ctx, i₁, -, h⟩ := of_bind_ok h
  obtain ⟨caseType, i₂, -, h⟩ := of_bind_ok h
  obtain ⟨_, i₃, -, h⟩ := of_bind_ok h
  obtain ⟨_, i₄, -, h⟩ := of_bind_ok h
  obtain ⟨main, i₅, -, h⟩ := of_bind_ok h
  obtain ⟨_, i₆, -, h⟩ := of_bind_ok h
  obtain ⟨_, i₇, -, h⟩ := of_bind_ok h
  cases h
  rfl

section Commands

variable (applications : List Application)

theorem createCase_evolves (freshId : String) (input : NewCase) :
    Moves Evolves (createCase applications freshId input) := by
  refine (createCase_quiet applications freshId input).moves Installation.LooksUp.evolves ?_
  intro c i z j hop
  obtain ⟨cases, hadd, hj, -, -, hmain⟩ := createCase_ok hop
  have hnew := createCase_unsuspended hop
  rw [Evolves, hj]
  refine .createCase hadd hmain fun hsuspended => ?_
  rw [hnew] at hsuspended
  cases hsuspended

theorem updateCase_evolves (id : String) (u : CaseUpdate) :
    Moves Evolves (updateCase applications id u) := by
  refine (updateCase_quiet applications id u).moves Installation.LooksUp.evolves ?_
  intro c i z j hop
  obtain ⟨before, hfound, rfl, hj⟩ := updateCase_ok hop
  have hkeeps := CaseRecord.keeps_apply u before
  have hsame : i.store.Rewrites i.store := .congr rfl
  rw [Evolves, hj]
  refine (hsame.updateCase ?_ hkeeps).evolves
  rw [hkeeps.id]
  exact Table.get?_eq_some.2 ⟨Table.mem_of_get? hfound, rfl⟩

theorem recordStatus_evolves (id statusType : String) (setAt : Instant) :
    Moves Evolves (recordStatus applications id statusType setAt) := by
  refine (recordStatus_quiet applications id statusType setAt).moves
    Installation.LooksUp.evolves ?_
  intro c i r j hop
  obtain ⟨before, t, type, plan, s, _, _, hfound, hread, -, -, hplan, hcreate, hj⟩ :=
    recordStatus_ok hop
  rw [Evolves, hj]
  exact Store.evolves_plan hfound hread hplan hcreate

theorem setResult_evolves (id resultType : String) :
    Moves Evolves (setResult applications id resultType) := by
  refine (setResult_quiet applications id resultType).moves Installation.LooksUp.evolves ?_
  intro c i result j hop
  obtain ⟨before, -, -, hj⟩ := setResult_ok hop
  have hsame : i.store.Rewrites (i.store.saveResult result) := .congr rfl
  rw [Evolves, hj]
  exact hsame.evolves

end Commands

theorem caseCommand_evolves (command : CaseCommand) : Moves Evolves command.run := by
  cases command with
  | create applications freshId input =>
      exact moves_forget (createCase_evolves applications freshId input)
  | update applications id change => exact moves_forget (updateCase_evolves applications id change)
  | recordStatus applications id statusType setAt =>
      exact moves_forget (recordStatus_evolves applications id statusType setAt)
  | setResult applications id resultType =>
      exact moves_forget (setResult_evolves applications id resultType)
  | attach applications id attachment =>
      exact (authorizeAttachment_steady applications id attachment).looksUp.mono
        fun _ _ => Installation.LooksUp.evolves

theorem step_evolves {i j : Installation} (h : Step i j) : Evolves i j := by
  cases h with
  | onCases command c => exact caseCommand_evolves command c i
  | administration command c => exact (administration_keepsCases command c i).evolves

theorem reaches_evolves {i j : Installation} (h : Reaches i j) : Evolves i j := by
  induction h with
  | refl => exact refl_of Evolves i
  | tail _ hstep ih => exact trans_of Evolves ih (step_evolves hstep)

/-! ## Two layers of cases -/

/-- The case with the id `id` has the main case `mainId`. -/
def Store.Below (s : Store) (id mainId : String) : Prop :=
  ∃ z ∈ s.cases.rows, z.id = id ∧ z.mainCase = some mainId

/-- From a store without cases, after any commands: the main case of a case is another
case that is there and has no main case, so that nothing is a main case and a sub-case,
and main cases do not lead back to where they start; a case that is suspended says that
it ever was. Whatever happens next, every case stays, with its type and its main case,
and does not forget that it was suspended. -/
theorem cases_keep_their_place {i j : Installation} (hstart : i.store.cases.rows = [])
    (hrun : Reaches i j) :
    (∀ z ∈ j.store.cases.rows, ∀ mainId, z.mainCase = some mainId →
      mainId ≠ z.id ∧ ∃ main ∈ j.store.cases.rows, main.id = mainId ∧ main.mainCase = none) ∧
    (∀ id mainId, j.store.Below id mainId → ∀ sub, ¬ j.store.Below sub id) ∧
    (∀ id, ¬ Relation.TransGen j.store.Below id id) ∧
    (∀ z ∈ j.store.cases.rows, z.suspended = true → z.everSuspended = true) ∧
    ∀ k, Reaches j k → ∀ z ∈ j.store.cases.rows, ∃ z' ∈ k.store.cases.rows,
      z'.id = z.id ∧ z'.caseType = z.caseType ∧ z'.mainCase = z.mainCase ∧
        (z.everSuspended = true → z'.everSuspended = true) := by
  have hevolves : i.store.Evolves j.store := reaches_evolves hrun
  have hfound : ∀ {z : CaseRecord}, z ∈ j.store.cases.rows → j.store.case? z.id = some z :=
    fun hz => Table.get?_eq_some.2 ⟨hz, rfl⟩
  have hnew : ∀ z ∈ j.store.cases.rows, j.store.Linked z ∧ z.Noted := by
    intro z hz
    have hnone : i.store.case? z.id = none := by
      rw [Store.case?, Table.get?_eq_none, hstart]
      exact List.not_mem_nil
    exact hevolves.added z.id z hnone (hfound hz)
  have hapart : ∀ id mainId, j.store.Below id mainId → ∀ sub, ¬ j.store.Below sub id := by
    rintro _ mainId ⟨z, hz, rfl, hmain⟩ sub ⟨y, hy, -, hbelow⟩
    obtain ⟨-, main, hthere, hnone⟩ := (hnew y hy).1 z.id hbelow
    rw [hfound hz] at hthere
    cases hthere
    rw [hmain] at hnone
    cases hnone
  refine ⟨fun z hz mainId hmain => ?_, hapart, fun id hcycle => ?_, fun z hz => (hnew z hz).2,
    fun k hk z hz => ?_⟩
  · obtain ⟨hne, main, hthere, hnone⟩ := (hnew z hz).1 mainId hmain
    exact ⟨hne, main, Table.mem_of_get? hthere, Table.key_of_get? hthere, hnone⟩
  · obtain ⟨mainId, habove, -⟩ := Relation.TransGen.head'_iff.1 hcycle
    obtain ⟨sub, -, hbelow⟩ := Relation.TransGen.tail'_iff.1 hcycle
    exact hapart id mainId habove sub hbelow
  · obtain ⟨z', hthere, hkeeps⟩ := (reaches_evolves hk).kept z.id z (hfound hz)
    exact ⟨z', Table.mem_of_get? hthere, hkeeps.id, hkeeps.caseType, hkeeps.mainCase,
      hkeeps.everSuspended⟩

/-- A permit below another one. The upper one is suspended, and then taken up again. -/
def resumedPermits : List CaseCommand := [
  .create [clerk] "permit-1" ⟨none, "permit", .openbaar, none, {}⟩,
  .create [clerk] "permit-2" ⟨none, "permit", .openbaar, some "permit-1", {}⟩,
  .update [clerk] "permit-1" { suspended := some true },
  .update [clerk] "permit-1" { suspended := some false }]

theorem resumedPermits_keep_their_place :
    office.store.cases.rows = [] ∧
      (CaseCommand.runAll resumedPermits Context.alone office).store.cases.rows.map
        (fun z => (z.id, z.mainCase, z.suspended, z.everSuspended)) =
          [("permit-1", none, false, true), ("permit-2", some "permit-1", false, false)] ∧
      ∀ k, Reaches (CaseCommand.runAll resumedPermits Context.alone office) k →
        ∃ z ∈ k.store.cases.rows, z.id = "permit-1" ∧ z.mainCase = none ∧
          z.everSuspended = true := by
  have hrows : (CaseCommand.runAll resumedPermits Context.alone office).store.cases.rows.map
      (fun z => (z.id, z.mainCase, z.suspended, z.everSuspended)) =
        [("permit-1", none, false, true), ("permit-2", some "permit-1", false, false)] := by
    decide +kernel
  refine ⟨rfl, hrows, fun k hk => ?_⟩
  obtain ⟨-, -, -, -, hstay⟩ :=
    cases_keep_their_place (i := office) rfl (reaches_runAll resumedPermits Context.alone office)
  have hmem : ("permit-1", (none : Option String), false, true) ∈
      (CaseCommand.runAll resumedPermits Context.alone office).store.cases.rows.map
        (fun z => (z.id, z.mainCase, z.suspended, z.everSuspended)) := by
    rw [hrows]
    exact List.mem_cons_self
  obtain ⟨z, hz, heq⟩ := List.mem_map.1 hmem
  simp only [Prod.mk.injEq] at heq
  obtain ⟨hid, hmain, -, hever⟩ := heq
  obtain ⟨z', hz', hid', -, hmain', hever'⟩ := hstay k hk z hz
  exact ⟨z', hz', hid'.trans hid, hmain'.trans hmain, hever' hever⟩

end CaseAccess
