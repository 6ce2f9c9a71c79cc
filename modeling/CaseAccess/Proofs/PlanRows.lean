import CaseAccess.Proofs.StatusPlan
import CaseAccess.Proofs.StatusVerdict

/-!
# The rows of a plan

A plan is written as one row after another: its status, its case, and the sub-cases that
get an archive date. No two of these are rows of one case, because the sub-cases were
read from the table below a case that is not its own main case. So a case that is looked
up afterwards is found as the plan has it, and every other one as it was.
-/

namespace CaseAccess

open Operation

/-! ## Rows written one after another -/

namespace Store

variable {s t : Store} {z : CaseRecord}

theorem case?_updateCase (s : Store) (z : CaseRecord) (id : String) :
    (s.updateCase z).case? id =
      if id = z.id then (s.case? id).map (fun _ => z) else s.case? id := by
  have hget : (s.updateCase z).case? id = (s.case? id).map (Table.instead CaseRecord.id z) :=
    Table.get?_replace s.cases z id
  rw [hget]
  cases hfound : s.case? id with
  | none => simp
  | some y =>
      have hy : y.id = id := Table.key_of_get? hfound
      rw [Option.map_some, Option.map_some, Table.instead, hy]
      split
      · rfl
      · rfl

/-- Cases that are there and are written one after another, each once. -/
theorem case?_foldl_updateCase {l : List CaseRecord} (hdistinct : (l.map (·.id)).Nodup)
    (hthere : ∀ y ∈ l, (s.case? y.id).isSome = true) (id : String) :
    (l.foldl (fun s z => s.updateCase z) s).case? id =
      (l.find? (·.id = id)).or (s.case? id) := by
  induction l generalizing s with
  | nil => rfl
  | cons y rest ih =>
      rw [List.map_cons, List.nodup_cons] at hdistinct
      have hy := hthere y List.mem_cons_self
      have hstill : ∀ x ∈ rest, ((s.updateCase y).case? x.id).isSome = true := by
        intro x hx
        have hne : x.id ≠ y.id := fun h => hdistinct.1 (h ▸ List.mem_map_of_mem hx)
        rw [case?_updateCase, if_neg hne]
        exact hthere x (List.mem_cons_of_mem _ hx)
      rw [List.foldl_cons, ih hdistinct.2 hstill, case?_updateCase, List.find?_cons]
      by_cases hid : id = y.id
      · subst hid
        have hnone : rest.find? (·.id = y.id) = none := by
          rw [List.find?_eq_none]
          intro x hx hxid
          rw [decide_eq_true_eq] at hxid
          exact hdistinct.1 (hxid ▸ List.mem_map_of_mem hx)
        obtain ⟨before, hbefore⟩ := Option.isSome_iff_exists.1 hy
        rw [hnone, if_pos rfl, hbefore]
        simp
      · have hne : y.id ≠ id := fun h => hid h.symm
        rw [if_neg hid]
        simp [hne]

theorem nodup_subCases (s : Store) (id : String) : ((s.subCases id).map (·.id)).Nodup := by
  have hperm : (s.subCases id).Perm (s.cases.rows.filter (·.mainCase = some id)) :=
    List.mergeSort_perm _ _
  rw [(hperm.map (·.id)).nodup_iff]
  exact s.cases.distinct.sublist (List.filter_sublist.map _)

theorem ids_foldl_updateCase (l : List CaseRecord) (s : Store) :
    (l.foldl (fun s z => s.updateCase z) s).cases.rows.map (·.id) = s.cases.rows.map (·.id) := by
  induction l generalizing s with
  | nil => rfl
  | cons z rest ih =>
      rw [List.foldl_cons, ih]
      exact Table.map_key_instead z s.cases.rows

end Store

/-! ## The sub-cases of a plan -/

/-- Of the parts that are given back, none is given back twice. -/
theorem sublist_of_mapM_ok {ε α β γ : Type} {f : α → Except ε (Option β)} {g : β → γ} {h : α → γ}
    (hf : ∀ a b, f a = .ok (some b) → g b = h a) {l : List α} {bs : List (Option β)}
    (hl : l.mapM f = .ok bs) : ((bs.filterMap id).map g).Sublist (l.map h) := by
  induction l generalizing bs with
  | nil =>
      cases hl
      exact List.Sublist.refl _
  | cons a rest ih =>
      rw [List.mapM_cons] at hl
      obtain ⟨b, ha, hl⟩ := except_of_bind_ok hl
      obtain ⟨bs', hrest, hl⟩ := except_of_bind_ok hl
      cases hl
      cases b with
      | none => exact (ih hrest).cons _
      | some b =>
          show ((b :: bs'.filterMap id).map g).Sublist _
          rw [List.map_cons, List.map_cons, hf a b ha]
          exact (ih hrest).cons_cons _

/-- What a plan makes of the sub-cases that were read. -/
structure TransitionPlan.Dates (plan : TransitionPlan) (t : StatusTransition) (isFinal : Bool) :
    Prop where
  /-- It is a sub-case as the archive has dated it. -/
  dated : ∀ y ∈ plan.subCases, isFinal = true ∧ ∃ sub ∈ t.subCases,
    sub.case.isClosed = true ∧ sub.archived? t.setAt.date = .ok (some y)
  /-- Each that waits gets its date. -/
  complete : isFinal = true → ∀ sub ∈ t.subCases, ∃ o, sub.archived? t.setAt.date = .ok o ∧
    ∀ y, o = some y → y ∈ plan.subCases
  once : (plan.subCases.map (·.id)).Sublist (t.subCases.map (·.case.id))

theorem plan_dates {t : StatusTransition} {isFinal : Bool} {plan : TransitionPlan}
    (h : (if isFinal then t.closing else .ok t.opening) = .ok plan) : plan.Dates t isFinal := by
  cases isFinal with
  | false =>
      obtain rfl : t.opening = plan := Except.ok.inj h
      have hnone : t.opening.subCases = [] := by
        rw [StatusTransition.opening]
        split
        · rfl
        · rfl
      refine ⟨?_, fun hfinal => (by cases hfinal), ?_⟩
      · rw [hnone]
        exact fun y hy => by cases hy
      · rw [hnone]
        exact List.nil_sublist _
  | true =>
      obtain ⟨⟨z, subs⟩, hclose, h⟩ := except_of_bind_ok (x := t.close) h
      cases h
      obtain ⟨result, -, hopen, -, found, hfound, rfl⟩ := close_ok hclose
      rw [openSubCase?_eq_none] at hopen
      refine ⟨fun y hy => ?_, fun _ sub hsub => ?_, ?_⟩
      · obtain ⟨o, ho, rfl⟩ := List.mem_filterMap.1 hy
        obtain ⟨sub, hsub, harchived⟩ := exists_of_mapM_ok hfound ho
        exact ⟨rfl, sub, hsub, (hopen sub hsub).1, harchived⟩
      · obtain ⟨o, ho, harchived⟩ := mem_of_mapM_ok hfound hsub
        exact ⟨o, harchived, fun y hy => List.mem_filterMap.2 ⟨o, ho, hy⟩⟩
      · exact sublist_of_mapM_ok (fun sub y hy => (archived?_sameStanding hy).id) hfound

/-! ## A plan in the store -/

section Written

variable {s s' : Store} {z : CaseRecord} {t : StatusTransition} {isFinal : Bool}
  {plan : TransitionPlan} {r : StatusRecord}

/-- The sub-cases that a plan writes are rows below its case, each another one. -/
theorem TransitionPlan.Dates.below (h : plan.Dates t isFinal) (hread : t.ReadFrom s z) :
    (plan.subCases.map (·.id)).Nodup ∧
      ∀ y ∈ plan.subCases, ∃ sub ∈ t.subCases, sub.archived? t.setAt.date = .ok (some y) ∧
        sub.case.isClosed = true ∧ sub.case.mainCase = some z.id ∧
        s.case? y.id = some sub.case := by
  have hids : t.subCases.map (·.case.id) = (s.subCases z.id).map (·.id) := by
    have hmap := congrArg (List.map fun p : CaseRecord × Bool => p.1.id) hread.subCases
    rw [List.map_map, List.map_map] at hmap
    exact hmap
  refine ⟨?_, fun y hy => ?_⟩
  · have honce := h.once
    rw [hids] at honce
    exact (s.nodup_subCases z.id).sublist honce
  · obtain ⟨-, sub, hsub, hclosed, harchived⟩ := h.dated y hy
    obtain ⟨hrow, hmain⟩ := Store.mem_subCases.1 (hread.case_mem_subCases hsub)
    refine ⟨sub, hsub, harchived, hclosed, hmain, ?_⟩
    rw [(archived?_sameStanding harchived).id]
    exact Table.get?_eq_some.2 ⟨hrow, rfl⟩

/-- The case itself is none of them. -/
theorem TransitionPlan.Dates.ne (h : plan.Dates t isFinal) (hread : t.ReadFrom s z)
    (hfound : s.case? z.id = some z) (hmain : z.mainCase ≠ some z.id) {y : CaseRecord}
    (hy : y ∈ plan.subCases) : y.id ≠ z.id := by
  intro hid
  obtain ⟨sub, -, -, -, hunder, hsub⟩ := (h.below hread).2 y hy
  rw [hid, hfound, Option.some.injEq] at hsub
  rw [← hsub] at hunder
  exact hmain hunder

variable (hread : t.ReadFrom s z) (hfound : s.case? z.id = some z)
  (hplan : (if isFinal then t.closing else .ok t.opening) = .ok plan)
  (hcreate : s.createStatus plan.status = .ok (r, s'))

include hread hfound hplan hcreate

/-- A case that is looked up after a plan was written. -/
theorem case?_written (hmain : z.mainCase ≠ some z.id) (id : String) :
    (plan.written s').case? id =
      if id = z.id then some plan.case
      else (plan.subCases.find? (·.id = id)).or (s.case? id) := by
  obtain ⟨hdistinct, hbelow⟩ := (plan_dates hplan).below hread
  have hid : plan.case.id = z.id := by rw [(plan_follows hplan).id, hread.case]
  obtain ⟨rfl, -⟩ := Store.createStatus_ok hcreate
  have hfirst : ∀ id, (({ s with statuses := s.statuses.add fun _ => s.keptStatus plan.status } :
      Store).updateCase plan.case).case? id = if id = z.id then some plan.case else s.case? id := by
    intro id
    rw [Store.case?_updateCase, hid]
    split
    · next h =>
        subst h
        show (s.case? z.id).map _ = _
        rw [hfound]
        rfl
    · rfl
  rw [TransitionPlan.written, Store.case?_foldl_updateCase hdistinct, hfirst]
  · split
    · next h =>
        have hnone : plan.subCases.find? (·.id = id) = none := by
          rw [List.find?_eq_none]
          intro y hy hyid
          rw [decide_eq_true_eq] at hyid
          exact (plan_dates hplan).ne hread hfound hmain hy (hyid.trans h)
        rw [hnone, Option.none_or]
    · rfl
  · intro y hy
    obtain ⟨sub, -, -, -, -, hsub⟩ := hbelow y hy
    rw [hfirst]
    split
    · rfl
    · rw [hsub]
      rfl

omit hread hfound hplan in
/-- Only cases and statuses are written, and no case is new. -/
theorem written_frame :
    plan.written s' =
        { s with cases := (plan.written s').cases, statuses := (plan.written s').statuses } ∧
      (plan.written s').statuses = (s.statuses.add fun _ => s.keptStatus plan.status) ∧
      (plan.written s').cases.rows.map (·.id) = s.cases.rows.map (·.id) := by
  obtain ⟨rfl, -⟩ := Store.createStatus_ok hcreate
  obtain ⟨cases, hcases⟩ := Store.foldl_updateCase_eq plan.subCases
    (({ s with statuses := s.statuses.add fun _ => s.keptStatus plan.status } : Store).updateCase
      plan.case)
  have hids := Store.ids_foldl_updateCase plan.subCases
    (({ s with statuses := s.statuses.add fun _ => s.keptStatus plan.status } : Store).updateCase
      plan.case)
  rw [TransitionPlan.written]
  refine ⟨?_, ?_, hids.trans (Table.map_key_instead plan.case s.cases.rows)⟩
  · rw [hcases]
    rfl
  · rw [hcases]
    rfl

end Written

theorem subCase_eq (c : Context) (i : Installation) (z : CaseRecord)
    (result : Option ResultRecord) :
    ((subCase c i z result).case, (subCase c i z result).hasResult) = (z, result.isSome) := by
  cases result with
  | none => rfl
  | some r =>
      rw [subCase]
      cases c.resolution i.store i.typeCache z.caseType .zrc with
      | ok d => rfl
      | error why => rfl

theorem subCase_case (c : Context) (i : Installation) (z : CaseRecord)
    (result : Option ResultRecord) : (subCase c i z result).case = z :=
  congrArg Prod.fst (subCase_eq c i z result)

/-- The transition of a caller that was admitted is read from the store. -/
theorem transition_readFrom {c : Context} {i : Installation} {z : CaseRecord}
    {required : ScopeSet} {d : TypeDefinition} {statusType : TypeRef} {setAt : Instant}
    {t : StatusTransition} (h : transition c i z required d statusType setAt = .ok t) :
    t.ReadFrom i.store z := by
  obtain ⟨statuses, hstatuses, h⟩ := except_of_bind_ok h
  cases h
  refine ⟨rfl, orFault_eq_ok.1 hstatuses, rfl, rfl, ?_⟩
  rw [List.map_map]
  exact List.map_congr_left fun sub _ => subCase_eq c i sub _

end CaseAccess
