import CaseAccess.Case.Writing
import CaseAccess.Proofs.Lookup

/-!
# Before a case is written

Every operation on a case begins by looking up: it authorizes the caller, asks the
guard, resolves types and reads the rows that decide. All of that goes along
`LooksUp`, so the store is still the one that was found when the operation begins to
write, and what was read earlier still stands in it.

This file shows it for each of the parts, and says what the parts give back when they
end well.
-/

namespace CaseAccess

open Operation
open Installation (Steady)

section Access

variable (applications : List Application)

theorem authorize_steady (z : CaseRecord) (scopes : ScopeSet) (level : Confidentiality) :
    MovesIn Steady (z.authorize applications scopes level) :=
  check_steady _ _

theorem holds_steady (z : CaseRecord) (scope : String) :
    MovesIn Steady (z.holds applications scope) :=
  allow_steady _ _

/-! ## Guards

The guard asks through `holds`; it looks up when `holds` does. -/

theorem holdsAny_steady {holds : String → Operation Bool} (h : ∀ s, MovesIn Steady (holds s))
    (scopes : List String) : MovesIn Steady (holdsAny holds scopes) := by
  induction scopes with
  | nil => exact steady_pure _
  | cons scope rest ih =>
      rw [holdsAny]
      refine movesIn_bind (h scope) fun held => ?_
      split
      · exact steady_pure _
      · exact ih

theorem checkWrite_steady {holds : String → Operation Bool} (h : ∀ s, MovesIn Steady (holds s))
    (z : CaseRecord) (config : GuardConfig) (required : ScopeSet) :
    MovesIn Steady (z.checkWrite holds config required) := by
  rw [CaseRecord.checkWrite]
  split
  · exact steady_pure _
  · refine movesIn_bind (holdsAny_steady h _) fun held => ?_
    split
    · exact steady_pure _
    · exact steady_pure _

theorem checkState_steady {holds : String → Operation Bool} (h : ∀ s, MovesIn Steady (holds s))
    (t : StatusTransition) (config : GuardConfig) (isFinal : Bool) :
    MovesIn Steady (t.checkState holds config isFinal) := by
  rw [StatusTransition.checkState]
  split
  · split
    · exact steady_pure _
    · refine movesIn_bind (h _) fun held => ?_
      split
      · exact steady_pure _
      · exact steady_pure _
  · exact checkWrite_steady h _ _ _

theorem checkStatusScope_steady {holds : String → Operation Bool}
    (h : ∀ s, MovesIn Steady (holds s)) (t : StatusTransition) (config : GuardConfig)
    (isFinal : Bool) : MovesIn Steady (t.checkStatusScope holds config isFinal) := by
  rw [StatusTransition.checkStatusScope]
  split
  · exact steady_pure _
  · split
    · exact steady_pure _
    · refine movesIn_bind (holdsAny_steady h _) fun held => ?_
      split
      · exact steady_pure _
      · exact steady_pure _

theorem decideStatus_steady {holds : String → Operation Bool} (h : ∀ s, MovesIn Steady (holds s))
    (t : StatusTransition) (config : GuardConfig) : MovesIn Steady (t.decide holds config) := by
  rw [StatusTransition.decide]
  split
  · exact steady_pure _
  · split
    · exact steady_pure _
    · refine movesIn_bind (checkState_steady h _ _ _) fun denial => ?_
      split
      · exact steady_pure _
      · refine movesIn_bind (checkStatusScope_steady h _ _ _) fun denial => ?_
        split
        · exact steady_pure _
        · exact steady_pure _

theorem guardWrite_steady (z : CaseRecord) (required : ScopeSet) :
    MovesIn Steady (z.guardWrite applications required) := by
  refine movesIn_bind steady_context fun c => ?_
  refine movesIn_bind (checkWrite_steady (holds_steady applications z) _ _ _) fun denial => ?_
  split
  · exact steady_fail _
  · exact steady_pure _

/-! ## Cases and types -/

theorem loadCase_steady (id : String) (scopes : ScopeSet) :
    MovesIn Steady (loadCase applications id scopes) := by
  refine movesIn_bind (steady_reading _) fun found => ?_
  split
  · exact steady_pure _
  · exact movesIn_bind (check_steady _ _) fun _ => steady_fail _

theorem openCase_steady (id : String) (required : ScopeSet) :
    MovesIn Steady (openCase applications id required) := by
  refine movesIn_bind (loadCase_steady applications id required) fun z => ?_
  refine movesIn_bind (authorize_steady applications z _ _) fun _ => ?_
  exact movesIn_bind (guardWrite_steady applications z required) fun _ => steady_pure _

theorem authorizeAny_steady (z : CaseRecord) (candidates : List ScopeSet) :
    MovesIn Steady (z.authorizeAny applications candidates) := by
  have hgo : ∀ (first : Option ApiError) (l : List ScopeSet),
      MovesIn Steady (CaseRecord.authorizeAny.go z applications first l) := by
    intro first l
    induction l generalizing first with
    | nil => exact steady_fail _
    | cons scopes rest ih =>
        refine movesIn_bind (movesIn_attempt (authorize_steady applications z _ _)) fun answer => ?_
        split
        · exact steady_pure _
        · exact ih _
  exact hgo none candidates

theorem resolveCaseType_steady (reference : TypeRef) :
    MovesIn Steady (resolveCaseType reference) := by
  refine movesIn_bind (resolveType_steady _ _) fun resolution => ?_
  split
  · exact steady_pure _
  · split
    · exact steady_fail _
    · exact steady_fail _

theorem readReference_steady (field text : String) : MovesIn Steady (readReference field text) := by
  refine movesIn_bind steady_context fun c => ?_
  split
  · exact steady_pure _
  · exact steady_fail _

theorem readSubCase_steady (z : CaseRecord) (result : Option ResultRecord) :
    MovesIn Steady (readSubCase z result) := by
  cases result with
  | none => exact steady_pure _
  | some r =>
      refine movesIn_bind (resolveType_steady _ _) fun resolution => ?_
      split
      · exact steady_pure _
      · exact steady_pure _

theorem readTransition_steady (z : CaseRecord) (required : ScopeSet) (caseType : TypeDefinition)
    (statusType : TypeRef) (setAt : Instant) :
    MovesIn Steady (readTransition z required caseType statusType setAt) := by
  refine movesIn_bind (.of_moves fun _ => moves_readingOr _) fun statuses => ?_
  refine movesIn_bind (steady_reading _) fun result => ?_
  refine movesIn_bind (steady_reading _) fun mainCase => ?_
  refine movesIn_bind (steady_reading _) fun subs => ?_
  refine movesIn_bind (movesIn_mapM (fun sub => ?_) _) fun _ => steady_pure _
  exact readSubCase_steady sub.1 sub.2

theorem checkMainCase_steady (required : ScopeSet) (id mainId : String) :
    MovesIn Steady (checkMainCase applications required id mainId) := by
  refine movesIn_bind (steady_reading _) fun found => ?_
  split
  · exact steady_fail _
  · next main =>
      refine movesIn_refusal ?_
      exact movesIn_bind (guardWrite_steady applications main required) fun _ => steady_pure _

theorem checkMainCases_steady (required : ScopeSet) (id : String) (mainId : Option String) :
    MovesIn Steady (mainId.mapM (checkMainCase applications required id)) :=
  movesIn_optionMapM (checkMainCase_steady applications required id) mainId

theorem checkLevel_steady (u : CaseUpdate) (z : CaseRecord) :
    MovesIn Steady (u.checkLevel applications z) := by
  rw [CaseUpdate.checkLevel]
  split
  · split
    · exact steady_pure _
    · exact authorize_steady applications z _ _
  · exact steady_pure _

end Access

/-! ## What the parts give back -/

section Values

variable {applications : List Application} {c : Context} {i j : Installation} {z : CaseRecord}

theorem loadCase_ok {id : String} {scopes : ScopeSet}
    (h : loadCase applications id scopes c i = (.ok z, j)) : i.store.case? id = some z := by
  obtain ⟨found, i₁, hread, h⟩ := of_bind_ok h
  cases found with
  | some z' =>
      cases h
      exact (of_reading_ok hread).1
  | none =>
      obtain ⟨_, _, _, h⟩ := of_bind_ok h
      cases h

theorem openCase_ok {id : String} {required : ScopeSet}
    (h : openCase applications id required c i = (.ok z, j)) : i.store.case? id = some z := by
  obtain ⟨z', i₁, hload, h⟩ := of_bind_ok h
  obtain ⟨_, i₂, _, h⟩ := of_bind_ok h
  obtain ⟨_, i₃, _, h⟩ := of_bind_ok h
  cases h
  exact loadCase_ok hload

/-- A main case is there, has no main case itself, and is not the new case. -/
theorem checkMainCase_ok {required : ScopeSet} {id mainId : String}
    (h : checkMainCase applications required id mainId c i = (.ok z, j)) :
    i.store.case? mainId = some z ∧ z.mainCase = none ∧ z.id ≠ id := by
  obtain ⟨found, i₁, hread, h⟩ := of_bind_ok h
  cases found with
  | none => cases h
  | some main =>
      have hmain := (of_reading_ok hread).1
      obtain ⟨hfree, h⟩ := of_refusal_ok h
      obtain ⟨_, _, _, h⟩ := of_bind_ok h
      cases h
      simp only [Bool.or_eq_true, decide_eq_true_eq, not_or, Bool.not_eq_true,
        Option.isSome_eq_false_iff, Option.isNone_iff_eq_none] at hfree
      exact ⟨hmain, hfree.1, hfree.2⟩

theorem readSubCase_ok {result : Option ResultRecord} {sub : SubCase}
    (h : readSubCase z result c i = (.ok sub, j)) :
    (sub.case, sub.hasResult) = (z, result.isSome) := by
  cases result with
  | none =>
      cases h
      rfl
  | some r =>
      obtain ⟨resolution, i₁, _, h⟩ := of_bind_ok h
      cases resolution with
      | ok d =>
          cases h
          rfl
      | error why =>
          cases h
          rfl

/-- A transition that was read from a store for a case. -/
structure StatusTransition.ReadFrom (t : StatusTransition) (s : Store) (z : CaseRecord) :
    Prop where
  case : t.case = z
  statuses : s.listStatuses z.id = .ok t.statuses
  result : t.result = (s.result? z.id).map (·.resultType)
  mainCase : t.mainCase = z.mainCase >>= s.case?
  subCases : t.subCases.map (fun sub => (sub.case, sub.hasResult)) =
    (s.subCases z.id).map fun sub => (sub, (s.result? sub.id).isSome)

namespace StatusTransition.ReadFrom

variable {t : StatusTransition} {s : Store}

/-- A sub-case that was read is a row below the case. -/
theorem case_mem_subCases (h : t.ReadFrom s z) {sub : SubCase} (hsub : sub ∈ t.subCases) :
    sub.case ∈ s.subCases z.id := by
  have hmem : (sub.case, sub.hasResult) ∈ t.subCases.map fun sub => (sub.case, sub.hasResult) :=
    List.mem_map_of_mem (f := fun sub : SubCase => (sub.case, sub.hasResult)) hsub
  rw [h.subCases] at hmem
  obtain ⟨row, hrow, heq⟩ := List.mem_map.1 hmem
  obtain rfl : row = sub.case := congrArg Prod.fst heq
  exact hrow

/-- Every row below the case was read, and whether it has a result. -/
theorem exists_subCase (h : t.ReadFrom s z) {y : CaseRecord} (hy : y ∈ s.subCases z.id) :
    ∃ sub ∈ t.subCases, sub.case = y ∧ sub.hasResult = (s.result? y.id).isSome := by
  have hmem : (y, (s.result? y.id).isSome) ∈
      (s.subCases z.id).map fun sub => (sub, (s.result? sub.id).isSome) :=
    List.mem_map_of_mem (f := fun sub : CaseRecord => (sub, (s.result? sub.id).isSome)) hy
  rw [← h.subCases] at hmem
  obtain ⟨sub, hsub, heq⟩ := List.mem_map.1 hmem
  exact ⟨sub, hsub, congrArg Prod.fst heq, congrArg Prod.snd heq⟩

end StatusTransition.ReadFrom

theorem readTransition_ok {required : ScopeSet} {caseType : TypeDefinition}
    {statusType : TypeRef} {setAt : Instant} {t : StatusTransition}
    (h : readTransition z required caseType statusType setAt c i = (.ok t, j)) :
    t.ReadFrom i.store z ∧ t.required = required ∧ t.caseType = caseType ∧
      t.statusType = statusType ∧ t.setAt = setAt := by
  obtain ⟨statuses, i₁, hstatuses, h⟩ := of_bind_ok h
  obtain ⟨result, i₂, hresult, h⟩ := of_bind_ok h
  obtain ⟨mainCase, i₃, hmain, h⟩ := of_bind_ok h
  obtain ⟨subs, i₄, hsubs, h⟩ := of_bind_ok h
  obtain ⟨subCases, i₅, hread, h⟩ := of_bind_ok h
  cases h
  obtain ⟨hlist, rfl⟩ := of_readingOr_ok hstatuses
  obtain ⟨rfl, rfl⟩ := of_reading_ok hresult
  obtain ⟨rfl, rfl⟩ := of_reading_ok hmain
  obtain ⟨rfl, rfl⟩ := of_reading_ok hsubs
  refine ⟨⟨rfl, hlist, rfl, rfl, ?_⟩, rfl, rfl, rfl, rfl⟩
  have hmap := map_of_mapM_ok (g := fun sub : SubCase => (sub.case, sub.hasResult))
    (h := fun p : CaseRecord × Option ResultRecord => (p.1, p.2.isSome))
    (fun _ _ _ _ _ hsub => readSubCase_ok hsub) hread
  rw [hmap, List.map_map]
  rfl

/-- A status that may be recorded passed the guard, and what it writes depends on
whether its type is final. -/
theorem decideStatus_ok {t : StatusTransition} {holds : String → Operation Bool}
    {config : GuardConfig} {plan : TransitionPlan}
    (h : t.decide holds config c i = (.ok (.ok plan), j)) :
    ∃ statusType i₁, t.caseType.statusType? t.statusType = some statusType ∧
      t.checkState holds config statusType.isFinal c i = (.ok none, i₁) ∧
      (if statusType.isFinal then t.closing else .ok t.opening) = .ok plan := by
  rw [StatusTransition.decide] at h
  cases hstatus : t.caseType.statusType? t.statusType with
  | none =>
      rw [hstatus] at h
      cases h
  | some statusType =>
      rw [hstatus] at h
      simp only at h
      split at h
      · cases h
      · obtain ⟨denial, i₁, hstate, h⟩ := of_bind_ok h
        cases denial with
        | some denial => cases h
        | none =>
            refine ⟨statusType, i₁, rfl, hstate, ?_⟩
            obtain ⟨denial, i₂, _, h⟩ := of_bind_ok h
            cases denial with
            | some denial => cases h
            | none => exact Except.ok.inj (congrArg Prod.fst h)

/-- A case is reopened only while its main case is open. -/
theorem checkState_ok {t : StatusTransition} {holds : String → Operation Bool}
    {config : GuardConfig} (h : t.checkState holds config false c i = (.ok none, j))
    (hclosed : t.case.isClosed = true) : t.mainCase.any (·.isClosed) = false := by
  rw [StatusTransition.checkState, hclosed, Bool.not_false, Bool.and_self, if_pos rfl] at h
  split at h
  · cases h
  · next hmain => exact Bool.eq_false_iff.2 hmain

end Values

end CaseAccess
