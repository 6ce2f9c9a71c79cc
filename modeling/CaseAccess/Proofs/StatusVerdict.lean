import CaseAccess.Proofs.CaseChange
import CaseAccess.Proofs.Verdict

/-!
# What recording a status comes to

Recording a status is an operation, because grants come through a cache and types may
come from other catalogs. What it ends with depends on less: on the store, on what types
resolve to, and on what the caller has on the case. This file writes that down as a
function that fails or gives a plan, the status as it is given back, and the store
after it, and shows that the operation computes it from any installation whose grant
cache agrees with its store.

The two sides are put together in the same way, so the comparison goes through the
operation from its beginning to the plan. `Ends` is what is compared: at every moment at
which things have only been looked up, a part of the operation ends as its function
says and looks things up itself. After the plan nothing is asked any more.
-/

namespace CaseAccess

open Operation
open Installation (Steady)

namespace Operation

variable {α β : Type} {c : Context} {i : Installation}

/-- As long as things are only looked up, the operation ends so and looks things up. -/
def Ends (c : Context) (i : Installation) (m : Operation α) (x : Except ApiError α) : Prop :=
  ∀ j, Steady c i j → ∃ k, Steady c i k ∧ m c j = (x, k)

theorem Ends.of_steady {m : Operation α} {x : Except ApiError α} (hm : MovesIn Steady m)
    (h : ∀ j, Steady c i j → (m c j).1 = x) : Ends c i m x := by
  intro j hj
  refine ⟨(m c j).2, trans_of (Steady c) hj (hm c j), ?_⟩
  exact Prod.ext (h j hj) rfl

theorem Ends.of_same {m : Operation α} {x : Except ApiError α}
    (h : ∀ j, Steady c i j → m c j = (x, j)) : Ends c i m x :=
  fun j hj => ⟨j, hj, h j hj⟩

theorem ends_pure (a : α) : Ends c i (pure a) (.ok a) := .of_same fun _ _ => rfl

theorem ends_fail (e : ApiError) : Ends c i (fail e : Operation α) (.error e) :=
  .of_same fun _ _ => rfl

theorem ends_ofExcept (x : Except ApiError α) : Ends c i (ofExcept x) x := by
  cases x with
  | ok a => exact ends_pure a
  | error e => exact ends_fail e

theorem ends_reading (f : Store → α) : Ends c i (reading f) (.ok (f i.store)) := by
  refine .of_same fun j hj => ?_
  rw [reading, hj.store]

/-- What a function of the store gives, or the error that the store is at fault. -/
def orFault (x : Except StoreFault α) : Except ApiError α :=
  match x with
  | .ok a => .ok a
  | .error _ => .error .serverFault

theorem orFault_eq_ok {x : Except StoreFault α} {a : α} : orFault x = .ok a ↔ x = .ok a := by
  cases x with
  | ok b => simp [orFault]
  | error e => simp [orFault]

theorem ends_readingOr (f : Store → Except StoreFault α) :
    Ends c i (readingOr f) (orFault (f i.store)) := by
  refine .of_same fun j hj => ?_
  rw [readingOr, hj.store]
  cases f i.store with
  | ok a => rfl
  | error e => rfl

theorem Ends.bind {m : Operation α} {f : α → Operation β} {x : Except ApiError α}
    {g : α → Except ApiError β} (hm : Ends c i m x)
    (hf : ∀ a, x = .ok a → Ends c i (f a) (g a)) : Ends c i (m >>= f) (x >>= g) := by
  intro j hj
  obtain ⟨k, hk, hmk⟩ := hm j hj
  rw [bind_apply, hmk]
  cases x with
  | error e => exact ⟨k, hk, rfl⟩
  | ok a => exact hf a rfl k hk

/-- The case of a first step that ends well. -/
theorem Ends.bind_ok {m : Operation α} {f : α → Operation β} {a : α} {x : Except ApiError β}
    (hm : Ends c i m (.ok a)) (hf : Ends c i (f a) x) : Ends c i (m >>= f) x := by
  intro j hj
  obtain ⟨k, hk, hmk⟩ := hm j hj
  rw [bind_of_ok hmk]
  exact hf k hk

theorem Ends.attempt {m : Operation α} {x : Except ApiError α} (hm : Ends c i m x) :
    Ends c i (attempt m) (.ok x) := by
  intro j hj
  obtain ⟨k, hk, hmk⟩ := hm j hj
  refine ⟨k, hk, ?_⟩
  rw [Operation.attempt, hmk]

theorem ends_mapM {f : α → Operation β} {g : α → β} (hf : ∀ a, Ends c i (f a) (.ok (g a)))
    (l : List α) : Ends c i (l.mapM f) (.ok (l.map g)) := by
  induction l with
  | nil => exact ends_pure []
  | cons a rest ih =>
      rw [List.mapM_cons]
      exact (hf a).bind_ok (ih.bind_ok (ends_pure _))

end Operation

/-! ## The guard with its answers at hand -/

section Guard

variable (has : String → Bool) (config : GuardConfig)

/-- The denial of a write that takes `required`. -/
def CaseRecord.writeDenial? (z : CaseRecord) (required : ScopeSet) : Option GuardDenial :=
  if z.isClosed && !(config.bypassScopes required).any has then some .caseClosed else none

namespace StatusTransition

/-- The denial on account of the state of the case. -/
def stateDenial? (t : StatusTransition) (isFinal : Bool) : Option GuardDenial :=
  if t.case.isClosed && !isFinal then
    if t.mainCase.any (·.isClosed) then some .mainCaseClosed
    else if has config.reopenScope then none
    else some (.reopenForbidden config.reopenScope)
  else t.case.writeDenial? has config t.required

/-- The denial of a second status without the scope for it. -/
def scopeDenial? (t : StatusTransition) (isFinal : Bool) : Option GuardDenial :=
  config.statusScope.bind fun scope =>
    if t.statuses = [] || (t.case.isClosed && !isFinal) || has scope || has config.reopenScope
    then none else some .statusScopeMissing

/-- Whether the status may be recorded, and what is then to be written. -/
def plan (t : StatusTransition) : Except GuardDenial TransitionPlan :=
  match t.caseType.statusType? t.statusType with
  | none => .error (.statusTypeMismatch t.statusType)
  | some statusType =>
      if t.statuses.any (·.setAt = t.setAt) then .error (.duplicateStatus t.setAt)
      else
        match (t.stateDenial? has config statusType.isFinal).or
            (t.scopeDenial? has config statusType.isFinal) with
        | some denial => .error denial
        | none => if statusType.isFinal then t.closing else .ok t.opening

end StatusTransition

end Guard

/-! ## What the caller has -/

section Parts

variable (applications : List Application) (c : Context) (i : Installation)

/-- The decision on scopes that a caller asks for on a case, at a level. -/
def CaseRecord.decision (z : CaseRecord) (scopes : ScopeSet) (level : Confidentiality) : Decision :=
  (z.request scopes level).verdict applications i.store (c.resolution i.store i.typeCache)

/-- Whether the caller has scopes on a case. -/
def CaseRecord.has (z : CaseRecord) (scopes : ScopeSet) : Bool :=
  (z.decision applications c i scopes z.confidentiality).isAllowed

def CaseRecord.hasScope (z : CaseRecord) (scope : String) : Bool :=
  z.has applications c i (ScopeSet.single scope)

/-- The error that the caller is told of scopes that it has not. -/
def CaseRecord.refusal? (z : CaseRecord) (scopes : ScopeSet) : Option ApiError :=
  (z.decision applications c i scopes z.confidentiality).denial?.map (·.toApiError)

/-- The first of the sets that the caller has, or the error of the first. -/
def CaseRecord.admission (z : CaseRecord) (candidates : List ScopeSet) :
    Except ApiError ScopeSet :=
  match candidates.find? (z.has applications c i) with
  | some scopes => .ok scopes
  | none =>
      .error ((candidates.findSome? (z.refusal? applications c i)).getD .permissionDenied)

/-! ## The transition -/

/-- The case with that id, or the error that the caller is told. -/
def foundCase (id : String) (scopes : ScopeSet) : Except ApiError CaseRecord :=
  match i.store.case? id with
  | some z => .ok z
  | none => do
      let request : AccessRequest := { component := some .zrc, scopes := scopes }
      (request.verdict applications i.store (c.resolution i.store i.typeCache)).toResult
      throw (noCase id)

/-- The reference that a field writes. -/
def readText (field text : String) : Except ApiError TypeRef :=
  match c.bases.read text with
  | .ok r => .ok r
  | .error e => .error (.invalidParam field "bad-url" e.message)

/-- The definition of the type of a case. -/
def caseType (reference : TypeRef) : Except ApiError TypeDefinition :=
  match c.resolution i.store i.typeCache reference .zrc with
  | .ok d => .ok d
  | .error why =>
      if why.isTransient then
        .error (.catalogUnavailable s!"cannot resolve case type {reference}: {why}")
      else .error (.invalidParam "zaaktype" "invalid-resource" s!"case type {reference}: {why}")

/-- A sub-case with the type of its result. -/
def subCase (z : CaseRecord) (result : Option ResultRecord) : SubCase :=
  match result with
  | none => ⟨z, false, none⟩
  | some r =>
      match c.resolution i.store i.typeCache z.caseType .zrc with
      | .ok d => ⟨z, true, d.resultType? r.resultType⟩
      | .error _ => ⟨z, true, none⟩

/-- What decides about a status on a case, if its statuses can be read. -/
def transition (z : CaseRecord) (required : ScopeSet) (d : TypeDefinition) (statusType : TypeRef)
    (setAt : Instant) : Except ApiError StatusTransition := do
  let statuses ← orFault (i.store.listStatuses z.id)
  return {
    case := z
    required := required
    caseType := d
    statusType := statusType
    setAt := setAt
    statuses := statuses
    result := (i.store.result? z.id).map (·.resultType)
    mainCase := z.mainCase >>= i.store.case?
    subCases := (i.store.subCases z.id).map fun sub => subCase c i sub (i.store.result? sub.id) }

/-- The plan of a transition for this caller. -/
def StatusTransition.verdict (t : StatusTransition) : Except ApiError TransitionPlan :=
  match t.plan (t.case.hasScope applications c i) c.settings.guard with
  | .ok plan => .ok plan
  | .error denial => .error denial.toApiError

/-- The plan of a status, or the error that the caller is told. -/
def statusPlan (id statusType : String) (setAt : Instant) : Except ApiError TransitionPlan := do
  let z ← foundCase applications c i id updateScopes
  let required ← z.admission applications c i (statusScopes c.settings)
  let statusType ← readText c "statustype" statusType
  let d ← caseType c i z.caseType
  let t ← transition c i z required d statusType setAt
  t.verdict applications c i

end Parts

/-- The store in which a plan was written, after its status. -/
def TransitionPlan.written (plan : TransitionPlan) (s : Store) : Store :=
  plan.subCases.foldl (fun s z => s.updateCase z) (s.updateCase plan.case)

/-- The announcements of a plan whose status got a number. -/
def TransitionPlan.notices (plan : TransitionPlan) (c : Context) (number : Nat) :
    List Notification :=
  let notice := Notification.ofCase c.settings.publicBaseUrl c.now
  [notice plan.case (some ⟨"status", s!"statussen/{number}"⟩) .create,
    notice plan.case none .update] ++ plan.subCases.map (notice · none .update)

/-- What recording a status gives: the plan, the status and the store after it. -/
def statusOutcome (applications : List Application) (c : Context) (i : Installation)
    (id statusType : String) (setAt : Instant) :
    Except ApiError (TransitionPlan × StatusRecord × Store) := do
  let plan ← statusPlan applications c i id statusType setAt
  let (r, s) ← orFault (i.store.createStatus plan.status)
  return (plan, r, plan.written s)

/-- Recording a status up to its plan. -/
def planStatus (applications : List Application) (id statusType : String) (setAt : Instant) :
    Operation TransitionPlan := do
  let ctx ← context
  let z ← loadCase applications id updateScopes
  let required ← z.authorizeAny applications (statusScopes ctx.settings)
  let statusType ← readReference "statustype" statusType
  let d ← resolveCaseType z.caseType
  let t ← readTransition z required d statusType setAt
  match ← t.decide (z.holds applications) ctx.settings.guard with
  | .error denial => fail denial.toApiError
  | .ok plan => return plan

/-- What follows the plan. -/
def carryOut (plan : TransitionPlan) : Operation StatusRecord := do
  let created ← plan.store
  announceCase plan.case (some ⟨"status", s!"statussen/{created.id}"⟩) .create
  announceCase plan.case none .update
  plan.subCases.forM fun sub => announceCase sub none .update
  return created

/-! ## The operation computes it -/

section Computes

variable {applications : List Application} {c : Context} {i : Installation}

section Types

theorem ends_readText (field text : String) :
    Ends c i (readReference field text) (readText c field text) := by
  refine .of_same fun j _ => ?_
  rw [readReference, bind_context, readText]
  cases c.bases.read text with
  | ok r => rfl
  | error e => rfl

theorem ends_resolveType (reference : TypeRef) (component : Component) :
    Ends c i (resolveType reference component)
      (.ok (c.resolution i.store i.typeCache reference component)) := by
  refine .of_steady (resolveType_steady reference component) fun j hj => ?_
  rw [resolveType_eq_ok, hj.resolution_eq]

theorem ends_caseType (reference : TypeRef) :
    Ends c i (resolveCaseType reference) (caseType c i reference) := by
  refine (ends_resolveType reference .zrc).bind_ok ?_
  rw [caseType]
  cases c.resolution i.store i.typeCache reference .zrc with
  | ok d => exact ends_pure d
  | error why =>
      simp only
      split
      · exact ends_fail _
      · exact ends_fail _

theorem ends_subCase (z : CaseRecord) (result : Option ResultRecord) :
    Ends c i (readSubCase z result) (.ok (subCase c i z result)) := by
  cases result with
  | none => exact ends_pure _
  | some r =>
      refine (ends_resolveType z.caseType .zrc).bind_ok ?_
      rw [subCase]
      cases c.resolution i.store i.typeCache z.caseType .zrc with
      | ok d => exact ends_pure _
      | error why => exact ends_pure _

theorem ends_transition (z : CaseRecord) (required : ScopeSet) (d : TypeDefinition)
    (statusType : TypeRef) (setAt : Instant) :
    Ends c i (readTransition z required d statusType setAt)
      (transition c i z required d statusType setAt) := by
  refine (ends_readingOr (·.listStatuses z.id)).bind fun statuses _ => ?_
  refine (ends_reading _).bind_ok ((ends_reading _).bind_ok ((ends_reading _).bind_ok ?_))
  refine (ends_mapM (g := fun p => subCase c i p.1 p.2) (fun p => ends_subCase p.1 p.2) _).bind_ok
    ?_
  rw [List.map_map]
  exact ends_pure _

end Types

/-! ### The guard -/

section Guard

variable {holds : String → Operation Bool} {has : String → Bool}
  (hholds : ∀ scope, Ends c i (holds scope) (.ok (has scope)))

include hholds

theorem ends_holdsAny (scopes : List String) :
    Ends c i (holdsAny holds scopes) (.ok (scopes.any has)) := by
  induction scopes with
  | nil => exact ends_pure false
  | cons scope rest ih =>
      rw [holdsAny, List.any_cons]
      refine (hholds scope).bind_ok ?_
      cases has scope with
      | true => exact ends_pure true
      | false => exact ih

theorem ends_checkWrite (z : CaseRecord) (config : GuardConfig) (required : ScopeSet) :
    Ends c i (z.checkWrite holds config required) (.ok (z.writeDenial? has config required)) := by
  rw [CaseRecord.checkWrite, CaseRecord.writeDenial?]
  cases z.isClosed with
  | false => exact ends_pure none
  | true =>
      refine (ends_holdsAny hholds _).bind_ok ?_
      cases (config.bypassScopes required).any has with
      | true => exact ends_pure none
      | false => exact ends_pure _

theorem ends_checkState (t : StatusTransition) (config : GuardConfig) (isFinal : Bool) :
    Ends c i (t.checkState holds config isFinal) (.ok (t.stateDenial? has config isFinal)) := by
  rw [StatusTransition.checkState, StatusTransition.stateDenial?]
  split
  · split
    · exact ends_pure _
    · refine (hholds _).bind_ok ?_
      cases has config.reopenScope with
      | true => exact ends_pure none
      | false => exact ends_pure _
  · exact ends_checkWrite hholds _ _ _

theorem ends_checkStatusScope (t : StatusTransition) (config : GuardConfig) (isFinal : Bool) :
    Ends c i (t.checkStatusScope holds config isFinal)
      (.ok (t.scopeDenial? has config isFinal)) := by
  rw [StatusTransition.checkStatusScope, StatusTransition.scopeDenial?]
  cases config.statusScope with
  | none => exact ends_pure none
  | some scope =>
      rw [Option.bind_some]
      cases (t.statuses = [] || (t.case.isClosed && !isFinal) : Bool) with
      | true => exact ends_pure none
      | false =>
          refine (ends_holdsAny hholds _).bind_ok ?_
          rw [List.any_cons, List.any_cons, List.any_nil, Bool.or_false, Bool.false_or]
          cases has scope || has config.reopenScope with
          | true => exact ends_pure none
          | false => exact ends_pure _

theorem ends_decideStatus (t : StatusTransition) (config : GuardConfig) :
    Ends c i (t.decide holds config) (.ok (t.plan has config)) := by
  rw [StatusTransition.decide, StatusTransition.plan]
  cases t.caseType.statusType? t.statusType with
  | none => exact ends_pure _
  | some statusType =>
      simp only
      split
      · exact ends_pure _
      · refine (ends_checkState hholds t config _).bind_ok ?_
        cases t.stateDenial? has config statusType.isFinal with
        | some denial => exact ends_pure _
        | none =>
            refine (ends_checkStatusScope hholds t config _).bind_ok ?_
            cases t.scopeDenial? has config statusType.isFinal with
            | some denial => exact ends_pure _
            | none => exact ends_pure _

end Guard

/-! ### Permission -/

variable (hi : i.grantCache.Agrees i.store)

include hi

theorem ends_verdict (r : AccessRequest) :
    Ends c i (r.decide applications)
      (.ok (r.verdict applications i.store (c.resolution i.store i.typeCache))) := by
  refine .of_steady (decide_steady r applications) fun j hj => ?_
  rw [decide_eq_verdict (hj.agrees hi), hj.resolution_eq, hj.store]

theorem ends_check (r : AccessRequest) :
    Ends c i (r.check applications)
      (r.verdict applications i.store (c.resolution i.store i.typeCache)).toResult :=
  (ends_verdict hi r).bind_ok (ends_ofExcept _)

theorem ends_holds (z : CaseRecord) (scope : String) :
    Ends c i (z.holds applications scope) (.ok (z.hasScope applications c i scope)) :=
  (ends_verdict hi _).bind_ok (ends_pure _)

theorem ends_foundCase (id : String) (scopes : ScopeSet) :
    Ends c i (loadCase applications id scopes) (foundCase applications c i id scopes) := by
  refine (ends_reading (·.case? id)).bind_ok ?_
  rw [foundCase]
  cases i.store.case? id with
  | some z => exact ends_pure z
  | none => exact (ends_check hi _).bind fun _ _ => ends_fail _

theorem ends_admission (z : CaseRecord) (candidates : List ScopeSet) :
    Ends c i (z.authorizeAny applications candidates)
      (z.admission applications c i candidates) := by
  have hgo : ∀ (first : Option ApiError) (l : List ScopeSet),
      Ends c i (CaseRecord.authorizeAny.go z applications first l)
        (match l.find? (z.has applications c i) with
          | some scopes => .ok scopes
          | none => .error
              ((first.or (l.findSome? (z.refusal? applications c i))).getD .permissionDenied)) := by
    intro first l
    induction l generalizing first with
    | nil =>
        rw [List.findSome?_nil, Option.or_none]
        exact ends_fail _
    | cons scopes rest ih =>
        refine (ends_check hi _).attempt.bind_ok ?_
        rw [List.find?_cons, List.findSome?_cons, CaseRecord.has, CaseRecord.refusal?,
          CaseRecord.decision]
        cases (z.request scopes z.confidentiality).verdict applications i.store
            (c.resolution i.store i.typeCache) with
        | allow => exact ends_pure scopes
        | deny reason =>
            have hrest := ih (first.or (some reason.toApiError))
            rw [Option.or_assoc] at hrest
            exact hrest
  exact hgo none candidates

/-! ### The whole

Recording a status is a plan and then its writing, so the comparison can stop at the
plan. -/

omit hi in
theorem recordStatus_eq_bind (id statusType : String) (setAt : Instant) :
    recordStatus applications id statusType setAt =
      planStatus applications id statusType setAt >>= carryOut := by
  simp only [recordStatus, planStatus, bind_assoc]
  congr! 14 with ctx z required reference d t decision
  cases decision with
  | error denial => rfl
  | ok plan => rfl

theorem ends_statusPlan (id statusType : String) (setAt : Instant) :
    Ends c i (planStatus applications id statusType setAt)
      (statusPlan applications c i id statusType setAt) := by
  refine Ends.bind_ok (a := c) (.of_same fun _ _ => rfl) ?_
  refine (ends_foundCase hi id updateScopes).bind fun z _ => ?_
  refine (ends_admission hi z _).bind fun required _ => ?_
  refine (ends_readText _ _).bind fun reference _ => ?_
  refine (ends_caseType _).bind fun d _ => ?_
  refine (ends_transition z required d reference setAt).bind fun t ht => ?_
  obtain ⟨statuses, -, hcase⟩ := except_of_bind_ok ht
  obtain rfl : t.case = z := by
    cases hcase
    rfl
  refine (ends_decideStatus (ends_holds hi t.case) t _).bind_ok ?_
  rw [StatusTransition.verdict]
  cases t.plan (t.case.hasScope applications c i) c.settings.guard with
  | error denial => exact ends_fail _
  | ok plan => exact ends_pure _

omit hi in
theorem announcements (subs : List CaseRecord) (j : Installation) :
    (subs.forM fun sub => announceCase sub none .update) c j =
      (.ok (), { j with
        outbox := j.outbox ++
          subs.map (Notification.ofCase c.settings.publicBaseUrl c.now · none .update) }) := by
  induction subs generalizing j with
  | nil =>
      rw [List.map_nil, List.append_nil]
      rfl
  | cons sub rest ih =>
      show (announceCase sub none .update >>= fun _ => rest.forM _) c j = _
      rw [bind_of_ok (j := { j with outbox := j.outbox ++
        [Notification.ofCase c.settings.publicBaseUrl c.now sub none .update] }) rfl, ih,
        List.map_cons]
      simp only [List.append_assoc, List.singleton_append]

omit hi in
theorem store_eq (plan : TransitionPlan) (j : Installation) :
    plan.store c j =
      match j.store.createStatus plan.status with
      | .error _ => (.error .serverFault, j)
      | .ok (r, s) => (.ok r, { j with store := plan.written s }) := by
  have hfirst : changingWithOr (·.createStatus plan.status) c j =
      match j.store.createStatus plan.status with
      | .error _ => (.error .serverFault, j)
      | .ok (r, s) => (.ok r, { j with store := s }) := by
    rw [changingWithOr]
    cases j.store.createStatus plan.status with
    | error fault => rfl
    | ok created => rfl
  rw [TransitionPlan.store, transaction, bind_apply, hfirst]
  cases j.store.createStatus plan.status with
  | error fault => rfl
  | ok created =>
      have hsubs := forM_changing (fun z s => s.updateCase z) plan.subCases c
        { j with store := created.2.updateCase plan.case }
      simp only
      rw [bind_of_ok (m := changing (·.updateCase plan.case)) rfl, bind_of_ok hsubs]
      rfl

omit hi in
/-- A plan is carried out, or the store is as it was. -/
theorem carryOut_eq (plan : TransitionPlan) (j : Installation) :
    carryOut plan c j =
      match j.store.createStatus plan.status with
      | .error _ => (.error .serverFault, j)
      | .ok (r, s) =>
          (.ok r, { j with
            store := plan.written s
            outbox := j.outbox ++ plan.notices c r.id }) := by
  rw [carryOut, bind_apply, store_eq]
  cases j.store.createStatus plan.status with
  | error fault => rfl
  | ok created =>
      simp only
      rw [bind_of_ok (m := announceCase plan.case _ .create) rfl,
        bind_of_ok (m := announceCase plan.case none .update) rfl,
        bind_of_ok (announcements plan.subCases _)]
      show (Except.ok created.1, _) = _
      simp only [TransitionPlan.notices, List.append_assoc, List.cons_append, List.nil_append]

/-- Recording a status looks things up, and then ends as its outcome says: with the
error, or with the status, the store in which the plan was written, and the
announcements of the plan. -/
theorem recordStatus_eq (id statusType : String) (setAt : Instant) :
    ∃ j, Steady c i j ∧ recordStatus applications id statusType setAt c i =
      match statusOutcome applications c i id statusType setAt with
      | .error e => (.error e, j)
      | .ok (plan, r, s) =>
          (.ok r, { j with store := s, outbox := i.outbox ++ plan.notices c r.id }) := by
  obtain ⟨j, hj, hplan⟩ := ends_statusPlan hi id statusType setAt i (refl_of (Steady c) i)
  refine ⟨j, hj, ?_⟩
  rw [recordStatus_eq_bind, bind_apply, hplan, statusOutcome]
  cases statusPlan applications c i id statusType setAt with
  | error e => rfl
  | ok plan =>
      simp only
      rw [carryOut_eq, hj.store, hj.outbox, except_ok_bind]
      cases i.store.createStatus plan.status with
      | error fault => rfl
      | ok created => rfl

theorem recordStatus_fst (id statusType : String) (setAt : Instant) :
    (recordStatus applications id statusType setAt c i).1 =
      (statusOutcome applications c i id statusType setAt).map (·.2.1) := by
  obtain ⟨j, -, hj⟩ := @recordStatus_eq applications c i hi id statusType setAt
  rw [hj]
  cases statusOutcome applications c i id statusType setAt with
  | error e => rfl
  | ok outcome => rfl

theorem recordStatus_outcome {id statusType : String} {setAt : Instant} {r : StatusRecord}
    {k : Installation} (h : recordStatus applications id statusType setAt c i = (.ok r, k)) :
    ∃ plan, statusOutcome applications c i id statusType setAt = .ok (plan, r, k.store) ∧
      k.outbox = i.outbox ++ plan.notices c r.id := by
  obtain ⟨j, -, hj⟩ := @recordStatus_eq applications c i hi id statusType setAt
  rw [hj] at h
  cases hout : statusOutcome applications c i id statusType setAt with
  | error e =>
      rw [hout] at h
      cases h
  | ok outcome =>
      rw [hout] at h
      cases h
      exact ⟨outcome.1, rfl, rfl⟩

end Computes

/-! ## Admission

Up to the transition a caller is turned away with an error of its own making, whatever
instant it asks for, or it is admitted. -/

/-- A caller is admitted to recording a status: what was found, by which scopes it was
admitted, and what its text and the type of the case came to. -/
structure StatusAdmission (applications : List Application) (c : Context) (i : Installation)
    (id statusType : String) (z : CaseRecord) (required : ScopeSet) (reference : TypeRef)
    (d : TypeDefinition) : Prop where
  found : i.store.case? id = some z
  admitted : (statusScopes c.settings).find? (z.has applications c i) = some required
  read : c.bases.read statusType = .ok reference
  resolved : c.resolution i.store i.typeCache z.caseType .zrc = .ok d

theorem DenyReason.kind_toApiError (reason : DenyReason) :
    reason.toApiError.kind ≠ .internalError := by
  cases reason <;> simp [toApiError, ApiError.permissionDenied, ApiError.plain,
    ApiError.catalogUnavailable]

theorem GuardDenial.kind_toApiError (denial : GuardDenial) :
    denial.toApiError.kind ≠ .internalError := by
  cases denial <;> simp [toApiError, ApiError.typeMismatch, ApiError.conflict,
    ApiError.invalidParam, ApiError.invalid]

section Admission

variable {applications : List Application} {c : Context} {i : Installation}
  {id statusType : String} {z : CaseRecord} {required : ScopeSet} {reference : TypeRef}
  {d : TypeDefinition}

theorem StatusAdmission.statusPlan_eq
    (h : StatusAdmission applications c i id statusType z required reference d)
    (setAt : Instant) :
    statusPlan applications c i id statusType setAt =
      transition c i z required d reference setAt >>= (·.verdict applications c i) := by
  rw [statusPlan, foundCase, h.found, except_ok_bind, CaseRecord.admission, h.admitted,
    except_ok_bind, readText, h.read, except_ok_bind, caseType, h.resolved, except_ok_bind]

theorem kind_of_refusal? {scopes : ScopeSet} {e : ApiError}
    (h : z.refusal? applications c i scopes = some e) : e.kind ≠ .internalError := by
  obtain ⟨reason, -, rfl⟩ := Option.map_eq_some_iff.1 h
  exact reason.kind_toApiError

/-- Whoever is not admitted is told why, and not that the store is at fault. -/
theorem admission_or_error (applications : List Application) (c : Context) (i : Installation)
    (id statusType : String) :
    (∃ z required reference d,
      StatusAdmission applications c i id statusType z required reference d) ∨
    ∃ e : ApiError, e.kind ≠ .internalError ∧
      ∀ setAt, statusPlan applications c i id statusType setAt = .error e := by
  cases hfound : i.store.case? id with
  | none =>
      refine .inr ?_
      simp only [statusPlan, foundCase, hfound]
      cases AccessRequest.verdict _ applications i.store (c.resolution i.store i.typeCache) with
      | allow => exact ⟨noCase id, by simp [noCase, ApiError.notFound], fun _ => rfl⟩
      | deny reason => exact ⟨reason.toApiError, reason.kind_toApiError, fun _ => rfl⟩
  | some z =>
      have hcase : foundCase applications c i id updateScopes = .ok z := by
        rw [foundCase, hfound]
      simp only [statusPlan, hcase, except_ok_bind]
      cases hfirst : (statusScopes c.settings).find? (z.has applications c i) with
      | none =>
          refine .inr ⟨_, ?_, fun _ => by rw [CaseRecord.admission, hfirst]; rfl⟩
          cases hrefused : (statusScopes c.settings).findSome? (z.refusal? applications c i) with
          | none => simp [ApiError.permissionDenied, ApiError.plain]
          | some e =>
              obtain ⟨scopes, -, he⟩ := List.exists_of_findSome?_eq_some hrefused
              exact kind_of_refusal? he
      | some required =>
          simp only [CaseRecord.admission, hfirst, except_ok_bind]
          cases hread : c.bases.read statusType with
          | error e =>
              refine .inr ⟨_, ?_, fun _ => by rw [readText, hread]; rfl⟩
              simp [ApiError.invalidParam, ApiError.invalid]
          | ok reference =>
              simp only [readText, hread, except_ok_bind]
              cases hd : c.resolution i.store i.typeCache z.caseType .zrc with
              | error why =>
                  refine .inr ?_
                  simp only [caseType, hd]
                  split
                  · exact ⟨_, by simp [ApiError.catalogUnavailable], fun _ => rfl⟩
                  · exact ⟨_, by simp [ApiError.invalidParam, ApiError.invalid], fun _ => rfl⟩
              | ok d => exact .inl ⟨z, required, reference, d, hfound, hfirst, hread, hd⟩

/-- A plan is made for a caller that is admitted. -/
theorem statusPlan_eq_ok {setAt : Instant} {plan : TransitionPlan} :
    statusPlan applications c i id statusType setAt = .ok plan ↔
      ∃ z required reference d t,
        StatusAdmission applications c i id statusType z required reference d ∧
        transition c i z required d reference setAt = .ok t ∧
        t.verdict applications c i = .ok plan := by
  constructor
  · intro h
    rcases admission_or_error applications c i id statusType with
      ⟨z, required, reference, d, hadmission⟩ | ⟨e, -, herror⟩
    · rw [hadmission.statusPlan_eq] at h
      obtain ⟨t, ht, hplan⟩ := except_of_bind_ok h
      exact ⟨z, required, reference, d, t, hadmission, ht, hplan⟩
    · rw [herror] at h
      cases h
  · rintro ⟨z, required, reference, d, t, hadmission, ht, hplan⟩
    rw [hadmission.statusPlan_eq, ht, except_ok_bind]
    exact hplan

theorem statusOutcome_eq_ok {setAt : Instant} {plan : TransitionPlan} {r : StatusRecord}
    {s : Store} :
    statusOutcome applications c i id statusType setAt = .ok (plan, r, s) ↔
      statusPlan applications c i id statusType setAt = .ok plan ∧
        ∃ t, i.store.createStatus plan.status = .ok (r, t) ∧ plan.written t = s := by
  rw [statusOutcome]
  cases statusPlan applications c i id statusType setAt with
  | error e => exact ⟨fun h => (by cases h), fun h => (by cases h.1)⟩
  | ok plan' =>
      rw [except_ok_bind]
      constructor
      · intro h
        obtain ⟨⟨r', t⟩, hcreate, h⟩ := except_of_bind_ok h
        cases h
        rw [orFault_eq_ok] at hcreate
        exact ⟨rfl, t, hcreate, rfl⟩
      · rintro ⟨hplan, t, hcreate, rfl⟩
        cases hplan
        rw [hcreate]
        rfl

end Admission

section Plan

theorem verdict_eq_ok {applications : List Application} {c : Context} {i : Installation}
    {t : StatusTransition} {plan : TransitionPlan} :
    t.verdict applications c i = .ok plan ↔
      t.plan (t.case.hasScope applications c i) c.settings.guard = .ok plan := by
  rw [StatusTransition.verdict]
  cases t.plan (t.case.hasScope applications c i) c.settings.guard with
  | ok plan' => simp
  | error denial => simp

variable {t : StatusTransition} {has : String → Bool} {config : GuardConfig}
  {plan : TransitionPlan}

theorem scopeDenial?_eq_none {isFinal : Bool} :
    t.scopeDenial? has config isFinal = none ↔ ∀ scope, config.statusScope = some scope →
      ((t.statuses = [] ∨ t.case.isClosed = true ∧ isFinal = false) ∨ has scope = true) ∨
        has config.reopenScope = true := by
  rw [StatusTransition.scopeDenial?, Option.bind_eq_none_iff]
  refine forall₂_congr fun scope _ => ?_
  simp only [ite_eq_left_iff, reduceCtorEq, imp_false, Decidable.not_not, Bool.or_eq_true,
    Bool.and_eq_true, decide_eq_true_eq, Bool.not_eq_true']

theorem plan_eq_ok :
    t.plan has config = .ok plan ↔
      ∃ type, t.caseType.statusType? t.statusType = some type ∧
        (∀ r ∈ t.statuses, r.setAt ≠ t.setAt) ∧
        t.stateDenial? has config type.isFinal = none ∧
        t.scopeDenial? has config type.isFinal = none ∧
        (if type.isFinal then t.closing else .ok t.opening) = .ok plan := by
  rw [StatusTransition.plan]
  cases t.caseType.statusType? t.statusType with
  | none => simp
  | some type =>
      simp only [Option.some.injEq, exists_eq_left']
      split
      · next htaken =>
          obtain ⟨r, hr, hat⟩ := List.any_eq_true.1 htaken
          rw [decide_eq_true_eq] at hat
          refine ⟨fun h => (by cases h), fun h => absurd hat (h.1 r hr)⟩
      · next hfree =>
          have hnone : ∀ r ∈ t.statuses, r.setAt ≠ t.setAt := by simpa using hfree
          rw [and_iff_right hnone]
          cases t.stateDenial? has config type.isFinal with
          | some denial => simp
          | none =>
              cases t.scopeDenial? has config type.isFinal with
              | some denial => simp
              | none => simp

end Plan

end CaseAccess
