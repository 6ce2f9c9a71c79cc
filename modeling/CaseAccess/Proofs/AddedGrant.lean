import CaseAccess.Proofs.CaseAuthority
import CaseAccess.Proofs.WiderAccess

/-!
# More grants

Two installations that differ only in that one of them has more explicit grants differ in
what callers may do, and a caller may do no less in the one with more. Each scope that a
caller has on a case it still has, so each single check that it passed it still passes.

Recording a status is not one check. The first set of scopes that admits the caller is
then the set that the write takes, and this selects the scopes that let a write through
on a closed case. With more grants the caller may be admitted by an earlier set, and the
scopes that go with that one it may not have. The comparison below says that this is the
only difference: the same status is recorded, or the case is closed, the status is final
and no scope that goes with the new set is had.
-/

namespace CaseAccess

open Operation

/-- The same installation with more explicit grants. What the grants are remembered as is
left out; it agrees with the store of each. -/
structure Installation.GrantsMore (i i' : Installation) : Prop where
  store : i'.store = { i.store with grants := i'.store.grants }
  grants : ∀ g ∈ i.store.grants.rows, g ∈ i'.store.grants.rows
  typeCache : i'.typeCache = i.typeCache

theorem grantsMore_createGrant {i i' : Installation} {g : Grant}
    (hstore : i'.store = (i.store.createGrant g).2) (htypes : i'.typeCache = i.typeCache) :
    i.GrantsMore i' := by
  refine ⟨?_, fun other hother => ?_, htypes⟩
  · rw [hstore]
    rfl
  · rw [hstore]
    exact List.mem_append_left _ hother

/-! ## What the caller has -/

section Has

variable {applications : List Application} {c : Context} {i i' : Installation}
  (hmore : i.GrantsMore i')

include hmore

theorem Installation.GrantsMore.resolution_eq :
    c.resolution i'.store i'.typeCache = c.resolution i.store i.typeCache := by
  rw [hmore.typeCache, hmore.store]
  rfl

theorem within_of_grantsMore (r : AccessRequest) :
    AccessQuestion.Within ⟨r, applications, i.store⟩ ⟨r, applications, i'.store⟩ := by
  have hwithin := AccessQuestion.within_self ⟨r, applications, i.store⟩
  rw [hmore.store]
  exact { hwithin with grants := hmore.grants }

theorem has_of_grantsMore {z : CaseRecord} {scopes : ScopeSet}
    (h : z.has applications c i scopes = true) : z.has applications c i' scopes = true := by
  rw [CaseRecord.has, CaseRecord.decision, AccessRequest.isAllowed_verdict] at h ⊢
  refine entitled_of_within (within_of_grantsMore hmore _) ?_ h
  intro typeRef component _ _
  rw [resolveType_eq_ok.2 rfl, resolveType_eq_ok.2 rfl, hmore.resolution_eq]

end Has

/-! ## The guard -/

section Guard

variable {has has' : String → Bool} (hmore : ∀ scope, has scope = true → has' scope = true)
  {config : GuardConfig} {t : StatusTransition}

include hmore

theorem scopeDenial?_of_more {isFinal : Bool} (h : t.scopeDenial? has config isFinal = none)
    (required : ScopeSet) :
    ({ t with required := required } : StatusTransition).scopeDenial? has' config isFinal =
      none := by
  rw [scopeDenial?_eq_none] at h ⊢
  intro scope hscope
  exact (h scope hscope).imp (Or.imp_right (hmore scope)) (hmore _)

/-- The state of the case is in the way just when a final status is recorded on a closed
case without a scope that goes with the new set. -/
theorem stateDenial?_of_more {isFinal : Bool} (h : t.stateDenial? has config isFinal = none)
    (required : ScopeSet) :
    ({ t with required := required } : StatusTransition).stateDenial? has' config isFinal =
      if t.case.isClosed && isFinal && !(config.bypassScopes required).any has'
      then some .caseClosed else none := by
  rw [StatusTransition.stateDenial?] at h ⊢
  cases hclosed : t.case.isClosed with
  | false => simp [CaseRecord.writeDenial?, hclosed]
  | true =>
      cases isFinal with
      | true => simp [CaseRecord.writeDenial?, hclosed]
      | false =>
          simp only [hclosed, Bool.not_false, Bool.and_self, if_true] at h ⊢
          split at h
          · cases h
          · next hmain =>
              rw [if_neg hmain]
              split at h
              · next hreopens => simp [hmore _ hreopens]
              · cases h

/-- With more scopes the plan is the same, or the case is closed to the write. -/
theorem plan_of_more {plan : TransitionPlan} (h : t.plan has config = .ok plan)
    (required : ScopeSet) :
    ({ t with required := required } : StatusTransition).plan has' config =
      if t.case.isClosed && plan.status.isFinal && !(config.bypassScopes required).any has'
      then .error .caseClosed else .ok plan := by
  obtain ⟨type, htype, hfree, hstate, hscope, hplan⟩ := plan_eq_ok.1 h
  have hfinal : plan.status.isFinal = type.isFinal := by
    rw [(plan_follows hplan).status]
    rfl
  have hnone : t.statuses.any (fun r => decide (r.setAt = t.setAt)) = false := by
    simpa using hfree
  rw [StatusTransition.plan]
  simp only [htype, hnone, Bool.false_eq_true, if_false]
  rw [stateDenial?_of_more hmore hstate, scopeDenial?_of_more hmore hscope, hfinal, Option.or_none]
  cases t.case.isClosed && type.isFinal && !(config.bypassScopes required).any has' with
  | true => rfl
  | false => exact hplan

end Guard

/-! ## Recording a status -/

section Recording

variable {applications : List Application} {c : Context} {i i' : Installation}
  (hmore : i.GrantsMore i') {z : CaseRecord} {required : ScopeSet} {d : TypeDefinition}

include hmore

/-- What decides about a status is read alike. -/
theorem transition_of_grantsMore {reference : TypeRef} {setAt : Instant} {t : StatusTransition}
    (h : transition c i z required d reference setAt = .ok t) (required' : ScopeSet) :
    transition c i' z required' d reference setAt = .ok { t with required := required' } := by
  have hsub : subCase c i' = subCase c i := by
    funext y result
    simp only [subCase, hmore.resolution_eq]
  obtain ⟨statuses, hstatuses, h⟩ := except_of_bind_ok h
  cases h
  rw [transition, hsub, hmore.store]
  show (orFault (i.store.listStatuses z.id) >>= _) = _
  rw [hstatuses]
  rfl

theorem verdict_of_grantsMore {t : StatusTransition} {plan : TransitionPlan}
    (h : t.verdict applications c i = .ok plan) (required' : ScopeSet) :
    ({ t with required := required' } : StatusTransition).verdict applications c i' =
      if t.case.isClosed && plan.status.isFinal &&
          !(c.settings.guard.bypassScopes required').any (t.case.hasScope applications c i')
      then .error GuardDenial.caseClosed.toApiError else .ok plan := by
  have hscopes : ∀ scope, t.case.hasScope applications c i scope = true →
      t.case.hasScope applications c i' scope = true := fun _ => has_of_grantsMore hmore
  rw [StatusTransition.verdict, plan_of_more hscopes (verdict_eq_ok.1 h)]
  by_cases hdenied : (t.case.isClosed && plan.status.isFinal &&
      !(c.settings.guard.bypassScopes required').any (t.case.hasScope applications c i')) = true
  · rw [if_pos hdenied, if_pos hdenied]
  · rw [if_neg hdenied, if_neg hdenied]

omit hmore in
/-- A status gets the same number whatever the grants are. -/
theorem createStatus_grants {s t : Store} {r r' : StatusRecord}
    (h : s.createStatus r = .ok (r', t)) (grants : Numbered Grant) :
    ({ s with grants := grants } : Store).createStatus r =
      .ok (r', { t with grants := grants }) := by
  rw [Store.createStatus] at h ⊢
  simp only at h ⊢
  split at h
  · cases h
  · next hfree =>
      cases h
      rw [if_neg hfree]

/-- Whoever was admitted is admitted, maybe by an earlier set. -/
theorem admission_of_grantsMore {id statusType : String} {reference : TypeRef}
    (h : StatusAdmission applications c i id statusType z required reference d) :
    ∃ required', StatusAdmission applications c i' id statusType z required' reference d := by
  have hhas := has_of_grantsMore hmore (List.find?_some h.admitted)
  have hsome : ((statusScopes c.settings).find? (z.has applications c i')).isSome = true :=
    List.find?_isSome.2 ⟨required, List.mem_of_find?_eq_some h.admitted, hhas⟩
  obtain ⟨required', hadmitted⟩ := Option.isSome_iff_exists.1 hsome
  refine ⟨required', ⟨?_, hadmitted, h.read, ?_⟩⟩
  · rw [hmore.store]
    exact h.found
  · rw [hmore.resolution_eq]
    exact h.resolved

end Recording

/-- A status that was recorded is recorded with more explicit grants too, or the guard
denies it: the case is closed, the status is final, and the caller has none of the
scopes that let a write through that takes the first set that admits the caller. -/
theorem more_grants_record_status {i i' : Installation} (hi : i.grantCache.Agrees i.store)
    (hi' : i'.grantCache.Agrees i'.store) (hmore : i.GrantsMore i')
    {applications : List Application} {c : Context} {id statusType : String} {setAt : Instant}
    {r : StatusRecord} {j : Installation}
    (h : recordStatus applications id statusType setAt c i = (.ok r, j)) :
    ∃ z required, i.store.case? id = some z ∧
      (statusScopes c.settings).find? (z.has applications c i') = some required ∧
      (recordStatus applications id statusType setAt c i').1 =
        if z.isClosed && r.isFinal &&
            !(c.settings.guard.bypassScopes required).any (z.hasScope applications c i')
        then .error GuardDenial.caseClosed.toApiError else .ok r := by
  obtain ⟨plan, houtcome, -⟩ := recordStatus_outcome hi h
  obtain ⟨hplan, s, hcreate, -⟩ := statusOutcome_eq_ok.1 houtcome
  obtain ⟨z, required, reference, d, t, hadmission, ht, hverdict⟩ := statusPlan_eq_ok.1 hplan
  obtain ⟨required', hadmission'⟩ := admission_of_grantsMore hmore hadmission
  have hcase : t.case = z := (transition_readFrom ht).case
  have hfinal : r.isFinal = plan.status.isFinal := by
    rw [Store.createStatus_given hcreate]
  refine ⟨z, required', hadmission.found, hadmission'.admitted, ?_⟩
  rw [recordStatus_fst hi', statusOutcome, hadmission'.statusPlan_eq,
    transition_of_grantsMore hmore ht required', except_ok_bind,
    verdict_of_grantsMore hmore hverdict required', hfinal, ← hcase]
  split
  · rfl
  · rw [hmore.store, except_ok_bind, createStatus_grants hcreate]
    rfl

/-- An office whose statuses take a scope of their own, which passes on a closed case with
the scope for reopening. -/
def Context.strict : Context where
  settings := ⟨"http://localhost/", {}, {}, {
    statusScope := some "zaken.statussen.toevoegen"
    closedCaseBypass := SortedMap.ofList [("zaken.statussen.toevoegen", "zaken.heropenen")] }⟩
  bases := ⟨[]⟩
  services := ⟨[]⟩
  typeTtl := 600
  answer := fun _ _ => .notFound
  now := Instant.epoch

def deskApplication : Application := ⟨"desk", "Desk", {}, false⟩

/-- A grant to the desk on the permits of the office. -/
def deskGrant (scopes : List String) : Grant :=
  ⟨0, "desk", .zrc, SortedSet.ofList scopes, some ⟨"permit"⟩, some .openbaar⟩

/-- A closed permit, in an office that grants the desk some scopes. -/
def closedPermit (scopes : List String) : Installation where
  store := (CaseCommand.runAll [
    .create [clerk] "permit-1" ⟨none, "permit", .openbaar, none, {}⟩,
    .setResult [clerk] "permit-1" "granted",
    .recordStatus [clerk] "permit-1" "done" Instant.epoch] .strict
      { office with store := (office.store.createGrant (deskGrant scopes)).2 }).store

/-- The same with the grant to change permits. -/
def closedPermitWithMore (scopes : List String) : Installation where
  store := ((closedPermit scopes).store.createGrant (deskGrant ["zaken.bijwerken"])).2

/-- A second final status of the desk. -/
def closeAgain (i : Installation) : Except ApiError StatusRecord :=
  (recordStatus [deskApplication] "permit-1" "done" dayLater .strict i).1

/-- With the scope for forced changes the desk closes the permit again in both, though
another set of scopes admits it in the second. -/
theorem closedPermit_with_more_grants :
    ∃ r, closeAgain (closedPermit ["zaken.geforceerd-bijwerken", "zaken.statussen.toevoegen",
        "zaken.heropenen"]) = .ok r ∧
      closeAgain (closedPermitWithMore ["zaken.geforceerd-bijwerken",
        "zaken.statussen.toevoegen", "zaken.heropenen"]) = .ok r := by
  have hbefore : (closeAgain (closedPermit ["zaken.geforceerd-bijwerken",
      "zaken.statussen.toevoegen", "zaken.heropenen"])).isOk = true := by decide +kernel
  have hafter : (closeAgain (closedPermitWithMore ["zaken.geforceerd-bijwerken",
      "zaken.statussen.toevoegen", "zaken.heropenen"])).isOk = true := by decide +kernel
  generalize ["zaken.geforceerd-bijwerken", "zaken.statussen.toevoegen",
    "zaken.heropenen"] = scopes at hbefore hafter ⊢
  cases hr : closeAgain (closedPermit scopes) with
  | error e =>
      rw [hr] at hbefore
      cases hbefore
  | ok r =>
      refine ⟨r, rfl, ?_⟩
      have hgrants : (closedPermit scopes).GrantsMore (closedPermitWithMore scopes) :=
        grantsMore_createGrant rfl rfl
      rcases hrun : recordStatus [deskApplication] "permit-1" "done" dayLater .strict
        (closedPermit scopes) with ⟨answer, j⟩
      rw [closeAgain, hrun] at hr
      subst hr
      obtain ⟨z, required, -, -, hmore⟩ :=
        more_grants_record_status .of_empty .of_empty hgrants hrun
      rw [closeAgain] at hafter ⊢
      rw [hmore] at hafter ⊢
      split at hafter
      · cases hafter
      · next hpasses => rw [if_neg hpasses]

/-- Without it, the grant to change permits takes the second closing away. -/
theorem grant_takes_status_away :
    (closeAgain (closedPermit ["zaken.statussen.toevoegen", "zaken.heropenen"])).isOk = true ∧
      closeAgain (closedPermitWithMore ["zaken.statussen.toevoegen", "zaken.heropenen"]) =
        .error GuardDenial.caseClosed.toApiError := by
  decide +kernel

end CaseAccess
