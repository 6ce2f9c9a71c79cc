import CaseAccess.Proofs.ClosedCase
import CaseAccess.Proofs.StoreIntegrity

/-!
# The administration never answers with a fault of its own

A table of the store refuses a row whose key is taken, and an operation that runs into
such a refusal ends with a fault that the caller could do nothing about. The operations
of the administration look before they write, so that whoever asks for something that
cannot be is told so. Here it is shown that they look at the right things: in an
installation that can be found running no write of theirs is refused by a table.

What makes a write go through is what was read before it, so the argument follows one
run from where it is started. `Faultless c i m` is about the run of `m` from `i`, and in
a sequence the rest may use how the first step ended.

The one place where reading is not enough is a new application. Its identifiers are
looked up, and one that belongs to the new uuid would pass; but clients belong to
applications that are there, and the uuid is new.
-/

namespace CaseAccess

namespace Operation

variable {α β : Type} {c : Context} {i j : Installation} {m : Operation α} {f : α → Operation β}

/-- Started here, the operation does not end with a fault that is nobody's but ours. -/
def Faultless (c : Context) (i : Installation) (m : Operation α) : Prop :=
  ∀ e j, m c i = (.error e, j) → e.kind ≠ .internalError

theorem faultless_of_ok {a : α} (h : m c i = (.ok a, j)) : Faultless c i m := by
  intro e k hm
  rw [h] at hm
  cases hm

theorem faultless_fail {e : ApiError} (h : e.kind ≠ .internalError) :
    Faultless c i (fail e : Operation α) := by
  rintro _ _ ⟨⟩
  exact h

theorem faultless_bind (hm : Faultless c i m)
    (hf : ∀ a j, m c i = (.ok a, j) → Faultless c j (f a)) : Faultless c i (m >>= f) := by
  intro e k h
  rcases of_bind_error h with h | ⟨a, j, hj, hk⟩
  · exact hm e k h
  · exact hf a j hj e k hk

/-- A first step that ends well can be left out. -/
theorem faultless_after {a : α} (h : m c i = (.ok a, j)) (hf : Faultless c j (f a)) :
    Faultless c i (m >>= f) := by
  intro e k hm
  rw [bind_of_ok h] at hm
  exact hf e k hm

theorem faultless_forget (h : Faultless c i m) : Faultless c i m.forget :=
  faultless_bind h fun _ _ _ => faultless_of_ok rfl

theorem faultless_ofExcept {x : Except ApiError α}
    (h : ∀ e, x = .error e → e.kind ≠ .internalError) :
    Faultless c i (ofExcept x) := by
  cases x with
  | ok a => exact faultless_of_ok rfl
  | error e => exact faultless_fail (h e rfl)

theorem faultless_transaction (h : Faultless c i m) : Faultless c i (transaction m) := by
  intro e k hm
  rw [transaction] at hm
  split at hm
  · cases hm
  · next e' t ht =>
    cases hm
    exact h e t ht

theorem faultless_refusal {p : Prop} [Decidable p] {e : ApiError} (he : e.kind ≠ .internalError)
    (hm : ¬ p → Faultless c i m) : Faultless c i (if p then (do fail e; m) else m) := by
  split
  · exact faultless_bind (faultless_fail he) fun _ _ h => by cases h
  · next hp => exact hm hp

theorem faultless_changingOr {f : Store → Except StoreFault Store} (h : ∃ t, f i.store = .ok t) :
    Faultless c i (changingOr f) := by
  obtain ⟨t, ht⟩ := h
  refine faultless_of_ok (a := ()) (j := { i with store := t }) ?_
  rw [changingOr, ht]

theorem faultless_changingWithOr {f : Store → Except StoreFault (α × Store)}
    (h : ∃ p, f i.store = .ok p) : Faultless c i (changingWithOr f) := by
  obtain ⟨⟨a, t⟩, ht⟩ := h
  refine faultless_of_ok (a := a) (j := { i with store := t }) ?_
  rw [changingWithOr, ht]

theorem faultless_mapM {f : α → Operation β} (hf : ∀ a i, Faultless c i (f a)) (l : List α) :
    Faultless c i (l.mapM f) := by
  induction l generalizing i with
  | nil => exact faultless_of_ok rfl
  | cons a rest ih =>
      rw [List.mapM_cons]
      refine faultless_bind (hf a i) fun b j _ => ?_
      exact faultless_bind ih fun bs k _ => faultless_of_ok rfl

end Operation

/-! ## Writes that no table refuses -/

theorem kind_of_ofParams {params : List InvalidParam} {e : ApiError}
    (h : ApiError.ofParams params = .error e) : e.kind ≠ .internalError := by
  rw [ApiError.ofParams] at h
  split at h
  · cases h
  · cases h
    rintro ⟨⟩

theorem ApplicationBody.kind_of_read {bases : LocalBases} {body : ApplicationBody} {e : ApiError}
    (h : body.read bases = .error e) : e.kind ≠ .internalError := by
  rcases except_of_bind_error h with h | ⟨_, -, h⟩
  · exact kind_of_ofParams h
  · cases h

theorem ApplicationPatch.kind_of_read {bases : LocalBases} {change : ApplicationPatch}
    {current : Application} {e : ApiError} (h : change.read bases current = .error e) :
    e.kind ≠ .internalError := by
  rcases except_of_bind_error h with h | ⟨_, -, h⟩
  · exact kind_of_ofParams h
  · cases h

namespace Store

open Administration

variable {s t : Store} {uuid : String}

theorem owner_of_ownerRefusals {clientIds : SortedSet String}
    (h : ownerRefusals s uuid clientIds = []) {row : ClientRow} (hrow : row ∈ s.clients.rows)
    (hid : row.clientId ∈ clientIds) : row.application = uuid := by
  have howner : s.clientOwner? row.clientId = some row.application :=
    clientOwner?_eq_some.2 hrow
  have hpasses := List.filterMap_eq_nil_iff.1 h _ hid
  by_contra hne
  simp only [howner, if_neg hne, reduceCtorEq] at hpasses

/-- A new application can be stored when no other has its identifiers. -/
theorem exists_createApplication (h : s.Consistent) {a : Application}
    (hfresh : s.application? a.uuid = none) (hfree : ownerRefusals s a.uuid a.clientIds = []) :
    ∃ t, s.createApplication a = .ok t := by
  have hnew : ¬ s.HasApplication a.uuid := by
    rw [hasApplication_iff, hfresh]
    exact Bool.false_ne_true
  obtain ⟨applications, hadd⟩ := Table.exists_add? (t := s.applications)
    (a := ⟨a.uuid, a.label, a.hasAllPermissions⟩) (Table.get?_eq_none.2 hnew)
  have hclients : ∀ clientId ∈ a.clientIds.toList, s.clients.get? clientId = none := by
    intro clientId hmem
    rw [Option.eq_none_iff_forall_ne_some]
    intro row hget
    obtain ⟨hrow, rfl⟩ := Table.get?_eq_some.1 hget
    have howner := owner_of_ownerRefusals hfree hrow hmem
    exact hnew (howner ▸ h.clients row hrow)
  obtain ⟨t, ht⟩ := exists_addClients (s := { s with applications }) a.uuid
    a.clientIds.nodup_toList hclients
  refine ⟨t, ?_⟩
  rw [Store.createApplication, hadd]
  exact ht

/-- An application can be changed when no other has its identifiers; its own are taken
from it first. -/
theorem exists_updateApplication {a : Application}
    (hfree : ownerRefusals s a.uuid a.clientIds = []) : ∃ t, s.updateApplication a = .ok t := by
  refine exists_addClients a.uuid a.clientIds.nodup_toList fun clientId hmem => ?_
  rw [Option.eq_none_iff_forall_ne_some]
  intro row hget
  obtain ⟨hkept, rfl⟩ := Table.get?_eq_some.1 hget
  obtain ⟨hrow, hother⟩ := List.mem_filter.1 hkept
  exact of_decide_eq_true hother (owner_of_ownerRefusals hfree hrow hmem)

theorem exists_createCatalogGrant {g : CatalogGrant}
    (hfree : ¬ s.catalogGrants.rows.any (sameTarget g) = true) :
    ∃ p, s.createCatalogGrant g = .ok p := by
  rw [Store.createCatalogGrant, if_neg hfree]
  exact ⟨_, rfl⟩

theorem exists_createType {d : TypeDefinition} (hfree : ¬ (s.type? d.reference).isSome = true) :
    ∃ t, s.createType d = .ok t := by
  obtain ⟨types, hadd⟩ := Table.exists_add? (t := s.types) (a := d)
    (Option.not_isSome_iff_eq_none.1 hfree)
  rw [Store.createType, hadd]
  exact ⟨_, rfl⟩

end Store

/-! ## Operations -/

namespace Administration

open Operation

variable {c : Context} {i : Installation} {uuid : String}

theorem faultless_application : Faultless c i (application uuid) := by
  refine faultless_after rfl ?_
  split
  · exact faultless_of_ok rfl
  · exact faultless_fail (by rintro ⟨⟩)

theorem faultless_checkClientIds {clientIds : SortedSet String} :
    Faultless c i (checkClientIds uuid clientIds) :=
  faultless_after rfl (faultless_ofExcept fun _ => kind_of_ofParams)

theorem faultless_createApplication (h : i.store.Consistent)
    (hfresh : i.store.application? uuid = none) (body : ApplicationBody) :
    Faultless c i (createApplication uuid body) := by
  refine faultless_after rfl (faultless_bind (faultless_ofExcept fun _ => ?_) ?_)
  · exact ApplicationBody.kind_of_read
  · rintro input j hinput
    obtain ⟨-, rfl⟩ := of_ofExcept_ok hinput
    refine faultless_bind (faultless_transaction ?_) fun _ _ _ => faultless_of_ok rfl
    refine faultless_bind faultless_checkClientIds fun _ j hcheck => ?_
    obtain ⟨hfree, rfl⟩ := checkClientIds_ok hcheck
    refine faultless_bind ?_ fun _ k _ => ?_
    · exact faultless_changingOr (Store.exists_createApplication h hfresh hfree)
    · exact faultless_after (createGrants_eq _ _ _ _) (faultless_of_ok rfl)

theorem faultless_update (input : ApplicationInput) : Faultless c i (update uuid input) := by
  refine faultless_bind (faultless_transaction ?_) fun _ _ _ => faultless_of_ok rfl
  refine faultless_bind faultless_application fun _ j hload => ?_
  obtain ⟨-, rfl⟩ := application_ok hload
  refine faultless_bind faultless_checkClientIds fun _ j hcheck => ?_
  obtain ⟨hfree, rfl⟩ := checkClientIds_ok hcheck
  split
  · next grants _ =>
      refine faultless_after (replaceGrants_eq _ _ _ _) (faultless_bind ?_ fun _ _ _ => ?_)
      · refine faultless_changingOr (Store.exists_updateApplication ?_)
        obtain ⟨kept, keptOnCatalogs, hregrant⟩ := Store.regrant_eq i.store uuid (some grants)
        rw [hregrant]
        exact hfree
      · exact faultless_of_ok rfl
  · refine faultless_bind ?_ fun _ j hcheck => ?_
    · exact faultless_after rfl (faultless_ofExcept fun _ => kind_of_ofParams)
    · obtain ⟨-, rfl⟩ := checkKeptGrants_ok hcheck
      refine faultless_bind ?_ fun _ _ _ => faultless_of_ok rfl
      exact faultless_changingOr (Store.exists_updateApplication hfree)

theorem faultless_deleteApplication : Faultless c i (deleteApplication uuid) := by
  refine faultless_bind (faultless_transaction ?_) fun _ _ _ => faultless_of_ok rfl
  exact faultless_bind faultless_application fun _ _ _ => faultless_of_ok rfl

theorem faultless_addGrant (g : Grant) : Faultless c i (addGrant g) := by
  refine faultless_bind (faultless_transaction ?_) fun _ _ _ => faultless_of_ok rfl
  exact faultless_bind faultless_application fun _ _ _ => faultless_of_ok rfl

theorem faultless_revokeGrant (id : Nat) : Faultless c i (revokeGrant id) := by
  refine faultless_bind (faultless_transaction ?_) fun _ _ _ => faultless_of_ok rfl
  refine faultless_after rfl ?_
  split
  · exact faultless_fail (by rintro ⟨⟩)
  · exact faultless_of_ok rfl

theorem faultless_addCatalogGrant (g : CatalogGrant) : Faultless c i (addCatalogGrant g) := by
  refine faultless_bind (faultless_transaction ?_) fun _ _ _ => faultless_of_ok rfl
  refine faultless_bind faultless_application fun _ j hload => ?_
  obtain ⟨-, rfl⟩ := application_ok hload
  refine faultless_after rfl (faultless_refusal (by rintro ⟨⟩) fun hfree => ?_)
  refine faultless_bind ?_ fun _ _ _ => faultless_of_ok rfl
  exact faultless_changingWithOr (Store.exists_createCatalogGrant hfree)

theorem faultless_revokeCatalogGrant (id : Nat) : Faultless c i (revokeCatalogGrant id) := by
  refine faultless_bind (faultless_transaction ?_) fun _ _ _ => faultless_of_ok rfl
  refine faultless_after rfl ?_
  split
  · exact faultless_fail (by rintro ⟨⟩)
  · exact faultless_of_ok rfl

theorem faultless_registerType (d : TypeDefinition) (i : Installation) :
    Faultless c i (registerType d) := by
  refine faultless_refusal (by rintro ⟨⟩) fun _ => ?_
  refine faultless_after rfl (faultless_refusal (by rintro ⟨⟩) fun hfree => ?_)
  refine faultless_bind (faultless_changingOr (Store.exists_createType hfree)) fun _ j _ => ?_
  exact faultless_after rfl (faultless_after (forM_invalidate _ _ _) (faultless_of_ok rfl))

theorem faultless_registerTypes (definitions : List TypeDefinition) :
    Faultless c i (registerTypes definitions) := by
  refine faultless_bind (faultless_transaction ?_) fun _ _ _ => faultless_of_ok rfl
  exact faultless_mapM faultless_registerType definitions

end Administration

open Administration Operation

/-- A new application gets a uuid that none has. -/
def AdministrationCommand.IsFresh (s : Store) : AdministrationCommand → Prop
  | .create uuid _ => s.application? uuid = none
  | _ => True

theorem AdministrationCommand.faultless {command : AdministrationCommand} {c : Context}
    {i : Installation} (h : i.store.Consistent) (hfresh : command.IsFresh i.store) :
    Faultless c i command.run := by
  cases command with
  | create uuid body => exact faultless_forget (faultless_createApplication h hfresh body)
  | replace uuid body =>
      refine faultless_forget (faultless_after rfl (faultless_bind ?_ fun input j _ => ?_))
      · exact faultless_ofExcept fun _ => ApplicationBody.kind_of_read
      · exact faultless_update input
  | patch uuid change =>
      refine faultless_forget (faultless_after rfl (faultless_bind faultless_application ?_))
      intro current j _
      refine faultless_bind ?_ fun input k _ => faultless_update input
      exact faultless_ofExcept fun _ => ApplicationPatch.kind_of_read
  | delete uuid => exact faultless_deleteApplication
  | addGrant g => exact faultless_forget (faultless_addGrant g)
  | revokeGrant id => exact faultless_forget (faultless_revokeGrant id)
  | addCatalogGrant g => exact faultless_forget (faultless_addCatalogGrant g)
  | revokeCatalogGrant id => exact faultless_forget (faultless_revokeCatalogGrant id)
  | registerTypes definitions => exact faultless_registerTypes definitions

/-! ## Requests -/

/-- A request that the administration answers. -/
inductive ServiceRequest.Administrative (s : Store) : ServiceRequest → Prop where
  | command {command : AdministrationCommand} (fresh : command.IsFresh s) :
      Administrative s (.administration command)
  | listApplications : Administrative s (.inquiry .listApplications)
  | getApplication (uuid : String) : Administrative s (.inquiry (.getApplication uuid))
  | findConsumer (clientId : String) : Administrative s (.inquiry (.findConsumer clientId))

theorem ServiceRequest.Administrative.faultless {request : ServiceRequest} {c : Context}
    {i : Installation} (h : i.store.Consistent) (hrequest : request.Administrative i.store) :
    Faultless c i request.run := by
  cases hrequest with
  | command fresh => exact AdministrationCommand.faultless h fresh
  | listApplications => exact faultless_of_ok rfl
  | getApplication uuid =>
      exact faultless_forget (faultless_bind faultless_application fun _ _ _ => faultless_of_ok rfl)
  | findConsumer clientId =>
      refine faultless_forget (faultless_after rfl ?_)
      split
      · exact faultless_of_ok rfl
      · exact faultless_fail (by rintro ⟨⟩)

/-- In an installation that can be found running the rows of the store belong together,
and that is enough for the administration: it never runs into a table. -/
theorem store_integrity {i : Installation} (h : Reachable i) :
    (∀ uuid a, i.store.application? uuid = some a → AreClientIds a.clientIds) ∧
    (∀ uuid a uuid' a', i.store.application? uuid = some a →
      i.store.application? uuid' = some a' →
        ∀ clientId ∈ a.clientIds, clientId ∈ a'.clientIds → uuid = uuid') ∧
    (∀ clientId uuid, i.store.clientOwner? clientId = some uuid ↔
      ∃ a, i.store.application? uuid = some a ∧ clientId ∈ a.clientIds) ∧
    (∀ g ∈ i.store.grants.rows, (i.store.application? g.application).isSome = true) ∧
    (∀ g ∈ i.store.catalogGrants.rows, (i.store.application? g.application).isSome = true) ∧
    (i.store.catalogGrants.rows.Pairwise fun g h => Store.sameTarget g h = false) ∧
    ∀ request : ServiceRequest, request.Administrative i.store →
      ∀ c e j, request.run c i = (.error e, j) → e.kind ≠ .internalError := by
  have hi := h.consistent
  refine ⟨fun uuid a => hi.areClientIds, ?_, fun _ _ => hi.clientOwner?_eq_some_iff, ?_, ?_,
    hi.targets, fun request hrequest c => hrequest.faultless hi⟩
  · intro uuid a uuid' a' ha ha' clientId hmem hmem'
    have howner := hi.clientOwner?_eq_some_iff.2 ⟨a, ha, hmem⟩
    have howner' := hi.clientOwner?_eq_some_iff.2 ⟨a', ha', hmem'⟩
    exact Option.some.inj (howner.symm.trans howner')
  · exact fun g hg => Store.hasApplication_iff.1 (hi.grants g hg)
  · exact fun g hg => Store.hasApplication_iff.1 (hi.catalogGrants g hg)

/-- Another desk, for the client of the first one. -/
def secondDesk : ServiceRequest :=
  .administration (.create "second-desk" {
    label := "Second desk"
    clientIds := [" desk-client "]
    hasAllPermissions := true })

/-- The client belongs to the desk, and whoever wants it for another one is told so. -/
theorem desk_keeps_its_client :
    staffedOffice.store.clientOwner? "desk-client" = some "desk" ∧
      ∃ e j, secondDesk.run Context.alone staffedOffice = (.error e, j) ∧
        e.kind ≠ .internalError := by
  obtain ⟨-, -, howner, -, -, -, hfaultless⟩ := store_integrity reachable_staffedOffice
  refine ⟨(howner _ _).2 ?_, ?_⟩
  · have hlists : (staffedOffice.store.application? "desk").any
        (fun a => decide ("desk-client" ∈ a.clientIds)) = true := by decide +kernel
    obtain ⟨a, ha, hmem⟩ := (Option.any_eq_true _ _).1 hlists
    exact ⟨a, ha, of_decide_eq_true hmem⟩
  · have hrefused : (secondDesk.run Context.alone staffedOffice).1.isOk = false := by
      decide +kernel
    have hfresh : staffedOffice.store.application? "second-desk" = none := by decide +kernel
    rcases hrun : secondDesk.run Context.alone staffedOffice with ⟨e | _, j⟩
    · exact ⟨e, j, rfl, hfaultless secondDesk (.command hfresh) _ e j hrun⟩
    · rw [hrun] at hrefused
      cases hrefused

end CaseAccess
