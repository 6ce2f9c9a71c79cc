import CaseAccess.Proofs.History
import CaseAccess.Proofs.PermissionNotice
import CaseAccess.Proofs.StoredGrants

/-!
# The flag and the grants of an application

An application either has every permission or holds grants, never both and never neither.
Whatever creates, replaces or patches an application sees to that. The operations on one
grant do not look at the flag: the last grant can be revoked, and an application that has
every permission can be given a grant. So the rule is not an invariant of the
administration, and an application that breaks it is stuck until its grants or its flag
are given anew. A patch that leaves both alone is refused, if it only changes the label
too.

`Unbalances` lists the commands that break the rule, and there are no others: a command
keeps it for an application just if it does not unbalance it. By induction the rule holds
of an application through every history without such a command.
-/

namespace CaseAccess

open Operation Administration

/-- The application, if it is there, has every permission just if it holds no grant. -/
def Store.Exclusive (s : Store) (uuid : String) : Prop :=
  ∀ a, s.application? uuid = some a → (a.hasAllPermissions = true ↔ s.hasGrants uuid = false)

/-- The application is there and has every permission. -/
def Store.IsSuperuser (s : Store) (uuid : String) : Prop :=
  ∃ a, s.application? uuid = some a ∧ a.hasAllPermissions = true

/-- The command gives a grant to an application that has every permission, or takes the
last grant from an application. -/
def AdministrationCommand.Unbalances (s : Store) (uuid : String) : AdministrationCommand → Prop
  | .addGrant g => g.application = uuid ∧ s.IsSuperuser uuid
  | .addCatalogGrant g => g.application = uuid ∧ s.IsSuperuser uuid
  | .revokeGrant id => (∃ g, s.grant? id = some g ∧ g.application = uuid) ∧
      (∀ other ∈ s.listGrants uuid, other.id = id) ∧ s.listCatalogGrants uuid = []
  | .revokeCatalogGrant id => (∃ g, s.catalogGrant? id = some g ∧ g.application = uuid) ∧
      s.listGrants uuid = [] ∧ ∀ other ∈ s.listCatalogGrants uuid, other.id = id
  | _ => False

/-- The command says all of what an application is to be. -/
inductive AdministrationCommand.Settles (uuid : String) : AdministrationCommand → Prop where
  | create (body : ApplicationBody) : Settles uuid (.create uuid body)
  | replace (body : ApplicationBody) : Settles uuid (.replace uuid body)
  | patch (change : ApplicationPatch) : Settles uuid (.patch uuid change)

/-! ## What an input asks for -/

/-- An input that gives grants gives some just if it does not give every permission. -/
def ApplicationInput.Balanced (input : ApplicationInput) : Prop :=
  ∀ grants, input.grants = some grants → (input.hasAllPermissions = true ↔ grants = [])

theorem acceptedGrants_eq_nil {bases : LocalBases} {bodies : List GrantBody}
    (h : grantRefusals (readGrants bases bodies) = []) :
    acceptedGrants (readGrants bases bodies) = [] ↔ bodies = [] := by
  rw [← List.length_eq_zero_iff, length_acceptedGrants h, List.length_eq_zero_iff]

theorem ApplicationBody.balanced_of_read {bases : LocalBases} {body : ApplicationBody}
    {input : ApplicationInput} (h : body.read bases = .ok input) : input.Balanced := by
  obtain ⟨-, -, hboth, hgrants, rfl⟩ := ApplicationBody.read_eq_ok.1 h
  rintro _ ⟨⟩
  rw [acceptedGrants_eq_nil hgrants]
  exact hboth

theorem ApplicationPatch.balanced_of_read {bases : LocalBases} {current : Application}
    {change : ApplicationPatch} {input : ApplicationInput}
    (h : change.read bases current = .ok input) : input.Balanced := by
  obtain ⟨_, hparams, h⟩ := except_of_bind_ok h
  have hrefusals := ApiError.ofParams_eq_ok.1 hparams
  simp only [List.append_eq_nil_iff] at hrefusals
  obtain ⟨⟨-, hboth⟩, hgrants⟩ := hrefusals
  cases h
  cases hgiven : change.grants with
  | none => exact fun _ h => nomatch h
  | some bodies =>
      rw [hgiven] at hboth hgrants
      rintro _ ⟨⟩
      rw [acceptedGrants_eq_nil hgrants]
      have hgiven : (!bodies.isEmpty) = false ↔ bodies = [] := by
        rw [Bool.not_eq_false', List.isEmpty_iff]
      exact (exclusivityRefusals_eq_nil.1 hboth).trans hgiven

/-! ## One command -/

namespace Store

variable {s t : Store} {uuid : String}

theorem exclusive_of_some {a : Application} (h : s.application? uuid = some a) :
    s.Exclusive uuid ↔ (a.hasAllPermissions = true ↔ s.hasGrants uuid = false) := by
  refine ⟨fun hs => hs a h, fun hboth b hb => ?_⟩
  rw [h] at hb
  cases hb
  exact hboth

theorem exclusive_of_none (h : s.application? uuid = none) : s.Exclusive uuid := by
  intro a ha
  rw [h] at ha
  cases ha

theorem Exclusive.congr (happlication : t.application? uuid = s.application? uuid)
    (hgrants : t.hasGrants uuid = s.hasGrants uuid) : t.Exclusive uuid ↔ s.Exclusive uuid := by
  rw [Exclusive, Exclusive, happlication, hgrants]

theorem SamePermissions.exclusive_iff (h : s.SamePermissions uuid t) :
    t.Exclusive uuid ↔ s.Exclusive uuid :=
  Exclusive.congr h.application (hasGrants_congr h.explicit h.onCatalogs)

/-! ### One grant given -/

theorem exclusive_of_given (hfound : (s.application? uuid).isSome = true)
    (happlication : t.application? uuid = s.application? uuid)
    (hheld : t.hasGrants uuid = true) : t.Exclusive uuid ↔ ¬ s.IsSuperuser uuid := by
  obtain ⟨a, ha⟩ := Option.isSome_iff_exists.1 hfound
  have hflag : s.IsSuperuser uuid ↔ a.hasAllPermissions = true := by
    rw [IsSuperuser, ha]
    exact ⟨fun ⟨_, hb, hflag⟩ => Option.some.inj hb ▸ hflag, fun hflag => ⟨a, rfl, hflag⟩⟩
  rw [exclusive_of_some (happlication.trans ha), hheld, hflag]
  simp

theorem hasGrants_createGrant (s : Store) (g : Grant) :
    (s.createGrant g).2.hasGrants g.application = true := by
  rw [← Bool.not_eq_false, hasGrants_eq_false, listGrants_createGrant]
  simp

theorem hasGrants_createCatalogGrant {g g' : CatalogGrant}
    (h : s.createCatalogGrant g = .ok (g', t)) : t.hasGrants g.application = true := by
  obtain ⟨rfl, rfl⟩ := createCatalogGrant_ok h
  rw [← Bool.not_eq_false, hasGrants_eq_false]
  rintro ⟨-, hnone⟩
  have hmem : { g with id := s.catalogGrants.next } ∈
      listCatalogGrants { s with
        catalogGrants := s.catalogGrants.add fun _ => { g with id := s.catalogGrants.next } }
        g.application :=
    mem_listCatalogGrants.2 ⟨List.mem_append_right _ (List.mem_singleton.2 rfl), rfl⟩
  rw [hnone] at hmem
  cases hmem

theorem exclusive_createGrant {g : Grant}
    (hfound : (s.application? g.application).isSome = true) :
    (s.createGrant g).2.Exclusive g.application ↔ ¬ s.IsSuperuser g.application :=
  exclusive_of_given hfound rfl (hasGrants_createGrant s g)

theorem exclusive_createCatalogGrant {g g' : CatalogGrant}
    (hfound : (s.application? g.application).isSome = true)
    (h : s.createCatalogGrant g = .ok (g', t)) :
    t.Exclusive g.application ↔ ¬ s.IsSuperuser g.application := by
  have hafter : t.application? g.application = s.application? g.application := by
    obtain ⟨rfl, rfl⟩ := createCatalogGrant_ok h
    rfl
  exact exclusive_of_given hfound hafter (hasGrants_createCatalogGrant h)

/-! ### One grant taken -/

/-- An application that held a grant did not have every permission. -/
theorem exclusive_of_taken (hbefore : s.Exclusive uuid) (hheld : s.hasGrants uuid = true)
    (hfound : (s.application? uuid).isSome = true)
    (happlication : t.application? uuid = s.application? uuid) :
    t.Exclusive uuid ↔ ¬ t.hasGrants uuid = false := by
  obtain ⟨a, hfound⟩ := Option.isSome_iff_exists.1 hfound
  have hflag : a.hasAllPermissions = false := by
    have hboth := hbefore a hfound
    rw [hheld] at hboth
    simpa using hboth
  rw [exclusive_of_some (happlication.trans hfound), hflag]
  simp

theorem mem_listGrants {g : Grant} :
    g ∈ s.listGrants uuid ↔ g ∈ s.grants.rows ∧ g.application = uuid := by
  rw [listGrants, List.mem_filter, decide_eq_true_eq]

theorem hasGrants_of_mem {g : Grant} (h : g ∈ s.listGrants uuid) : s.hasGrants uuid = true := by
  rw [← Bool.not_eq_false, hasGrants_eq_false]
  rintro ⟨hnone, -⟩
  rw [hnone] at h
  cases h

theorem hasGrants_of_mem_catalogGrants {g : CatalogGrant} (h : g ∈ s.listCatalogGrants uuid) :
    s.hasGrants uuid = true := by
  rw [← Bool.not_eq_false, hasGrants_eq_false]
  rintro ⟨-, hnone⟩
  rw [hnone] at h
  cases h

theorem hasGrants_deleteGrant (s : Store) (uuid : String) (id : Nat) :
    (s.deleteGrant id).hasGrants uuid = false ↔
      (∀ other ∈ s.listGrants uuid, other.id = id) ∧ s.listCatalogGrants uuid = [] := by
  have hlisted : (s.deleteGrant id).listGrants uuid =
      (s.listGrants uuid).filter (·.id ≠ id) := List.filter_comm _ _ _
  rw [hasGrants_eq_false, hlisted, List.filter_eq_nil_iff]
  simp only [ne_eq, decide_not, Bool.not_eq_true', decide_eq_false_iff_not, not_not]
  rfl

theorem hasGrants_deleteCatalogGrant (s : Store) (uuid : String) (id : Nat) :
    (s.deleteCatalogGrant id).hasGrants uuid = false ↔
      s.listGrants uuid = [] ∧ ∀ other ∈ s.listCatalogGrants uuid, other.id = id := by
  have hlisted : (s.deleteCatalogGrant id).listCatalogGrants uuid =
      (s.listCatalogGrants uuid).filter (·.id ≠ id) := List.filter_comm _ _ _
  rw [hasGrants_eq_false, hlisted, List.filter_eq_nil_iff]
  simp only [ne_eq, decide_not, Bool.not_eq_true', decide_eq_false_iff_not, not_not]
  rfl

theorem exclusive_deleteGrant {g : Grant} {id : Nat} (hs : s.Consistent)
    (hfound : s.grant? id = some g) (hbefore : s.Exclusive g.application) :
    (s.deleteGrant id).Exclusive g.application ↔
      ¬ ((∀ other ∈ s.listGrants g.application, other.id = id) ∧
        s.listCatalogGrants g.application = []) := by
  have hstored : g ∈ s.grants.rows := List.mem_of_find?_eq_some hfound
  have hheld := hasGrants_of_mem (mem_listGrants.2 ⟨hstored, rfl⟩)
  have hthere := hasApplication_iff.1 (hs.grants g hstored)
  have hafter : (s.deleteGrant id).application? g.application =
      s.application? g.application := rfl
  rw [exclusive_of_taken hbefore hheld hthere hafter, hasGrants_deleteGrant]

theorem exclusive_deleteCatalogGrant {g : CatalogGrant} {id : Nat} (hs : s.Consistent)
    (hfound : s.catalogGrant? id = some g) (hbefore : s.Exclusive g.application) :
    (s.deleteCatalogGrant id).Exclusive g.application ↔
      ¬ (s.listGrants g.application = [] ∧
        ∀ other ∈ s.listCatalogGrants g.application, other.id = id) := by
  have hstored : g ∈ s.catalogGrants.rows := List.mem_of_find?_eq_some hfound
  have hheld := hasGrants_of_mem_catalogGrants (mem_listCatalogGrants.2 ⟨hstored, rfl⟩)
  have hthere := hasApplication_iff.1 (hs.catalogGrants g hstored)
  have hafter : (s.deleteCatalogGrant id).application? g.application =
      s.application? g.application := rfl
  rw [exclusive_of_taken hbefore hheld hthere hafter, hasGrants_deleteCatalogGrant]

/-! ### All of an application -/

theorem SameGrants.application?_eq (h : s.SameGrants t) (uuid : String) :
    t.application? uuid = s.application? uuid := by
  have hrow : t.ofRow = s.ofRow := by
    funext row
    rw [ofRow, ofRow, clientIds, clientIds, h.clients]
  rw [application?, application?, h.applications, hrow]

theorem SameGrants.listed_eq (h : s.SameGrants t) (uuid : String) :
    t.listGrants uuid = s.listGrants uuid ∧
      t.listCatalogGrants uuid = s.listCatalogGrants uuid := by
  rw [listGrants, listGrants, h.grants, listCatalogGrants, listCatalogGrants, h.catalogGrants]
  exact ⟨rfl, rfl⟩

theorem SameGrants.hasGrants_eq (h : s.SameGrants t) (uuid : String) :
    t.hasGrants uuid = s.hasGrants uuid :=
  hasGrants_congr (h.listed_eq uuid).1 (h.listed_eq uuid).2

theorem isEmpty_of_unnumbered {grants held : List Grant}
    (h : held.map Grant.unnumbered = grants.map (·.heldBy uuid)) : held = [] ↔ grants = [] := by
  rw [← List.map_eq_nil_iff (f := Grant.unnumbered), h, List.map_eq_nil_iff]

theorem Updates.exclusive {input : ApplicationInput} (h : s.Updates uuid input t)
    (hinput : input.Balanced) : t.Exclusive uuid := by
  rw [exclusive_of_some h.application]
  cases hgrants : input.grants with
  | none =>
      obtain ⟨hexplicit, honCatalogs⟩ := h.listed uuid
      rw [hgrants] at hexplicit honCatalogs
      rw [hasGrants_congr hexplicit honCatalogs]
      exact exclusivityRefusals_eq_nil.1 (h.kept hgrants)
  | some grants =>
      obtain ⟨hexplicit, honCatalogs⟩ := h.unnumbered hgrants
      rw [hasGrants_eq_false, isEmpty_of_unnumbered hexplicit]
      exact (hinput grants hgrants).trans (and_iff_left honCatalogs).symm

theorem exclusive_of_createApplication {input : ApplicationInput} (hs : s.Consistent)
    (hinput : input.Balanced) {grants : List Grant} (hgrants : input.grants = some grants)
    (hstored : s.createApplication (input.application uuid) = .ok t) :
    (t.addGrants uuid grants).Exclusive uuid := by
  obtain ⟨hfound, hexplicit, honCatalogs⟩ := created_of_createApplication hs hstored grants
  rw [exclusive_of_some hfound, hasGrants_eq_false, isEmpty_of_unnumbered hexplicit]
  exact (hinput grants hgrants).trans (and_iff_left honCatalogs).symm

end Store

namespace AdministrationCommand

variable {command : AdministrationCommand} {c : Context} {s t : Store} {uuid : String}
  {named : List (String × Action)}

theorem Writes.exclusive_of_settles (h : command.Writes c s t named) (hs : s.Consistent)
    (hsettles : command.Settles uuid) : t.Exclusive uuid := by
  cases hsettles with
  | create body =>
      cases h with
      | create read free stored =>
          obtain ⟨-, -, -, -, hinput⟩ := ApplicationBody.read_eq_ok.1 read
          have hgrants := congrArg ApplicationInput.grants hinput
          rw [hgrants]
          exact Store.exclusive_of_createApplication hs (ApplicationBody.balanced_of_read read)
            hgrants stored
  | replace body =>
      cases h with
      | replace read stored => exact stored.exclusive (ApplicationBody.balanced_of_read read)
  | patch change =>
      cases h with
      | patch found read stored =>
          exact stored.exclusive (ApplicationPatch.balanced_of_read read)

/-- A command unbalances no application but the one that it names. -/
theorem Writes.named_of_unbalances (h : command.Writes c s t named)
    (hunbalances : command.Unbalances s uuid) : uuid ∈ named.map (·.1) := by
  cases h with
  | create read free stored => cases hunbalances
  | replace read stored => cases hunbalances
  | patch found read stored => cases hunbalances
  | delete found => cases hunbalances
  | registerTypes stored => cases hunbalances
  | addGrant found => exact List.mem_singleton.2 hunbalances.1.symm
  | addCatalogGrant found stored => exact List.mem_singleton.2 hunbalances.1.symm
  | revokeGrant found =>
      obtain ⟨⟨g, hg, rfl⟩, -⟩ := hunbalances
      rw [found, Option.some.injEq] at hg
      exact List.mem_singleton.2 (hg ▸ rfl)
  | revokeCatalogGrant found =>
      obtain ⟨⟨g, hg, rfl⟩, -⟩ := hunbalances
      rw [found, Option.some.injEq] at hg
      exact List.mem_singleton.2 (hg ▸ rfl)

/-- Of an application that it names, a command keeps the rule just if it does not unbalance
it. -/
theorem Writes.exclusive_iff_of_named (h : command.Writes c s t named) (hs : s.Consistent)
    (hbefore : s.Exclusive uuid) (hnamed : uuid ∈ named.map (·.1)) :
    t.Exclusive uuid ↔ ¬ command.Unbalances s uuid := by
  have hsettled : command.Settles uuid → t.Exclusive uuid := h.exclusive_of_settles hs
  cases h with
  | create read free stored =>
      obtain rfl := List.mem_singleton.1 hnamed
      exact iff_of_true (hsettled (.create _)) fun h => nomatch h
  | replace read stored =>
      obtain rfl := List.mem_singleton.1 hnamed
      exact iff_of_true (hsettled (.replace _)) fun h => nomatch h
  | patch found read stored =>
      obtain rfl := List.mem_singleton.1 hnamed
      exact iff_of_true (hsettled (.patch _)) fun h => nomatch h
  | delete found =>
      obtain rfl := List.mem_singleton.1 hnamed
      have hgone := Store.exclusive_of_none (Store.application?_deleteApplication_self s uuid)
      exact iff_of_true hgone fun h => nomatch h
  | registerTypes stored =>
      obtain ⟨types, rfl⟩ := stored.eq
      exact iff_of_true hbefore fun h => nomatch h
  | addGrant found =>
      obtain rfl := List.mem_singleton.1 hnamed
      rw [Store.exclusive_createGrant found, Unbalances, and_iff_right rfl]
  | addCatalogGrant found stored =>
      obtain rfl := List.mem_singleton.1 hnamed
      rw [Store.exclusive_createCatalogGrant found stored, Unbalances, and_iff_right rfl]
  | revokeGrant found =>
      obtain rfl := List.mem_singleton.1 hnamed
      rw [Store.exclusive_deleteGrant hs found hbefore]
      exact not_congr (and_iff_right ⟨_, found, rfl⟩).symm
  | revokeCatalogGrant found =>
      obtain rfl := List.mem_singleton.1 hnamed
      rw [Store.exclusive_deleteCatalogGrant hs found hbefore]
      exact not_congr (and_iff_right ⟨_, found, rfl⟩).symm

/-- A command keeps the rule just if it does not unbalance the application. -/
theorem Writes.exclusive_iff (h : command.Writes c s t named) (hs : s.Consistent)
    (hgrants : s.grants.Ascending Grant.id)
    (hcatalogGrants : s.catalogGrants.Ascending CatalogGrant.id) (hbefore : s.Exclusive uuid) :
    t.Exclusive uuid ↔ ¬ command.Unbalances s uuid := by
  by_cases hnamed : uuid ∈ named.map (·.1)
  · exact h.exclusive_iff_of_named hs hbefore hnamed
  · have hsame := h.samePermissions hgrants hcatalogGrants hnamed
    exact iff_of_true (hsame.exclusive_iff.2 hbefore) (mt h.named_of_unbalances hnamed)

end AdministrationCommand

/-! ## A patch of the label -/

section Label

variable {c : Context} {i : Installation} {uuid label : String} {a : Application}

theorem read_label (bases : LocalBases) (current : Application) (hlabel : trimmed label ≠ "") :
    ApplicationPatch.read bases current { label := some label } =
      .ok ⟨current.clientIds, label, current.hasAllPermissions, none⟩ := by
  have hnone : labelRefusals label = [] := labelRefusals_eq_nil.2 hlabel
  simp only [ApplicationPatch.read, givenRefusals, hnone, Option.map_none]
  rfl

theorem Store.view_congr {s t : Store} (base : String) {b : Application}
    (hgrants : t.listGrants b.uuid = s.listGrants b.uuid)
    (hcatalogGrants : t.listCatalogGrants b.uuid = s.listCatalogGrants b.uuid)
    (htypes : t.types = s.types) : t.view base b = s.view base b := by
  have hcatalog : t.viewCatalogGrant base = s.viewCatalogGrant base := by
    funext g
    rw [viewCatalogGrant, viewCatalogGrant, catalogTypes, catalogTypes, htypes]
  rw [view, view, hgrants, hcatalogGrants, hcatalog]

/-- A patch that only gives a label goes through just if the rule holds; otherwise it is
refused for what the application holds. -/
theorem patchApplication_label (hi : i.store.Consistent)
    (ha : i.store.application? uuid = some a) (hlabel : trimmed label ≠ "") :
    (i.store.Exclusive uuid → (patchApplication uuid { label := some label } c i).1 =
      .ok (i.store.view c.settings.publicBaseUrl { a with label := label })) ∧
    (¬ i.store.Exclusive uuid → (patchApplication uuid { label := some label } c i).1 =
      .error (.invalid (exclusivityRefusals a.hasAllPermissions (i.store.hasGrants uuid)))) := by
  have huuid : a.uuid = uuid := Store.uuid_of_application? ha
  have hfree := hi.ownerRefusals_own ha
  have hexclusive : exclusivityRefusals a.hasAllPermissions (i.store.hasGrants uuid) = [] ↔
      i.store.Exclusive uuid := by
    rw [exclusivityRefusals_eq_nil, Store.exclusive_of_some ha]
  have hpatch : patchApplication uuid { label := some label } c i =
      update uuid ⟨a.clientIds, label, a.hasAllPermissions, none⟩ c i := by
    rw [patchApplication, bind_context, bind_of_ok (application_of_some ha),
      read_label c.bases a hlabel]
    rfl
  rw [hpatch]
  constructor
  · intro hs
    have hends : EndsWell c i
        (update uuid ⟨a.clientIds, label, a.hasAllPermissions, none⟩) :=
      exists_update (by rw [ha]; rfl) hfree fun _ => hexclusive.2 hs
    obtain ⟨view, j, hrun⟩ := hends
    obtain ⟨t, hupdates, -, rfl⟩ := update_ok hrun
    have hlisted := hupdates.listed uuid
    have hinput : (⟨a.clientIds, label, a.hasAllPermissions, none⟩ : ApplicationInput).application
        uuid = { a with label := label } := by
      rw [← huuid]
      rfl
    rw [hrun, hinput]
    subst huuid
    exact congrArg Except.ok (Store.view_congr _ hlisted.1 hlisted.2 hupdates.types)
  · intro hs
    have hrefused : ApiError.ofParams
        (exclusivityRefusals a.hasAllPermissions (i.store.hasGrants uuid)) =
        .error (.invalid (exclusivityRefusals a.hasAllPermissions (i.store.hasGrants uuid))) :=
      if_neg fun hnil => hs (hexclusive.1 hnil)
    simp only [update, transaction, bind_apply, application_of_some ha,
      checkClientIds_of_free hfree, checkKeptGrants_eq, hrefused]

end Label

/-! ## Histories -/

/-- The rule for one application, in every installation that can be found running. It holds
through every history that does not unbalance the application, and where it holds it is lost
just by a command that does. Whoever settles all of an application puts it right again.
Where it holds a patch of the label alone goes through, and where it does not the patch is
refused. -/
theorem exclusive_unless_unbalanced (uuid : String) :
    (∀ i, ReachableBy (fun command _ i => ¬ command.Unbalances i.store uuid) i →
      i.store.Exclusive uuid) ∧
    ∀ i, Reachable i →
      (∀ (command : AdministrationCommand) c j, command.run c i = (.ok (), j) →
        (i.store.Exclusive uuid →
          (j.store.Exclusive uuid ↔ ¬ command.Unbalances i.store uuid)) ∧
        (command.Settles uuid → j.store.Exclusive uuid)) ∧
      ∀ a label c, i.store.application? uuid = some a → trimmed label ≠ "" →
        (i.store.Exclusive uuid → (patchApplication uuid { label := some label } c i).1 =
          .ok (i.store.view c.settings.publicBaseUrl { a with label := label })) ∧
        (¬ i.store.Exclusive uuid → (patchApplication uuid { label := some label } c i).1 =
          .error (.invalid
            (exclusivityRefusals a.hasAllPermissions (i.store.hasGrants uuid)))) := by
  refine ⟨fun i h => ?_, fun i h => ⟨fun command c j hrun => ?_, fun a label c ha hlabel => ?_⟩⟩
  · refine h.store_induction (P := fun s => s.Exclusive uuid) (Store.exclusive_of_none rfl) ?_ ?_
    · intro s t hsame _ hs
      exact (Store.Exclusive.congr (hsame.application?_eq uuid) (hsame.hasGrants_eq uuid)).2 hs
    · intro command c j t named hj hnot hwrites hs
      have hcoherent := hj.reachable.coherent
      exact (hwrites.exclusive_iff hj.reachable.consistent hcoherent.grants
        hcoherent.catalogGrants hs).2 hnot
  · have hcoherent := h.coherent
    obtain ⟨t, named, hwrites, rfl, -⟩ := AdministrationCommand.writes_of hrun
    exact ⟨hwrites.exclusive_iff h.consistent hcoherent.grants hcoherent.catalogGrants,
      hwrites.exclusive_of_settles h.consistent⟩
  · exact patchApplication_label h.consistent ha hlabel

/-! ## An archive that loses its grant -/

/-- An archive that may look at authorisations. -/
def archive : Installation :=
  ((AdministrationCommand.create "archive" {
    label := "Archive"
    clientIds := ["archivist"]
    grants := [{ component := "ac", scopes := ["autorisaties.lezen"] }] }).run Context.alone
      (.start {} {})).2

/-- The archive after its grant is revoked. -/
def emptiedArchive : Installation :=
  ((AdministrationCommand.revokeGrant 1).run Context.alone archive).2

/-- The rule holds of the archive until its only grant is revoked, and as long as it holds
the archive can get another label. -/
theorem archive_until_emptied :
    archive.store.Exclusive "archive" ∧ ¬ emptiedArchive.store.Exclusive "archive" ∧
      ∃ view, (patchApplication "archive" { label := some "Records" } Context.alone archive).1 =
        .ok view := by
  obtain ⟨hkept, hfound⟩ := exclusive_unless_unbalanced "archive"
  have hexclusive : archive.store.Exclusive "archive" :=
    hkept archive (.administration (.start {}) fun h => h)
  have hreach : Reachable archive := (Reachable.start {}).step (.administration _ _ _)
  obtain ⟨hstep, hlabel⟩ := hfound archive hreach
  refine ⟨hexclusive, ?_, ?_⟩
  · have hok : ((AdministrationCommand.revokeGrant 1).run Context.alone archive).1 = .ok () := by
      decide +kernel
    have hrun : (AdministrationCommand.revokeGrant 1).run Context.alone archive =
        (.ok (), emptiedArchive) := Prod.ext hok rfl
    have hlast : archive.store.listGrants "archive" =
        [⟨1, "archive", .ac, ScopeSet.single "autorisaties.lezen", none, none⟩] := by
      decide +kernel
    have hgrant : archive.store.grant? 1 =
        some ⟨1, "archive", .ac, ScopeSet.single "autorisaties.lezen", none, none⟩ := by
      decide +kernel
    have hnone : archive.store.listCatalogGrants "archive" = [] := by decide +kernel
    rw [(hstep _ _ _ hrun).1 hexclusive, not_not]
    refine ⟨⟨_, hgrant, rfl⟩, ?_, hnone⟩
    rw [hlast]
    exact List.forall_mem_singleton.2 rfl
  · have harchive : archive.store.application? "archive" =
        some ⟨"archive", "Archive", SortedSet.ofList ["archivist"], false⟩ := by decide +kernel
    exact ⟨_, (hlabel _ "Records" Context.alone harchive (by decide +kernel)).1 hexclusive⟩

/-- An application that has every permission, and is then given a grant. -/
def grantedRoot : Installation :=
  ((AdministrationCommand.addGrant
    ⟨0, "root", .ac, ScopeSet.single "autorisaties.lezen", none, none⟩).run Context.alone
    ((AdministrationCommand.create "root" {
      label := "Root"
      clientIds := ["operator"]
      hasAllPermissions := true }).run Context.alone (.start {} {})).2).2

/-- One application has neither the flag nor a grant and another one has both, and neither
of them can get another label. -/
theorem label_patch_refused :
    (Reachable emptiedArchive ∧ ¬ emptiedArchive.store.Exclusive "archive" ∧
      (patchApplication "archive" { label := some "Records" } Context.alone emptiedArchive).1 =
        .error (.invalid [⟨nonFieldErrors, "missing-autorisaties",
          "set heeftAlleAutorisaties or list autorisaties"⟩])) ∧
    Reachable grantedRoot ∧ ¬ grantedRoot.store.Exclusive "root" ∧
      (patchApplication "root" { label := some "Admin" } Context.alone grantedRoot).1 =
        .error (.invalid [⟨nonFieldErrors, "ambiguous-authorizations-specified",
          "either set heeftAlleAutorisaties or list autorisaties, not both"⟩]) := by
  refine ⟨⟨?_, ?_, by decide +kernel⟩, ?_, ?_, by decide +kernel⟩
  · exact ((Reachable.start {}).step (.administration _ _ _)).step (.administration _ _ _)
  · have hfound : emptiedArchive.store.application? "archive" =
        some ⟨"archive", "Archive", SortedSet.ofList ["archivist"], false⟩ := by decide +kernel
    have hnone : emptiedArchive.store.hasGrants "archive" = false := by decide +kernel
    rw [Store.exclusive_of_some hfound, hnone]
    decide
  · exact ((Reachable.start {}).step (.administration _ _ _)).step (.administration _ _ _)
  · have hfound : grantedRoot.store.application? "root" =
        some ⟨"root", "Root", SortedSet.ofList ["operator"], true⟩ := by decide +kernel
    have hheld : grantedRoot.store.hasGrants "root" = true := by decide +kernel
    rw [Store.exclusive_of_some hfound, hheld]
    decide

end CaseAccess
