import CaseAccess.Proofs.AdministrationChange
import CaseAccess.Proofs.CacheCoherence
import CaseAccess.Proofs.CatalogExpansion

/-!
# No permission changes without a notice

A command of the administration that ends well announces applications, each of them
once, and no permission changes of an application that is not among them. What an
application may do shows in two ways: in its view, and in the decisions that are made for
it. Both are read off the same part of the store, which is its row, its clients, its
grants, and which types are in the catalogs that it holds grants on. So it is shown once,
over the list of what a command may write, that this part stays as it is unless the
application is named; the view and the decisions are functions of it.

The part about types is the one that a command may change without a word about the
application. A type that is registered adds to what every grant on its catalog gives, and
the holders of these grants are just the applications that are named.
-/

namespace CaseAccess

open Operation Administration

/-- What an application is said to have gone through between two states of it. -/
def Action.between (before after : Option Application) : Action :=
  match before, after with
  | none, some _ => .create
  | some _, none => .destroy
  | _, _ => .update

/-- A notification says of one application what happened to it: the application, by its address,
is what it is about, and is the resource that was changed. -/
structure Notification.TellsOf (c : Context) (uuid : String) (action : Action)
    (n : Notification) : Prop where
  channel : n.channel = "autorisaties"
  mainObject : n.mainObject = applicationUrl c.settings.publicBaseUrl uuid
  resource : n.resource = "applicatie"
  resourceUrl : n.resourceUrl = applicationUrl c.settings.publicBaseUrl uuid
  action : n.action = action
  created : n.created = c.now.text 0
  features : n.features = {}

theorem Notification.TellsOf.eq {c : Context} {uuid : String} {action : Action}
    {n : Notification} (h : n.TellsOf c uuid action) : n = {
      channel := "autorisaties"
      mainObject := applicationUrl c.settings.publicBaseUrl uuid
      resource := "applicatie"
      resourceUrl := applicationUrl c.settings.publicBaseUrl uuid
      action := action
      created := c.now.text 0 } := by
  obtain ⟨channel, mainObject, resource, resourceUrl, _, created, features⟩ := n
  obtain ⟨rfl, rfl, rfl, rfl, rfl, rfl, rfl⟩ := h
  rfl

/-- Of each of these applications it is told, in this order, what it has gone through between
two stores, and under its address there is nothing else. -/
structure Context.Announces (c : Context) (s t : Store) (uuids : List String)
    (news : List Notification) : Prop where
  told : List.Forall₂ (fun uuid n =>
    n.TellsOf c uuid (.between (s.application? uuid) (t.application? uuid))) uuids news
  once : ∀ uuid ∈ uuids, ∃ n,
    news.filter (·.mainObject = applicationUrl c.settings.publicBaseUrl uuid) = [n]

/-- The decision for one application, as it is stored. -/
def decisionFor (uuid : String) (r : AccessRequest) : Operation Decision := do
  r.decide (← reading fun s => (s.application? uuid).toList)

/-- In some context the application is shown differently afterwards, or a request that
needs nothing of another installation is decided differently for it. -/
def Installation.PermissionsChange (i j : Installation) (uuid : String) : Prop :=
  ∃ c, (getApplication uuid c i).1 ≠ (getApplication uuid c j).1 ∨
    ∃ r : AccessRequest, r.IsLocal ∧ (decisionFor uuid r c i).1 ≠ (decisionFor uuid r c j).1

/-! ## What permissions are read off -/

/-- An application is the same in both stores, and so is what its grants give. -/
structure Store.SamePermissions (uuid : String) (s t : Store) : Prop where
  application : t.application? uuid = s.application? uuid
  explicit : t.listGrants uuid = s.listGrants uuid
  onCatalogs : t.listCatalogGrants uuid = s.listCatalogGrants uuid
  types : ∀ g ∈ s.listCatalogGrants uuid,
    t.catalogTypes g.catalog g.component = s.catalogTypes g.catalog g.component

namespace Store

variable {s t u : Store} {uuid : String}

theorem application?_congr (hrow : t.applications.get? uuid = s.applications.get? uuid)
    (hclients : t.clients.rows.filter (·.application = uuid) =
      s.clients.rows.filter (·.application = uuid)) :
    t.application? uuid = s.application? uuid := by
  rw [application?, application?, hrow]
  cases hget : s.applications.get? uuid with
  | none => rfl
  | some row =>
      have hkey : row.uuid = uuid := Table.key_of_get? hget
      rw [Option.map_some, Option.map_some, ofRow, ofRow, clientIds, clientIds, hkey, hclients]

theorem spares_addGrants (s : Store) (uuid : String) (grants : List Grant) :
    SparesGrants uuid s (s.addGrants uuid grants) := by
  induction grants generalizing s with
  | nil => exact .of_eq rfl rfl
  | cons g rest ih =>
      have hfirst : SparesGrants uuid s (s.createGrant { g with application := uuid }).2 :=
        spares_createGrant rfl
      exact hfirst.trans (ih _)

theorem spares_regrant (s : Store) (uuid : String) (grants : Option (List Grant)) :
    SparesGrants uuid s (s.regrant uuid grants) := by
  cases grants with
  | none => exact .of_eq rfl rfl
  | some grants =>
      exact ((spares_deleteGrants s uuid).trans (spares_deleteCatalogGrants _ uuid)).trans
        (spares_addGrants _ uuid grants)

/-- A change of the grants of another application. -/
theorem SamePermissions.of_spares {other : String} (h : SparesGrants other s t)
    (hne : uuid ≠ other) (happlication : t.application? uuid = s.application? uuid)
    (htypes : t.types = s.types) : s.SamePermissions uuid t where
  application := happlication
  explicit := h.explicit uuid hne
  onCatalogs := h.onCatalogs uuid hne
  types g _ := by rw [catalogTypes, catalogTypes, htypes]

/-! ### Applications after a write -/

theorem application?_createApplication {a : Application} (h : s.createApplication a = .ok t)
    (hne : uuid ≠ a.uuid) : t.application? uuid = s.application? uuid := by
  obtain ⟨applications, clients, hadd, hclients, rfl⟩ := createApplication_ok h
  refine application?_congr ?_ ?_
  · rw [Table.get?_add? hadd, if_neg hne.symm]
  · simp [hclients, hne.symm]

theorem application?_updateApplication {a : Application} (h : s.updateApplication a = .ok t)
    (hne : uuid ≠ a.uuid) : t.application? uuid = s.application? uuid := by
  obtain ⟨clients, hclients, rfl⟩ := updateApplication_ok h
  refine application?_congr ?_ ?_
  · rw [Table.get?_replace]
    cases hget : s.applications.get? uuid with
    | none => rfl
    | some row =>
        have hkey : row.uuid ≠ a.uuid := by rwa [Table.key_of_get? hget]
        rw [Option.map_some, Table.instead, if_neg hkey]
  · rw [hclients, List.filter_append, filter_filter_of_ne fun row _ hrow => by simp [hrow, hne]]
    simp [hne.symm]

theorem application?_deleteApplication (s : Store) {other : String} (hne : uuid ≠ other) :
    (s.deleteApplication other).application? uuid = s.application? uuid := by
  refine application?_congr ?_ ?_
  · show (s.applications.erase other).get? uuid = _
    rw [Table.get?_erase, if_neg hne]
  · exact filter_filter_of_ne fun row _ hrow => by simp [hrow, hne]

theorem application?_deleteApplication_self (s : Store) (uuid : String) :
    (s.deleteApplication uuid).application? uuid = none := by
  have hgone : (s.applications.erase uuid).get? uuid = none := by
    rw [Table.get?_erase, if_pos rfl]
  show ((s.applications.erase uuid).get? uuid).map _ = none
  rw [hgone]
  rfl

/-- A type that is not among these definitions is in a catalog as before. -/
theorem Registers.catalogTypes_eq {definitions : List TypeDefinition}
    (h : s.Registers definitions t) {catalog : TypeRef} {component : Component}
    (hnot : ∀ d ∈ definitions, ¬ (d.catalog = some catalog ∧ d.component = component)) :
    t.catalogTypes catalog component = s.catalogTypes catalog component := by
  induction h with
  | nil s => rfl
  | @cons s t u d rest _ first _ ih =>
      rw [ih fun d' hd' => hnot d' (List.mem_cons_of_mem _ hd')]
      obtain ⟨types, hadd, rfl⟩ := createType_ok first
      have hfirst := hnot d List.mem_cons_self
      simp only [catalogTypes, (Table.add?_eq_some.1 hadd).2, List.filter_append,
        List.filter_singleton, hfirst, decide_false, cond_false, List.append_nil]

theorem mem_holders {d : TypeDefinition} :
    uuid ∈ holders d s ↔ ∃ g ∈ s.catalogGrants.rows,
      g.application = uuid ∧ d.catalog = some g.catalog ∧ d.component = g.component := by
  rw [holders]
  cases hcatalog : d.catalog with
  | none => simp
  | some catalog =>
      simp only [catalogGrantHolders, SortedSet.mem_toList, SortedSet.mem_ofList, List.mem_map,
        List.mem_filter, decide_eq_true_eq, Option.some.injEq]
      constructor
      · rintro ⟨g, ⟨hg, rfl, hcomponent⟩, huuid⟩
        exact ⟨g, hg, huuid, rfl, hcomponent.symm⟩
      · rintro ⟨g, hg, huuid, rfl, hcomponent⟩
        exact ⟨g, ⟨hg, rfl, hcomponent.symm⟩, huuid⟩

theorem mem_listCatalogGrants {g : CatalogGrant} :
    g ∈ s.listCatalogGrants uuid ↔ g ∈ s.catalogGrants.rows ∧ g.application = uuid := by
  rw [listCatalogGrants, List.mem_filter, decide_eq_true_eq]

end Store

open Store (SamePermissions)

theorem Store.Updates.samePermissions {s t : Store} {other uuid : String}
    {input : ApplicationInput} (h : s.Updates other input t) (hne : uuid ≠ other) :
    s.SamePermissions uuid t := by
  have hspares := (Store.spares_regrant s other input.grants).trans
    (Store.spares_updateApplication h.stored)
  have happlication := Store.application?_updateApplication h.stored hne
  obtain ⟨clients, -, ht⟩ := Store.updateApplication_ok h.stored
  obtain ⟨kept, keptOnCatalogs, hregrant⟩ := Store.regrant_eq s other input.grants
  refine .of_spares hspares hne ?_ ?_
  · rw [happlication, hregrant]
    rfl
  · rw [ht, hregrant]

/-- A write changes nothing of an application that it does not name. -/
theorem AdministrationCommand.Writes.samePermissions {command : AdministrationCommand}
    {c : Context} {s t : Store} {named : List (String × Action)} (h : command.Writes c s t named)
    (hgrants : s.grants.Ascending Grant.id)
    (hcatalogGrants : s.catalogGrants.Ascending CatalogGrant.id) {uuid : String}
    (hnot : uuid ∉ named.map (·.1)) : s.SamePermissions uuid t := by
  cases h with
  | @create other body input t read free stored =>
      have hne : uuid ≠ other := by simpa using hnot
      obtain ⟨kept, hkept⟩ := Store.addGrants_eq t other (input.grants.getD [])
      have hspares := (Store.spares_createApplication stored).trans
        (Store.spares_addGrants t other (input.grants.getD []))
      have happlication := Store.application?_createApplication stored hne
      refine .of_spares hspares hne ?_ ?_
      · rw [hkept]
        exact happlication
      · obtain ⟨_, _, -, -, rfl⟩ := Store.createApplication_ok stored
        rw [hkept]
  | replace read stored => exact stored.samePermissions (by simpa using hnot)
  | patch found read stored => exact stored.samePermissions (by simpa using hnot)
  | @delete other found =>
      have hne : uuid ≠ other := by simpa using hnot
      exact .of_spares (Store.spares_deleteApplication s other) hne
        (Store.application?_deleteApplication s hne) rfl
  | addGrant found => exact .of_spares (Store.spares_createGrant rfl) (by simpa using hnot) rfl rfl
  | revokeGrant found =>
      exact .of_spares (Store.spares_deleteGrant hgrants found) (by simpa using hnot) rfl rfl
  | addCatalogGrant found stored =>
      have hspares := Store.spares_createCatalogGrant rfl stored
      obtain ⟨rfl, rfl⟩ := Store.createCatalogGrant_ok stored
      exact .of_spares hspares (by simpa using hnot) rfl rfl
  | revokeCatalogGrant found =>
      exact .of_spares (Store.spares_deleteCatalogGrant hcatalogGrants found) (by simpa using hnot)
        rfl rfl
  | @registerTypes definitions t stored =>
      have htypes : ∀ g ∈ s.listCatalogGrants uuid,
          t.catalogTypes g.catalog g.component = s.catalogTypes g.catalog g.component := by
        intro g hg
        obtain ⟨hstored, huuid⟩ := Store.mem_listCatalogGrants.1 hg
        refine stored.catalogTypes_eq fun d hd hon => hnot ?_
        have hholds : uuid ∈ holders d s :=
          Store.mem_holders.2 ⟨g, hstored, huuid, hon.1, hon.2⟩
        exact List.mem_map.2 ⟨(uuid, .update),
          List.mem_map_of_mem (List.mem_flatMap_of_mem hd hholds), rfl⟩
      obtain ⟨types, rfl⟩ := stored.eq
      exact ⟨rfl, rfl, rfl, htypes⟩

/-! ## Views and decisions -/

theorem decisionFor_eq_verdict {i : Installation} {uuid : String} {a : Application}
    (hi : i.grantCache.Agrees i.store) (ha : i.store.application? uuid = some a)
    (r : AccessRequest) (c : Context) :
    (decisionFor uuid r c i).1 =
      .ok (r.verdict [a] i.store (c.resolution i.store i.typeCache)) := by
  have hread : decisionFor uuid r c i = r.decide (i.store.application? uuid).toList c i := rfl
  rw [hread, ha, Option.toList_some, decide_eq_verdict hi]

namespace Store.SamePermissions

variable {uuid : String} {s t : Store}

theorem view_eq (h : s.SamePermissions uuid t) (base : String) {a : Application}
    (ha : a.uuid = uuid) : t.view base a = s.view base a := by
  subst ha
  have hcatalog : (s.listCatalogGrants a.uuid).flatMap (t.viewCatalogGrant base) =
      (s.listCatalogGrants a.uuid).flatMap (s.viewCatalogGrant base) := by
    refine List.flatMap_congr fun g hg => ?_
    rw [viewCatalogGrant, viewCatalogGrant, h.types g hg]
  rw [view, view, h.explicit, h.onCatalogs, hcatalog]

/-- The same application is shown, or the same error. -/
theorem getApplication_eq {i j : Installation} (h : i.store.SamePermissions uuid j.store)
    (c : Context) : (getApplication uuid c j).1 = (getApplication uuid c i).1 := by
  have hread : ∀ k : Installation, (getApplication uuid c k).1 =
      (k.store.application? uuid).elim (.error (noApplication uuid))
        fun a => .ok (k.store.view c.settings.publicBaseUrl a) := by
    intro k
    have hreading : reading (·.application? uuid) c k = (.ok (k.store.application? uuid), k) := rfl
    rw [getApplication, Administration.application, bind_assoc, bind_of_ok hreading]
    cases k.store.application? uuid with
    | some a => rfl
    | none => rfl
  rw [hread, hread, h.application]
  cases hfound : i.store.application? uuid with
  | none => rfl
  | some a =>
      show Except.ok _ = Except.ok _
      rw [h.view_eq _ (Store.uuid_of_application? hfound)]

variable {r : AccessRequest} {c : Context} {i j : Installation} {component : Component}
  {scope : String} {a : Application}

/-- Whether a catalog of one of its grants counts for the application. -/
theorem counts_iff (h : i.store.SamePermissions uuid j.store) (hr : r.IsLocal)
    {g : CatalogGrant} (hg : g ∈ i.store.listCatalogGrants uuid) :
    r.Counts c j g.component g.catalog ↔ r.Counts c i g.component g.catalog := by
  have hread : ∀ k : Installation, r.Counts c k g.component g.catalog ↔
      (r.typeRef = none ∧ g.catalog.isRemote = true) ∨
        ∃ reference ∈ k.store.catalogTypes g.catalog g.component,
          ∀ t ∈ r.typeRef, reference = t := by
    intro k
    rw [AccessRequest.counts_of_isLocal hr]
    refine or_congr_right ⟨?_, ?_⟩
    · rintro ⟨d, hd, hcatalog, hcomponent, ht⟩
      exact ⟨d.reference, Store.mem_catalogTypes.2 ⟨d, hd, hcatalog, hcomponent, rfl⟩, ht⟩
    · rintro ⟨_, htypes, ht⟩
      obtain ⟨d, hd, hcatalog, hcomponent, rfl⟩ := Store.mem_catalogTypes.1 htypes
      exact ⟨d, hd, hcatalog, hcomponent, ht⟩
  rw [hread, hread, h.types g hg]

theorem mem_grants_iff (h : s.SamePermissions uuid t) {g : Grant} (hg : g.application = uuid) :
    g ∈ t.grants.rows ↔ g ∈ s.grants.rows := by
  have hlist : ∀ u : Store, g ∈ u.grants.rows ↔ g ∈ u.listGrants uuid := by
    intro u
    simp [listGrants, hg]
  rw [hlist, hlist, h.explicit]

theorem mem_catalogGrants_iff (h : s.SamePermissions uuid t) {g : CatalogGrant}
    (hg : g.application = uuid) : g ∈ t.catalogGrants.rows ↔ g ∈ s.catalogGrants.rows := by
  have hlist : ∀ u : Store, g ∈ u.catalogGrants.rows ↔ g ∈ u.listCatalogGrants uuid :=
    fun u => ⟨fun hmem => mem_listCatalogGrants.2 ⟨hmem, hg⟩,
      fun hmem => (mem_listCatalogGrants.1 hmem).1⟩
  rw [hlist, hlist, h.onCatalogs]

theorem provided_iff (h : i.store.SamePermissions uuid j.store) (hr : r.IsLocal)
    (ha : a.uuid = uuid) :
    r.Provided [a] c j component scope ↔ r.Provided [a] c i component scope := by
  have howner : ∀ {owner : String}, HeldBy [a] owner → owner = uuid := by
    rintro owner ⟨a', ha', rfl⟩
    rw [List.mem_singleton.1 ha', ha]
  constructor
  · intro hprovided
    cases hprovided with
    | explicit g stored held onComponent admits onType gives =>
        exact .explicit g ((h.mem_grants_iff (howner held)).1 stored) held onComponent admits
          onType gives
    | catalog g stored held onComponent admits counts gives =>
        subst onComponent
        have hstored := (h.mem_catalogGrants_iff (howner held)).1 stored
        have hg := Store.mem_listCatalogGrants.2 ⟨hstored, howner held⟩
        exact .catalog g hstored held rfl admits ((h.counts_iff hr hg).1 counts) gives
  · intro hprovided
    cases hprovided with
    | explicit g stored held onComponent admits onType gives =>
        exact .explicit g ((h.mem_grants_iff (howner held)).2 stored) held onComponent admits
          onType gives
    | catalog g stored held onComponent admits counts gives =>
        subst onComponent
        have hg := Store.mem_listCatalogGrants.2 ⟨stored, howner held⟩
        exact .catalog g ((h.mem_catalogGrants_iff (howner held)).2 stored) held rfl admits
          ((h.counts_iff hr hg).2 counts) gives

theorem entitled_iff (h : i.store.SamePermissions uuid j.store) (hr : r.IsLocal)
    (ha : a.uuid = uuid) : r.Entitled [a] c j ↔ r.Entitled [a] c i := by
  rw [AccessRequest.Entitled, AccessRequest.Entitled]
  simp only [h.provided_iff hr ha]

/-- The same decision is made for the application. -/
theorem decisionFor_eq (h : i.store.SamePermissions uuid j.store)
    (hi : i.grantCache.Agrees i.store) (hj : j.grantCache.Agrees j.store) (hr : r.IsLocal)
    (c : Context) : (decisionFor uuid r c j).1 = (decisionFor uuid r c i).1 := by
  cases hfound : i.store.application? uuid with
  | none =>
      have hread : ∀ k : Installation,
          decisionFor uuid r c k = r.decide (k.store.application? uuid).toList c k := fun _ => rfl
      rw [hread, hread, h.application, hfound]
      rfl
  | some a =>
      have ha : a.uuid = uuid := Store.uuid_of_application? hfound
      rw [decisionFor_eq_verdict hj (h.application.trans hfound),
        decisionFor_eq_verdict hi hfound, hr.verdict_congr (h.entitled_iff hr ha)]

end Store.SamePermissions

/-! ## What is announced -/

theorem Action.between_self (a : Option Application) : Action.between a a = .update := by
  cases a with
  | none => rfl
  | some a => rfl

theorem Action.between_of_isSome {before after : Option Application}
    (hbefore : before.isSome = true) (hafter : after.isSome = true) :
    Action.between before after = .update := by
  obtain ⟨a, rfl⟩ := Option.isSome_iff_exists.1 hbefore
  obtain ⟨b, rfl⟩ := Option.isSome_iff_exists.1 hafter
  rfl

namespace Store

variable {s t : Store} {uuid : String}

theorem between_createApplication {a : Application} (h : s.createApplication a = .ok t) :
    Action.between (s.application? a.uuid) (t.application? a.uuid) = .create := by
  obtain ⟨applications, clients, hadd, -, rfl⟩ := createApplication_ok h
  have hbefore : s.application? a.uuid = none := by
    have hfree : s.applications.get? a.uuid = none := Table.get?_of_add? hadd
    rw [application?, hfree]
    rfl
  have hafter := Table.get?_add? hadd a.uuid
  rw [if_pos rfl] at hafter
  rw [hbefore, application?, hafter]
  rfl

theorem isSome_updateApplication {a : Application} (h : s.updateApplication a = .ok t) :
    (t.application? uuid).isSome = (s.application? uuid).isSome := by
  obtain ⟨clients, -, rfl⟩ := updateApplication_ok h
  rw [isSome_application?, isSome_application?, Table.get?_replace, Option.isSome_map]

theorem between_deleteApplication (h : (s.application? uuid).isSome = true) :
    Action.between (s.application? uuid) ((s.deleteApplication uuid).application? uuid) =
      .destroy := by
  obtain ⟨a, ha⟩ := Option.isSome_iff_exists.1 h
  rw [ha, application?_deleteApplication_self]
  rfl

end Store

/-- A write is announced as what happened to the application. -/
theorem AdministrationCommand.Writes.action_eq {command : AdministrationCommand}
    {c : Context} {s t : Store} {named : List (String × Action)} (h : command.Writes c s t named) :
    ∀ p ∈ named, p.2 = .between (s.application? p.1) (t.application? p.1) := by
  have hupdates : ∀ {uuid : String} {input : ApplicationInput} {t : Store},
      s.Updates uuid input t →
        Action.between (s.application? uuid) (t.application? uuid) = .update := by
    intro uuid input t hupdates
    obtain ⟨kept, keptOnCatalogs, hregrant⟩ := Store.regrant_eq s uuid input.grants
    refine Action.between_of_isSome hupdates.found ?_
    rw [Store.isSome_updateApplication hupdates.stored, hregrant]
    exact hupdates.found
  cases h with
  | @create uuid body input t read free stored =>
      obtain ⟨kept, hkept⟩ := Store.addGrants_eq t uuid (input.grants.getD [])
      have hcreated := Store.between_createApplication stored
      rw [hkept]
      exact List.forall_mem_singleton.2 hcreated.symm
  | replace read stored => exact List.forall_mem_singleton.2 (hupdates stored).symm
  | patch found read stored => exact List.forall_mem_singleton.2 (hupdates stored).symm
  | delete found => exact List.forall_mem_singleton.2 (Store.between_deleteApplication found).symm
  | addGrant found => exact List.forall_mem_singleton.2 (Action.between_self _).symm
  | revokeGrant found => exact List.forall_mem_singleton.2 (Action.between_self _).symm
  | addCatalogGrant found stored =>
      obtain ⟨rfl, rfl⟩ := Store.createCatalogGrant_ok stored
      exact List.forall_mem_singleton.2 (Action.between_self _).symm
  | revokeCatalogGrant found => exact List.forall_mem_singleton.2 (Action.between_self _).symm
  | registerTypes stored =>
      obtain ⟨types, rfl⟩ := stored.eq
      intro p hp
      obtain ⟨uuid, -, rfl⟩ := List.mem_map.1 hp
      exact (Action.between_self _).symm

/-- Changes are announced as what happened to the applications, if that was recorded. -/
theorem announces_notifications {c : Context} {s t : Store} {changes : PermissionChanges}
    (h : ∀ p ∈ changes.actions.toList, p.2 = .between (s.application? p.1) (t.application? p.1)) :
    c.Announces s t changes.applications
      (changes.notifications c.settings.publicBaseUrl c.now) where
  told := by
    rw [PermissionChanges.applications, SortedMap.keys, PermissionChanges.notifications,
      List.forall₂_map_left_iff, List.forall₂_map_right_iff, List.forall₂_same]
    exact fun p hp => ⟨rfl, rfl, rfl, rfl, h p hp, rfl, rfl⟩
  once := by
    intro uuid huuid
    obtain ⟨p, hp, rfl⟩ := List.mem_map.1 huuid
    have hmain : (changes.notifications c.settings.publicBaseUrl c.now).map (·.mainObject) =
        changes.applications.map (applicationUrl c.settings.publicBaseUrl) := by
      rw [PermissionChanges.notifications, PermissionChanges.applications, SortedMap.keys,
        List.map_map, List.map_map]
      rfl
    have hdistinct : ((changes.notifications c.settings.publicBaseUrl c.now).map
        (·.mainObject)).Nodup := by
      rw [hmain]
      exact changes.actions.nodup_keys.map (applicationUrl_injective _)
    exact ⟨_, filter_eq_singleton hdistinct (List.mem_map_of_mem hp)⟩

/-- What a command announces when it ends well, in one installation that can be found
running. Of every application that is named it is told once, under an address of its own, what
happened to it; whoever has other permissions afterwards is among them; and for a batch of
types they are the holders of catalog grants on the catalogs of the batch. -/
theorem permission_changes_are_announced {i j : Installation} (h : Reachable i)
    {command : AdministrationCommand} {c : Context} (hrun : command.run c i = (.ok (), j)) :
    ∃ uuids news, j.outbox = i.outbox ++ news ∧ c.Announces i.store j.store uuids news ∧
      (∀ uuid, i.PermissionsChange j uuid → uuid ∈ uuids) ∧
      ∀ definitions, command = .registerTypes definitions → ∀ uuid, uuid ∈ uuids ↔
        ∃ g ∈ i.store.catalogGrants.rows, g.application = uuid ∧
          ∃ d ∈ definitions, d.catalog = some g.catalog ∧ d.component = g.component := by
  have hi : i.Coherent := h.coherent
  have hj : j.Coherent := by
    have hstep := (h.step (.administration command c i)).coherent
    rwa [hrun] at hstep
  obtain ⟨t, named, hwrites, rfl, houtbox⟩ := AdministrationCommand.writes_of hrun
  have hannounces := announces_notifications (c := c) fun p hp =>
    hwrites.action_eq p (PermissionChanges.mem_of_mem_ofList hp)
  refine ⟨(PermissionChanges.ofList named).applications, _, houtbox, hannounces, ?_, ?_⟩
  · intro uuid hchange
    by_contra hnot
    rw [PermissionChanges.mem_applications_ofList] at hnot
    have hsame := hwrites.samePermissions hi.grants hi.catalogGrants hnot
    rcases hchange with ⟨d, hview | ⟨r, hr, hdecision⟩⟩
    · exact hview (hsame.getApplication_eq d).symm
    · exact hdecision (hsame.decisionFor_eq hi.agrees hj.agrees hr d).symm
  · rintro definitions rfl uuid
    cases hwrites with
    | registerTypes stored =>
        rw [PermissionChanges.mem_applications_ofList, List.map_map]
        simp only [Function.comp_def, List.map_id', List.mem_flatMap, Store.mem_holders]
        constructor
        · rintro ⟨d, hd, g, hg, huuid, hon⟩
          exact ⟨g, hg, huuid, d, hd, hon⟩
        · rintro ⟨g, hg, huuid, d, hd, hon⟩
          exact ⟨d, hd, g, hg, huuid, hon⟩

/-! ## A new book -/

/-- A library from its start, which may read whatever is put on the shelf. -/
def library : Installation :=
  (AdministrationCommand.run (.addCatalogGrant shelfGrant) Context.alone
    (AdministrationCommand.run (.create "library" {
      label := "Library"
      clientIds := ["reader"]
      grants := [{ component := "ac", scopes := ["autorisaties.lezen"] }] }) Context.alone
      (.start {} {})).2).2

def book : TypeDefinition where
  reference := ⟨"book"⟩
  component := .zrc
  catalog := some ⟨"shelf"⟩

/-- The library after the type is registered. -/
def stockedLibrary : Installation :=
  ((AdministrationCommand.registerTypes [book]).run Context.alone library).2

/-- A type is registered without a word about the library, and it is told of it, and of
nothing else. -/
theorem new_book_is_announced :
    ((AdministrationCommand.registerTypes [book]).run Context.alone library).1 = .ok () ∧
      stockedLibrary.outbox = library.outbox ++ [{
        channel := "autorisaties"
        mainObject := "http://localhost/autorisaties/api/v1/applicaties/library"
        resource := "applicatie"
        resourceUrl := "http://localhost/autorisaties/api/v1/applicaties/library"
        action := .update
        created := "1970-01-01T00:00:00Z" }] := by
  have hreach : Reachable library :=
    ((Reachable.start {}).step (.administration _ _ _)).step (.administration _ _ _)
  have hok : ((AdministrationCommand.registerTypes [book]).run Context.alone library).1 =
      .ok () := by decide +kernel
  have hrun : (AdministrationCommand.registerTypes [book]).run Context.alone library =
      (.ok (), stockedLibrary) := Prod.ext hok rfl
  obtain ⟨uuids, news, houtbox, hannounces, -, hholders⟩ :=
    permission_changes_are_announced hreach hrun
  have hnamed : "library" ∈ uuids := by
    rw [hholders [book] rfl]
    decide +kernel
  have honly : ∀ g ∈ library.store.catalogGrants.rows, g.application = "library" := by
    decide +kernel
  have hkept : Action.between (library.store.application? "library")
      (stockedLibrary.store.application? "library") = .update := by decide +kernel
  have htold : ∀ n ∈ news, n.TellsOf Context.alone "library" .update := by
    intro n hn
    obtain ⟨uuid, huuid, htells⟩ := forall₂_mem_right hannounces.told hn
    obtain ⟨g, hg, rfl, -⟩ := (hholders [book] rfl uuid).1 huuid
    rw [honly g hg, hkept] at htells
    exact htells
  -- All that is told is under the address of the library, where one thing is found.
  obtain ⟨n, hn⟩ := hannounces.once "library" hnamed
  have hnews : news = [n] := by
    rw [List.filter_eq_self.2 fun n' hn' => decide_eq_true (htold n' hn').mainObject] at hn
    exact hn
  have htells := htold n (hnews ▸ List.mem_singleton_self n)
  refine ⟨hok, ?_⟩
  rw [houtbox, hnews, htells.eq]
  decide +kernel

end CaseAccess
