import CaseAccess.Config.Server
import CaseAccess.Proofs.WholeWriting

/-!
# Views that are written back

A client that changes an application reads its view, edits it and replaces the application
by it. If nothing was edited nothing should change. An application that is only written as a
whole is replaced by its own view as it should be just if each of its types can be found
again at the end of its address: a remote one always, an identifier if it can stand in a
path.

That this is enough follows from the parts: what was checked once passes its check again,
and every grant is read as itself. That it is needed follows from the decisions. A view that
stays the same is not enough, since a type that is lost can still be shown at the address at
which it was, now as a remote one. But then what was allowed on it is allowed no more.
-/

namespace CaseAccess

open Operation Administration

/-! ## The own catalog of a configuration -/

theorem withoutSlashes_withoutSlashes (base : String) :
    withoutSlashes (withoutSlashes base) = withoutSlashes base := by
  rw [withoutSlashes, withoutSlashes, String.toList_ofList, List.reverse_reverse,
    List.dropWhile_idempotent]

/-- The address of an installation has no slash at its end. -/
theorem ServerConfig.withoutSlashes_of_complete {env : Environment} {dirs : Directories}
    {given config : ServerConfig} (h : given.complete env dirs = .ok config) :
    withoutSlashes config.publicBaseUrl = config.publicBaseUrl := by
  rw [complete] at h
  obtain ⟨bind, -, h⟩ := except_of_bind_ok h
  obtain ⟨-, h⟩ := except_of_refusal_ok h
  obtain ⟨certPath, -, h⟩ := except_of_bind_ok h
  obtain ⟨keyPath, -, h⟩ := except_of_bind_ok h
  obtain ⟨-, h⟩ := except_of_refusal_ok h
  obtain ⟨-, h⟩ := except_of_refusal_ok h
  obtain ⟨publicBaseUrl, -, h⟩ := except_of_bind_ok h
  obtain ⟨_, -, h⟩ := except_of_bind_ok h
  obtain ⟨localBaseUrls, -, h⟩ := except_of_bind_ok h
  obtain ⟨authn, -, h⟩ := except_of_bind_ok h
  obtain ⟨authz, -, h⟩ := except_of_bind_ok h
  obtain ⟨guard, -, h⟩ := except_of_bind_ok h
  obtain ⟨types, -, h⟩ := except_of_bind_ok h
  obtain ⟨storage, -, h⟩ := except_of_bind_ok h
  cases h
  exact withoutSlashes_withoutSlashes publicBaseUrl

/-- The own catalog of an installation is one of its bases. -/
theorem ServerConfig.exists_isCatalog {config : ServerConfig} {bases : LocalBases}
    (hbase : withoutSlashes config.publicBaseUrl = config.publicBaseUrl)
    (hquery : '?' ∉ config.publicBaseUrl.toList) (hfragment : '#' ∉ config.publicBaseUrl.toList)
    (hbases : LocalBases.of? config.localTypeBases = .ok bases) :
    ∃ own, Url.parse (catalogBase config.publicBaseUrl) = .ok own ∧
      bases.IsCatalog (catalogBase config.publicBaseUrl).toList own := by
  have hown : catalogBase config.publicBaseUrl = config.publicBaseUrl ++ "/catalogi/api/v1/" := by
    rw [catalogBase, hbase]
  have hmem : config.publicBaseUrl ++ "/catalogi/api/v1/" ∈ config.localTypeBases := by
    simp only [localTypeBases]
    split
    · next hgiven => exact hgiven
    · simp
  obtain ⟨own, hparse, hroot⟩ := LocalBases.mem_roots hbases hmem
  have hmark : ∀ c, c ∉ "/catalogi/api/v1/".toList → c ∉ config.publicBaseUrl.toList →
      c ∉ (config.publicBaseUrl ++ "/catalogi/api/v1/").toList := by
    intro c hpath hc
    rw [String.toList_append]
    exact List.not_mem_append hc hpath
  rw [hown]
  have hends : Url.EndsInName (config.publicBaseUrl ++ "/catalogi/api/v1/").toList := by
    refine ⟨config.publicBaseUrl.toList ++ "/catalogi/api/v".toList, '1', ?_, by decide⟩
    rw [String.toList_append, List.append_assoc]
    rfl
  exact ⟨own, hparse, hends, hmark _ (by decide) hquery, hmark _ (by decide) hfragment, hparse,
    hroot⟩

/-! ## Decisions on explicit grants -/

section Decisions

variable {uuid : String} {r : AccessRequest} {c : Context} {i j : Installation}
  {component : Component} {scope : String} {a : Application} {s : Store}

/-- Where no grant is on a catalog, no type is resolved. -/
theorem verdict_cases_of_explicit (h : s.listCatalogGrants a.uuid = [])
    (resolution : TypeRef → Component → Resolution) :
    r.verdict [a] s resolution = .allow ∨
      r.verdict [a] s resolution = .deny (r.refusal [a]) := by
  refine AccessRequest.verdict_cases fun component t _ => ?_
  have hnone : (s.snapshot [a] component (some t)).catalogGrants = [] := by
    simp [Store.snapshot, Store.snapshotOf, Store.grantSets, Store.grantSet, h]
  generalize s.snapshot [a] component (some t) = snapshot at hnone
  rw [Snapshot.decideObject]
  split
  · exact .inl rfl
  · next hmissing =>
    have hpotential :
        (!r.scopes.isSubset (snapshot.potentialScopes t r.confidentiality)) = true := by
      rw [Bool.not_eq_true', ← Bool.not_eq_true, SortedSet.isSubset_iff]
      rw [SortedSet.isSubset_iff] at hmissing
      simpa only [Snapshot.mem_potentialScopes, hnone, List.not_mem_nil, false_and, exists_false,
        or_false] using hmissing
    rw [if_pos hpotential]
    exact .inr rfl

theorem provided_of_unnumbered (ha : a.uuid = uuid)
    (hgrants : (j.store.listGrants uuid).map Grant.unnumbered =
      (i.store.listGrants uuid).map Grant.unnumbered)
    (honCatalogs : i.store.listCatalogGrants uuid = [])
    (h : r.Provided [a] c i component scope) : r.Provided [a] c j component scope := by
  have howner : ∀ {owner : String}, HeldBy [a] owner → owner = uuid := by
    rintro owner ⟨a', ha', rfl⟩
    rw [List.mem_singleton.1 ha', ha]
  cases h with
  | explicit g stored held onComponent admits onType gives =>
      have hg : g ∈ i.store.listGrants uuid := Store.mem_listGrants.2 ⟨stored, howner held⟩
      have hsame : g.unnumbered ∈ (j.store.listGrants uuid).map Grant.unnumbered :=
        hgrants ▸ List.mem_map_of_mem hg
      obtain ⟨g', hg', hsame⟩ := List.mem_map.1 hsame
      obtain ⟨stored', -⟩ := Store.mem_listGrants.1 hg'
      cases g
      cases g'
      cases hsame
      exact .explicit _ stored' held onComponent admits onType gives
  | catalog g stored held onComponent admits counts gives =>
      have hg := Store.mem_listCatalogGrants.2 ⟨stored, howner held⟩
      rw [honCatalogs] at hg
      cases hg

/-- Decisions do not depend on the numbers of grants. -/
theorem decisionFor_of_unnumbered (hi : i.grantCache.Agrees i.store)
    (hj : j.grantCache.Agrees j.store) (ha : i.store.application? uuid = some a)
    (happlication : j.store.application? uuid = some a)
    (hgrants : (j.store.listGrants uuid).map Grant.unnumbered =
      (i.store.listGrants uuid).map Grant.unnumbered)
    (honCatalogs : i.store.listCatalogGrants uuid = [])
    (honCatalogs' : j.store.listCatalogGrants uuid = []) (r : AccessRequest) (c : Context) :
    (decisionFor uuid r c j).1 = (decisionFor uuid r c i).1 := by
  have huuid : a.uuid = uuid := Store.uuid_of_application? ha
  have hentitled : r.Entitled [a] c j ↔ r.Entitled [a] c i := by
    have hprovided : ∀ component scope,
        r.Provided [a] c j component scope ↔ r.Provided [a] c i component scope := fun _ _ =>
      ⟨provided_of_unnumbered huuid hgrants.symm honCatalogs',
        provided_of_unnumbered huuid hgrants honCatalogs⟩
    simp only [AccessRequest.Entitled, hprovided]
  rw [decisionFor_eq_verdict hi ha, decisionFor_eq_verdict hj happlication,
    AccessRequest.verdict_congr (verdict_cases_of_explicit (huuid.symm ▸ honCatalogs) _)
      (verdict_cases_of_explicit (huuid.symm ▸ honCatalogs') _) hentitled]

theorem entitled_of_decisionFor (hi : i.grantCache.Agrees i.store)
    (hj : j.grantCache.Agrees j.store) (ha : i.store.application? uuid = some a)
    (happlication : j.store.application? uuid = some a)
    (h : (decisionFor uuid r c j).1 = (decisionFor uuid r c i).1) (hr : r.Entitled [a] c i) :
    r.Entitled [a] c j := by
  rw [decisionFor_eq_verdict hi ha, decisionFor_eq_verdict hj happlication, Except.ok.injEq] at h
  rw [← AccessRequest.verdict_eq_allow] at hr ⊢
  rw [h, hr]

end Decisions

/-! ## The body that a view is -/

/-- Client identifiers that are stored are read as themselves. -/
theorem AreClientIds.readClientIds_toList {ids : SortedSet String} (h : AreClientIds ids) :
    clientIdRefusals ids.toList = [] ∧ readClientIds ids.toList = ids := by
  obtain ⟨⟨first, hfirst⟩, hall⟩ := h
  have htrimmed : ids.toList.map trimmed = ids.toList :=
    (List.map_congr_left fun id hid => (hall id hid).trimmed).trans (List.map_id _)
  have hblank : ¬ ids.toList.any (fun id => trimmed id = "") = true := by
    rw [List.any_eq_true]
    rintro ⟨id, hid, hempty⟩
    refine (hall id hid).notEmpty ?_
    rw [← (hall id hid).trimmed]
    exact of_decide_eq_true hempty
  constructor
  · rw [clientIdRefusals, if_neg (List.ne_nil_of_mem hfirst), if_neg hblank]
    rfl
  · rw [readClientIds, htrimmed, ids.ofList_toList]

section Bodies

variable {bases : LocalBases} {base uuid : String} {own : Url} {a : Application} {s : Store}
  {c : Context} {i j : Installation}

/-- What an application asks for that is written as its view says. -/
def Store.reread (s : Store) (bases : LocalBases) (base : String) (a : Application) :
    ApplicationInput :=
  ⟨a.clientIds, a.label, a.hasAllPermissions,
    some ((s.listGrants a.uuid).filterMap (·.reread bases base))⟩

theorem Store.HoldsWritten.body_view (h : s.HoldsWritten bases a.uuid) :
    (s.view base a).body = ⟨a.clientIds.toList, a.label, a.hasAllPermissions,
      (s.listGrants a.uuid).map fun g => (g.view base).body⟩ := by
  simp [Store.view, ApplicationView.body, h.onCatalogs, Function.comp_def]

/-- The view of an application is read as a body if each of its grants can be. -/
theorem Store.HoldsWritten.read_body (h : s.HoldsWritten bases a.uuid)
    (ha : s.application? a.uuid = some a) (hids : AreClientIds a.clientIds)
    {input : ApplicationInput} :
    (s.view base a).body.read bases = .ok input ↔
      (∀ g ∈ s.listGrants a.uuid, (g.reread bases base).isSome = true) ∧
        input = s.reread bases base a := by
  obtain ⟨hfree, hread⟩ := hids.readClientIds_toList
  have hboth : a.hasAllPermissions = true ↔ (s.listGrants a.uuid).map
      (fun g => (g.view base).body) = [] := by
    rw [List.map_eq_nil_iff, (Store.exclusive_of_some ha).1 h.exclusive,
      Store.hasGrants_eq_false, and_iff_left h.onCatalogs]
  rw [h.body_view, ApplicationBody.read_eq_ok]
  simp only [hfree, hread, h.label a ha, hboth, grantRefusals_view h.grants,
    acceptedGrants_view h.grants, true_and, Store.reread]

/-! ## Replacing an application by its own view -/

theorem getApplication_ok {view : ApplicationView} (h : (getApplication uuid c i).1 = .ok view) :
    ∃ a, i.store.application? uuid = some a ∧
      view = i.store.view c.settings.publicBaseUrl a := by
  cases ha : i.store.application? uuid with
  | none =>
      have hreading : reading (·.application? uuid) c i = (.ok none, i) := by rw [← ha]; rfl
      rw [getApplication, application, bind_assoc, bind_of_ok hreading] at h
      cases h
  | some a =>
      rw [getApplication, bind_of_ok (application_of_some ha)] at h
      cases h
      exact ⟨a, rfl, rfl⟩

/-- Numbers and holders of grants are not shown. -/
theorem map_view_of_unnumbered {stored grants : List Grant}
    (h : stored.map Grant.unnumbered = grants.map (·.heldBy uuid)) :
    stored.map (·.view base) = grants.map (·.view base) := by
  have hview := congrArg (List.map (Grant.view base)) h
  rwa [List.map_map, List.map_map] at hview

theorem map_heldBy_listGrants (s : Store) (uuid : String) :
    ((s.listGrants uuid).map (·.heldBy "")).map (·.heldBy uuid) =
      (s.listGrants uuid).map Grant.unnumbered := by
  rw [List.map_map]
  refine List.map_congr_left fun g hg => ?_
  rw [← (Store.mem_listGrants.1 hg).2]
  rfl

/-- The application is afterwards as it was, up to the numbers of its grants. -/
structure Store.Rewritten (s : Store) (a : Application) (t : Store) : Prop where
  application : t.application? a.uuid = some a
  grants : (t.listGrants a.uuid).map Grant.unnumbered =
    (s.listGrants a.uuid).map Grant.unnumbered
  onCatalogs : t.listCatalogGrants a.uuid = []

theorem Store.Rewritten.view_eq {t : Store} (h : s.Rewritten a t)
    (honCatalogs : s.listCatalogGrants a.uuid = []) : t.view base a = s.view base a := by
  have hgrants := congrArg (List.map (Grant.view base)) h.grants
  rw [List.map_map, List.map_map] at hgrants
  have hshown : (t.listGrants a.uuid).map (·.view base) =
      (s.listGrants a.uuid).map (·.view base) := hgrants
  simp only [Store.view, hshown, h.onCatalogs, honCatalogs, List.flatMap_nil]

theorem Store.Updates.reread {t : Store}
    (h : s.Updates a.uuid (s.reread bases base a) t) :
    t.application? a.uuid = some a ∧ t.listCatalogGrants a.uuid = [] ∧
      (t.listGrants a.uuid).map Grant.unnumbered =
        ((s.listGrants a.uuid).filterMap (·.reread bases base)).map (·.heldBy a.uuid) := by
  obtain ⟨hgrants, honCatalogs⟩ := h.unnumbered rfl
  exact ⟨h.application, honCatalogs, hgrants⟩

/-- If every type comes back, an application is written back by its own view. -/
theorem exists_written_back (hi : i.store.Consistent) (hs : i.store.HoldsWritten c.bases a.uuid)
    (ha : i.store.application? a.uuid = some a)
    (hcatalog : c.bases.IsCatalog (catalogBase c.settings.publicBaseUrl).toList own)
    (hreturn : ∀ g ∈ i.store.listGrants a.uuid, g.CanReturn c.settings.publicBaseUrl own) :
    ∃ j, replaceApplication a.uuid (i.store.view c.settings.publicBaseUrl a).body c i =
        (.ok (i.store.view c.settings.publicBaseUrl a), j) ∧ i.store.Rewritten a j.store := by
  generalize hbase : c.settings.publicBaseUrl = base at *
  have hself : ∀ g ∈ i.store.listGrants a.uuid, g.reread c.bases base = some (g.heldBy "") :=
    fun g hg => (Grant.reread_eq_self_iff hcatalog (hs.grants g hg)).2 (hreturn g hg)
  have hall : (i.store.listGrants a.uuid).filterMap (·.reread c.bases base) =
      (i.store.listGrants a.uuid).map (·.heldBy "") := by
    rw [← List.filterMap_eq_map]
    exact List.filterMap_congr hself
  have hread : (i.store.view base a).body.read c.bases = .ok (i.store.reread c.bases base a) :=
    (hs.read_body ha (hi.areClientIds ha)).2 ⟨fun g hg => by rw [hself g hg]; rfl, rfl⟩
  have hends : EndsWell c i (update a.uuid (i.store.reread c.bases base a)) :=
    exists_update (by rw [ha]; rfl) (hi.ownerRefusals_own ha) fun hnone => nomatch hnone
  obtain ⟨view, j, hrun⟩ := hends
  obtain ⟨t, hupdates, hchanges, rfl⟩ := update_ok hrun
  obtain ⟨happlication, honCatalogs, hgrants⟩ := hupdates.reread
  rw [hall, map_heldBy_listGrants] at hgrants
  have hrewritten : i.store.Rewritten a t := ⟨happlication, hgrants, honCatalogs⟩
  have hview : t.view c.settings.publicBaseUrl
      ((i.store.reread c.bases base a).application a.uuid) = i.store.view base a := by
    rw [hbase]
    exact hrewritten.view_eq hs.onCatalogs
  rw [hview] at hrun
  exact ⟨j, replaceApplication_ok.2 ⟨_, hread, hrun⟩, hchanges.store ▸ hrewritten⟩

/-- What is read of each member of a list, if all of it is read. -/
theorem forall_of_map_filterMap {α β γ : Type} {f : α → Option β} {k : β → γ} {m : α → γ}
    {l : List α} (hsome : ∀ x ∈ l, (f x).isSome = true)
    (h : (l.filterMap f).map k = l.map m) : ∀ x ∈ l, ∀ y, f x = some y → k y = m x := by
  induction l with
  | nil => exact fun _ hx => nomatch hx
  | cons x rest ih =>
      obtain ⟨y, hy⟩ := Option.isSome_iff_exists.1 (hsome x List.mem_cons_self)
      rw [List.filterMap_cons_some hy, List.map_cons, List.map_cons] at h
      obtain ⟨hhead, htail⟩ := List.cons.inj h
      refine List.forall_mem_cons.2 ⟨fun y' hy' => ?_, ?_⟩
      · rw [hy] at hy'
        cases hy'
        exact hhead
      · exact ih (fun x' hx' => hsome x' (List.mem_cons_of_mem _ hx')) htail

/-- What a grant allows on its type is still allowed only if a grant on that type is there. -/
theorem exists_grant_of_decisionFor (hs : i.store.HoldsWritten bases a.uuid)
    (ha : i.store.application? a.uuid = some a)
    (happlication : j.store.application? a.uuid = some a)
    (honCatalogs : j.store.listCatalogGrants a.uuid = [])
    (hagrees : i.grantCache.Agrees i.store) (hagrees' : j.grantCache.Agrees j.store)
    (hsame : ∀ r, (decisionFor a.uuid r c j).1 = (decisionFor a.uuid r c i).1)
    {g : Grant} (hg : g ∈ i.store.listGrants a.uuid) {r : TypeRef} (htype : g.typeRef = some r)
    (hlocal : r.isRemote = false) :
    ∃ g' ∈ j.store.listGrants a.uuid, g'.component = g.component ∧ g'.typeRef = some r := by
  have hflag : a.hasAllPermissions = false := by
    have hboth := (Store.exclusive_of_some ha).1 hs.exclusive
    rw [Store.hasGrants_of_mem hg] at hboth
    simpa using hboth
  obtain ⟨scope, hscope⟩ := List.exists_mem_of_ne_nil _ (hs.grants g hg).scopes
  have hadmits : Admits g.ceiling g.ceiling := fun l hl => ⟨l, hl, le_rfl⟩
  have hbefore : (AccessRequest.onType g.component g.scopes r g.ceiling).Entitled [a] c i :=
    (entitled_onType_iff hflag ⟨scope, hscope⟩).2 fun _ hgiven =>
      (provided_onType_iff hlocal).2 (.inl ⟨g, hg, rfl, htype, hadmits, hgiven⟩)
  have hafter := entitled_of_decisionFor hagrees hagrees' ha happlication (hsame _) hbefore
  have hprovided := (entitled_onType_iff hflag ⟨scope, hscope⟩).1 hafter scope hscope
  rw [provided_onType_iff hlocal, honCatalogs] at hprovided
  rcases hprovided with ⟨g', hg', hcomponent, htype', -, -⟩ | ⟨g', hg', -⟩
  · exact ⟨g', hg', hcomponent, htype'⟩
  · cases hg'

/-- If an application is written back by its own view and decided for as before, every type
comes back. -/
theorem canReturn_of_written_back (hi : i.store.Consistent)
    (hs : i.store.HoldsWritten c.bases a.uuid)
    (ha : i.store.application? a.uuid = some a)
    (hcatalog : c.bases.IsCatalog (catalogBase c.settings.publicBaseUrl).toList own)
    (hagrees : i.grantCache.Agrees i.store) (hagrees' : j.grantCache.Agrees j.store)
    (hrun : replaceApplication a.uuid (i.store.view c.settings.publicBaseUrl a).body c i =
      (.ok (i.store.view c.settings.publicBaseUrl a), j))
    (hsame : ∀ r, (decisionFor a.uuid r c j).1 = (decisionFor a.uuid r c i).1) :
    ∀ g ∈ i.store.listGrants a.uuid, g.CanReturn c.settings.publicBaseUrl own := by
  generalize hbase : c.settings.publicBaseUrl = base at *
  obtain ⟨input, hread, hrun⟩ := replaceApplication_ok.1 hrun
  obtain ⟨hsome, rfl⟩ := (hs.read_body ha (hi.areClientIds ha)).1 hread
  obtain ⟨t, hupdates, hchanges, hview⟩ := update_ok hrun
  obtain ⟨happlication, honCatalogs, hgrants⟩ := hupdates.reread
  rw [hbase] at hview
  have hview : i.store.view base a = t.view base a := hview
  have hviews : ∀ g ∈ i.store.listGrants a.uuid, ∀ g', g.reread c.bases base = some g' →
      g'.view base = g.view base := by
    have hshown := congrArg ApplicationView.grants hview
    simp only [Store.view, hs.onCatalogs, honCatalogs, List.flatMap_nil, List.append_nil] at hshown
    exact forall_of_map_filterMap hsome ((map_view_of_unnumbered hgrants).symm.trans hshown.symm)
  intro g hg r htype
  cases hlocal : r.isRemote with
  | true => exact .inl rfl
  | false =>
      obtain ⟨g', hg', hcomponent, htype'⟩ := exists_grant_of_decisionFor hs ha
        (hchanges.store ▸ happlication) (hchanges.store ▸ honCatalogs) hagrees hagrees' hsame hg
        htype hlocal
      -- That grant was read where some grant is shown, so `r` comes back from its address.
      have hback : c.bases.read (typeUrl base g.component r) = .ok r := by
        rw [hchanges.store] at hg'
        have hmem : g'.unnumbered ∈ (t.listGrants a.uuid).map Grant.unnumbered :=
          List.mem_map_of_mem hg'
        rw [hgrants] at hmem
        obtain ⟨read, hread, hstored⟩ := List.mem_map.1 hmem
        obtain ⟨shown, hshown, hreread⟩ := List.mem_filterMap.1 hread
        have hcomponent' : read.component = g'.component := (congrArg Grant.component hstored :)
        have hreadType : read.typeRef = g'.typeRef := (congrArg Grant.typeRef hstored :)
        rw [← hcomponent, ← hcomponent', Grant.component_reread hreread]
        exact Grant.read_of_reread hreread (hs.grants shown hshown) (hviews shown hshown _ hreread)
          (hreadType.trans htype')
      obtain ⟨field, text, -, htext⟩ := (hs.grants g hg).read_type htype
      have hreturns := (read_typeUrl_iff g.component hcatalog htext).1 hback
      rwa [hlocal] at hreturns

end Bodies

theorem Reachable.replaced {uuid : String} {body : ApplicationBody} {view : ApplicationView}
    {c : Context} {i j : Installation} (h : Reachable i)
    (hrun : replaceApplication uuid body c i = (.ok view, j)) : Reachable j := by
  have hstep := h.step (.administration (.replace uuid body) c i)
  have hj : ((AdministrationCommand.replace uuid body).run c i).2 = j := by
    rw [AdministrationCommand.run, Operation.forget, bind_of_ok hrun]
    rfl
  rwa [hj] at hstep

/-- In every history in which an application is only created, replaced and patched, with the
bases of its installation, its view is decoded to a body. Replacing the application by that
body goes through, shows the same view and changes no decision just if each type that it
holds a grant on is remote or can be found again at the end of its address. -/
theorem view_written_back {env : Environment} {dirs : Directories} {given config : ServerConfig}
    (hconfig : given.complete env dirs = .ok config)
    (hquery : '?' ∉ config.publicBaseUrl.toList) (hfragment : '#' ∉ config.publicBaseUrl.toList)
    {bases : LocalBases} (hbases : LocalBases.of? config.localTypeBases = .ok bases)
    {uuid : String} {i : Installation}
    (h : ReachableBy (AdministrationCommand.WritesWhole bases uuid) i) {c : Context}
    (hc : c.bases = bases) (hbase : c.settings.publicBaseUrl = config.publicBaseUrl)
    {view : ApplicationView} (hview : (getApplication uuid c i).1 = .ok view) :
    ∃ body own, ApplicationBody.layout.decode view.toJson = some body ∧
      Url.parse (catalogBase config.publicBaseUrl) = .ok own ∧
      ((∃ j, replaceApplication uuid body c i = (.ok view, j) ∧
        ∀ r d, (decisionFor uuid r d j).1 = (decisionFor uuid r d i).1) ↔
      ∀ g ∈ i.store.listGrants uuid, g.CanReturn config.publicBaseUrl own) := by
  obtain ⟨a, ha, rfl⟩ := getApplication_ok hview
  have huuid : a.uuid = uuid := Store.uuid_of_application? ha
  subst huuid hc
  obtain ⟨own, hparse, hcatalog⟩ := ServerConfig.exists_isCatalog
    (ServerConfig.withoutSlashes_of_complete hconfig) hquery hfragment hbases
  rw [← hbase] at hcatalog
  have hi := h.reachable.consistent
  have hs := h.holdsWritten
  have hagrees := h.reachable.coherent.agrees
  refine ⟨_, own, ApplicationView.decode_toJson _, hparse, ?_, fun hreturn => ?_⟩
  · rintro ⟨j, hrun, hsame⟩
    have hagrees' := (h.reachable.replaced hrun).coherent.agrees
    have hreturn := canReturn_of_written_back hi hs ha hcatalog hagrees hagrees' hrun
      fun r => hsame r c
    rwa [hbase] at hreturn
  · rw [← hbase] at hreturn
    obtain ⟨j, hrun, hrewritten⟩ := exists_written_back hi hs ha hcatalog hreturn
    have hagrees' := (h.reachable.replaced hrun).coherent.agrees
    exact ⟨j, hrun, decisionFor_of_unnumbered hagrees hagrees' ha hrewritten.application
      hrewritten.grants hs.onCatalogs hrewritten.onCatalogs⟩

/-! ## A bureau with a grant on one type -/

/-- The configuration that an empty document stands for. -/
def bareConfig : ServerConfig where
  certPath := "/keys/server.crt"
  keyPath := "/keys/server.key"
  storage := { file := { path := "/data/zgw-authz.db" } }

theorem complete_bareConfig :
    ({} : ServerConfig).complete (fun _ => none) ⟨"/config", "/data", "/keys"⟩ =
      .ok bareConfig := by
  have hsome : (({} : ServerConfig).complete (fun _ => none)
      ⟨"/config", "/data", "/keys"⟩).toOption = some bareConfig := by decide +kernel
  cases hcomplete : ({} : ServerConfig).complete (fun _ => none) ⟨"/config", "/data", "/keys"⟩ with
  | ok config =>
      rw [hcomplete] at hsome
      exact congrArg Except.ok (Option.some.inj hsome)
  | error e =>
      rw [hcomplete] at hsome
      cases hsome

/-- The own catalog is all that is held there. -/
def bareBases : LocalBases := ⟨["http://localhost:8000/catalogi/api/v1/".toList]⟩

def Context.bare : Context :=
  { Context.alone with settings := bareConfig.settings, bases := bareBases }

/-- A bureau that may look at cases of one type. -/
def bureau (key : String) : Installation :=
  ((AdministrationCommand.create "bureau" {
    label := "Bureau"
    clientIds := ["clerk"]
    grants := [{
      component := "zrc"
      scopes := ["zaken.lezen"]
      types := { zaaktype := some key }
      ceiling := some "openbaar" }] }).run Context.bare (.start bareConfig {})).2

def bureauView (key : String) : ApplicationView where
  url := "http://localhost:8000/autorisaties/api/v1/applicaties/bureau"
  uuid := "bureau"
  clientIds := ["clerk"]
  label := "Bureau"
  hasAllPermissions := false
  grants := [{
    component := "zrc"
    scopes := ["zaken.lezen"]
    types := { zaaktype := some ("http://localhost:8000/catalogi/api/v1/zaaktypen/" ++ key) }
    ceiling := some "openbaar" }]

theorem bureau_writtenWhole (key : String) :
    ReachableBy (AdministrationCommand.WritesWhole bareBases "bureau") (bureau key) :=
  .administration (.start bareConfig) fun _ => rfl

/-- A type with a plain identifier comes back. -/
theorem bureau_written_back :
    ∃ j, replaceApplication "bureau" (bureauView "permit").body Context.bare (bureau "permit") =
        (.ok (bureauView "permit"), j) ∧
      ∀ r d, (decisionFor "bureau" r d j).1 = (decisionFor "bureau" r d (bureau "permit")).1 := by
  have hquery : '?' ∉ bareConfig.publicBaseUrl.toList := by decide +kernel
  have hfragment : '#' ∉ bareConfig.publicBaseUrl.toList := by decide +kernel
  have hbases : LocalBases.of? bareConfig.localTypeBases = .ok bareBases := by decide +kernel
  have hview : (getApplication "bureau" Context.bare (bureau "permit")).1 =
      .ok (bureauView "permit") := by decide +kernel
  obtain ⟨body, own, hbody, hown, hiff⟩ := view_written_back complete_bareConfig hquery hfragment
    hbases (bureau_writtenWhole "permit") rfl rfl hview
  have hparsed : Url.parse (catalogBase bareConfig.publicBaseUrl) =
      .ok ⟨"http".toList, some "localhost:8000".toList,
        .segments ["catalogi".toList, "api".toList, "v1".toList, []], none, none⟩ := by
    decide +kernel
  have hgrants : (bureau "permit").store.listGrants "bureau" = [⟨1, "bureau", .zrc,
      ScopeSet.single "zaken.lezen", some ⟨"permit"⟩, some .openbaar⟩] := by decide +kernel
  rw [ApplicationView.decode_toJson] at hbody
  cases hbody
  have hown := Except.ok.inj (hparsed.symm.trans hown)
  subst hown
  rw [hgrants] at hiff
  refine hiff.2 (List.forall_mem_singleton.2 ?_)
  rintro _ ⟨⟩
  exact .inr ⟨by decide +kernel, by decide +kernel, by decide +kernel⟩

/-- A request for the cases of one type. -/
def lookAt (key : String) : AccessRequest :=
  .onType .zrc (ScopeSet.single "zaken.lezen") ⟨key⟩ (some .openbaar)

/-- A type with a slash in its identifier is read as another one, and its cases can be looked
at no more. -/
theorem bureau_moved :
    ({} : ServerConfig).complete (fun _ => none) ⟨"/config", "/data", "/keys"⟩ = .ok bareConfig ∧
      LocalBases.of? bareConfig.localTypeBases = .ok Context.bare.bases ∧
      ReachableBy (AdministrationCommand.WritesWhole bareBases "bureau") (bureau "permits/2024") ∧
      (getApplication "bureau" Context.bare (bureau "permits/2024")).1 =
        .ok (bureauView "permits/2024") ∧
      ApplicationBody.layout.decode (bureauView "permits/2024").toJson =
        some (bureauView "permits/2024").body ∧
      ∃ j, replaceApplication "bureau" (bureauView "permits/2024").body Context.bare
          (bureau "permits/2024") = (.ok (bureauView "2024"), j) ∧
        bureauView "2024" ≠ bureauView "permits/2024" ∧
        (decisionFor "bureau" (lookAt "permits/2024") Context.bare (bureau "permits/2024")).1 =
          .ok .allow ∧
        (decisionFor "bureau" (lookAt "permits/2024") Context.bare j).1 =
          .ok (.deny .scopesNotGranted) := by
  have hmoved : (replaceApplication "bureau" (bureauView "permits/2024").body Context.bare
      (bureau "permits/2024")).1 = .ok (bureauView "2024") := by decide +kernel
  refine ⟨complete_bareConfig, by decide +kernel, bureau_writtenWhole _, by decide +kernel,
    ApplicationView.decode_toJson _, (replaceApplication "bureau"
      (bureauView "permits/2024").body Context.bare (bureau "permits/2024")).2, ?_, ?_, ?_, ?_⟩
  · rw [← hmoved]
  · decide +kernel
  · decide +kernel
  · decide +kernel

end CaseAccess
