import CaseAccess.Proofs.NoServerFault
import CaseAccess.Proofs.PermissionNotice
import CaseAccess.Proofs.RemoteCatalog

/-!
# Revoking a grant and adding it again

A grant that was revoked can be added again as it was given back. It gets another
number and is listed last, but every request is decided as before, down to the reason
of a denial, whatever is looked up between the two operations.

A decision compares the scopes that were asked for with the scopes that grants give, so
it reads a list of grants only as the set of its members, and nothing of a grant but
its terms, which are all but its number. `SameTerms` says that two stores hold grants on
the same terms, and that is enough for one verdict. Both operations go through: an
installation that can be found running has the application of every grant it holds, and
no second grant on the target of a catalog grant.
-/

namespace CaseAccess

open Operation

/-! ## Terms -/

/-- All that is agreed by a grant. -/
def Grant.terms (g : Grant) : Grant := { g with id := 0 }

/-- All that is agreed by a catalog grant. -/
def CatalogGrant.terms (g : CatalogGrant) : CatalogGrant := { g with id := 0 }

/-- The stores hold the same types, and grants on the same terms. -/
structure Store.SameTerms (s t : Store) : Prop where
  types : t.types = s.types
  grants : ∀ terms, terms ∈ t.grants.rows.map Grant.terms ↔ terms ∈ s.grants.rows.map Grant.terms
  catalogGrants : ∀ terms, terms ∈ t.catalogGrants.rows.map CatalogGrant.terms ↔
    terms ∈ s.catalogGrants.rows.map CatalogGrant.terms

/-- What depends on the image of a member only, a member of one list has just when a
member of the other has it. -/
theorem exists_congr_of_image {α : Type} {f : α → α} {l l' : List α}
    (h : ∀ b, b ∈ l'.map f ↔ b ∈ l.map f) {P : α → Prop} (hP : ∀ a, P a ↔ P (f a)) :
    (∃ a ∈ l', P a) ↔ ∃ a ∈ l, P a := by
  have himage : ∀ m : List α, (∃ a ∈ m, P a) ↔ ∃ b ∈ m.map f, P b := by
    intro m
    constructor
    · rintro ⟨a, ha, hholds⟩
      exact ⟨f a, List.mem_map_of_mem ha, (hP a).1 hholds⟩
    · rintro ⟨b, hb, hholds⟩
      obtain ⟨a, ha, rfl⟩ := List.mem_map.1 hb
      exact ⟨a, ha, (hP a).2 hholds⟩
  rw [himage l', himage l]
  simp only [h]

namespace Store.SameTerms

variable {s t : Store} (h : s.SameTerms t) {applications : List Application}
  {component : Component} {typeRef : TypeRef} {level : Option Confidentiality} {scope : String}

include h

theorem exists_grant {P : Grant → Prop} (hP : ∀ g, P g ↔ P g.terms) :
    (∃ g ∈ t.grants.rows, P g) ↔ ∃ g ∈ s.grants.rows, P g :=
  exists_congr_of_image h.grants hP

theorem exists_catalogGrant {P : CatalogGrant → Prop} (hP : ∀ g, P g ↔ P g.terms) :
    (∃ g ∈ t.catalogGrants.rows, P g) ↔ ∃ g ∈ s.catalogGrants.rows, P g :=
  exists_congr_of_image h.catalogGrants hP

theorem isPopulated_eq : t.isPopulated component = s.isPopulated component := by
  funext catalog
  rw [Store.isPopulated, Store.isPopulated, Store.catalogTypes, Store.catalogTypes, h.types]

theorem mem_explicitScopes {asked : Option TypeRef} :
    scope ∈ (t.snapshot applications component asked).explicitScopes typeRef level ↔
      scope ∈ (s.snapshot applications component asked).explicitScopes typeRef level := by
  simp only [Snapshot.mem_explicitScopes, Store.mem_grants_snapshot, and_assoc]
  exact h.exists_grant fun _ => Iff.rfl

theorem mem_potentialScopes {asked : Option TypeRef} :
    scope ∈ (t.snapshot applications component asked).potentialScopes typeRef level ↔
      scope ∈ (s.snapshot applications component asked).potentialScopes typeRef level := by
  simp only [Snapshot.mem_potentialScopes, h.mem_explicitScopes,
    Store.mem_catalogGrants_snapshot, and_assoc]
  exact or_congr_right (h.exists_catalogGrant fun _ => Iff.rfl)

theorem mem_scopesIn {asked : Option TypeRef} {catalog : TypeRef} :
    scope ∈ (t.snapshot applications component asked).scopesIn typeRef level catalog ↔
      scope ∈ (s.snapshot applications component asked).scopesIn typeRef level catalog := by
  simp only [Snapshot.mem_scopesIn, h.mem_explicitScopes, Store.mem_catalogGrants_snapshot,
    and_assoc]
  exact or_congr_right (h.exists_catalogGrant fun _ => Iff.rfl)

theorem mem_componentScopes {asked : Option TypeRef} :
    scope ∈ (t.snapshot applications component asked).componentScopes level ↔
      scope ∈ (s.snapshot applications component asked).componentScopes level := by
  have hpopulated : ∀ catalog,
      catalog ∈ (t.snapshot applications component asked).populated ↔
        catalog ∈ (s.snapshot applications component asked).populated := by
    intro catalog
    simp only [Store.mem_populated_snapshot, Store.mem_catalogGrants_snapshot, and_assoc,
      h.isPopulated_eq]
    exact and_congr_left' (h.exists_catalogGrant fun _ => Iff.rfl)
  simp only [Snapshot.mem_componentScopes, Store.mem_grants_snapshot,
    Store.mem_catalogGrants_snapshot, and_assoc, hpopulated]
  exact or_congr (h.exists_grant fun _ => Iff.rfl) (h.exists_catalogGrant fun _ => Iff.rfl)

end Store.SameTerms

/-! ## Verdicts -/

theorem isSubset_congr {given given' : ScopeSet} (h : ∀ scope, scope ∈ given' ↔ scope ∈ given)
    (required : ScopeSet) : required.isSubset given' = required.isSubset given := by
  rw [Bool.eq_iff_iff, SortedSet.isSubset_iff, SortedSet.isSubset_iff]
  simp only [h]

section Verdicts

variable {s t : Store} (h : s.SameTerms t) (applications : List Application)
  (component : Component) (required : ScopeSet) (level : Option Confidentiality)

include h

theorem Store.SameTerms.decideComponent_eq :
    (t.snapshot applications component none).decideComponent required level =
      (s.snapshot applications component none).decideComponent required level := by
  rw [Snapshot.decideComponent, Snapshot.decideComponent, Snapshot.covering, Snapshot.covering,
    isSubset_congr fun _ => h.mem_componentScopes]

theorem Store.SameTerms.decideObject_eq (typeRef : TypeRef) (resolution : Resolution) :
    (t.snapshot applications component (some typeRef)).decideObject (m := Id) required typeRef
        level resolution =
      (s.snapshot applications component (some typeRef)).decideObject (m := Id) required typeRef
        level resolution := by
  have hresolved :
      (t.snapshot applications component (some typeRef)).decideResolved required typeRef level
          resolution =
        (s.snapshot applications component (some typeRef)).decideResolved required typeRef level
          resolution := by
    cases resolution with
    | error why => rfl
    | ok d =>
        simp only [Snapshot.decideResolved]
        cases d.catalog with
        | none => rfl
        | some catalog =>
            show Snapshot.covering _ _ = Snapshot.covering _ _
            rw [Snapshot.covering, Snapshot.covering, isSubset_congr fun _ => h.mem_scopesIn]
  have hunfold : ∀ u : Snapshot, u.decideObject (m := Id) required typeRef level resolution =
      if required.isSubset (u.explicitScopes typeRef level) then .allow
      else if !required.isSubset (u.potentialScopes typeRef level) then .deny .scopesNotGranted
      else u.decideResolved required typeRef level resolution := fun _ => rfl
  rw [hunfold, hunfold, hresolved, isSubset_congr fun _ => h.mem_explicitScopes,
    isSubset_congr fun _ => h.mem_potentialScopes]

/-- Where grants are held on the same terms and the type resolves alike, the verdict is
the same. -/
theorem Store.SameTerms.verdict_eq (r : AccessRequest) {resolution resolution' : TypeRef →
    Component → Resolution} (hresolution : ∀ typeRef component, r.typeRef = some typeRef →
      r.component = some component → resolution' typeRef component = resolution typeRef component) :
    r.verdict applications t resolution' = r.verdict applications s resolution := by
  rw [AccessRequest.verdict, AccessRequest.verdict]
  cases hcomponent : r.component with
  | none => rfl
  | some component =>
      cases htype : r.typeRef with
      | none => simp only [h.decideComponent_eq]
      | some typeRef => simp only [h.decideObject_eq, hresolution typeRef component htype hcomponent]

end Verdicts

/-- Requests are decided as in the other installation, wherever their types resolve as
there. -/
def Installation.DecidesLike (j i : Installation) : Prop :=
  ∀ (r : AccessRequest) (applications : List Application) (c c' : Context),
    (∀ typeRef component, r.typeRef = some typeRef → r.component = some component →
      typeRef.isRemote = true →
        (resolveType typeRef component c' j).1 = (resolveType typeRef component c i).1) →
    ∃ d, (r.decide applications c i).1 = .ok d ∧ (r.decide applications c' j).1 = .ok d

theorem Store.SameTerms.decidesLike {i j : Installation} (h : i.store.SameTerms j.store)
    (hi : i.Coherent) (hj : j.Coherent) : j.DecidesLike i := by
  intro r applications c c' hremote
  refine ⟨_, decide_eq_verdict hi.agrees r applications c, ?_⟩
  rw [decide_eq_verdict hj.agrees]
  refine congrArg Except.ok (h.verdict_eq applications r fun typeRef component htype hcomponent => ?_)
  cases hfar : typeRef.isRemote with
  | true =>
      have hsame := hremote typeRef component htype hcomponent hfar
      exact resolveType_eq_ok.1 (hsame.trans (resolveType_eq_ok.2 rfl))
  | false => rw [resolution_of_local hfar, resolution_of_local hfar, Store.type?, Store.type?, h.types]

/-! ## Rows that are removed and added again -/

section Readded

variable {α β : Type} {id : α → Nat} {t : Numbered α} {a : α}

/-- A row that is removed and added under another number leaves every image but that of
its number as it was. -/
theorem Numbered.Ascending.mem_map_readded (h : t.Ascending id) (ha : a ∈ t.rows) {f : α → β}
    {again : Nat → α} (hagain : f (again (t.filter (id · ≠ id a)).next) = f a) (b : β) :
    b ∈ ((t.filter (id · ≠ id a)).add again).rows.map f ↔ b ∈ t.rows.map f := by
  rw [Numbered.add, List.map_append, List.mem_append, List.map_singleton, List.mem_singleton,
    hagain, List.mem_map, List.mem_map]
  constructor
  · rintro (⟨x, hx, rfl⟩ | rfl)
    · exact ⟨x, (List.mem_filter.1 hx).1, rfl⟩
    · exact ⟨a, ha, rfl⟩
  · rintro ⟨x, hx, rfl⟩
    by_cases hid : id x = id a
    · exact .inr (by rw [h.eq_of_id hx ha hid])
    · exact .inl ⟨x, List.mem_filter.2 ⟨hx, by simpa using hid⟩, rfl⟩

/-- A row is found by its number. -/
theorem Numbered.Ascending.find? (h : t.Ascending id) (ha : a ∈ t.rows) :
    t.rows.find? (id · = id a) = some a := by
  cases hfound : t.rows.find? (id · = id a) with
  | none =>
      have hnone := List.find?_eq_none.1 hfound a ha
      simp at hnone
  | some b =>
      have hid : id b = id a := by simpa using List.find?_some hfound
      rw [h.eq_of_id (List.mem_of_find?_eq_some hfound) ha hid]

end Readded

namespace Store

variable {s : Store}

theorem SameTerms.of_grant {g : Grant} (hs : s.grants.Ascending Grant.id)
    (hg : g ∈ s.grants.rows) : s.SameTerms ((s.deleteGrant g.id).createGrant g).2 where
  types := rfl
  grants := hs.mem_map_readded hg rfl
  catalogGrants _ := Iff.rfl

theorem SameTerms.of_catalogGrant {g g' : CatalogGrant} {t : Store}
    (hs : s.catalogGrants.Ascending CatalogGrant.id) (hg : g ∈ s.catalogGrants.rows)
    (hcreate : (s.deleteCatalogGrant g.id).createCatalogGrant g = .ok (g', t)) :
    s.SameTerms t := by
  rw [createCatalogGrant] at hcreate
  split at hcreate
  · cases hcreate
  · cases hcreate
    exact ⟨rfl, fun _ => Iff.rfl, hs.mem_map_readded hg rfl⟩

theorem sameTarget_comm (g h : CatalogGrant) : sameTarget g h = sameTarget h g := by
  rw [sameTarget, sameTarget, decide_eq_decide]
  constructor
  · rintro ⟨happlication, hcomponent, hcatalog⟩
    exact ⟨happlication.symm, hcomponent.symm, hcatalog.symm⟩
  · rintro ⟨happlication, hcomponent, hcatalog⟩
    exact ⟨happlication.symm, hcomponent.symm, hcatalog.symm⟩

/-- Without a catalog grant there is none on its target. -/
theorem Consistent.free_target (hs : s.Consistent) {g : CatalogGrant}
    (hg : g ∈ s.catalogGrants.rows) :
    ¬ (s.deleteCatalogGrant g.id).catalogGrants.rows.any (sameTarget g) = true := by
  rw [List.any_eq_true]
  rintro ⟨g', hg', hsame⟩
  obtain ⟨hrow, hid⟩ := List.mem_filter.1 hg'
  have : Std.Symm fun g h : CatalogGrant => sameTarget g h = false :=
    ⟨fun g h hgh => (sameTarget_comm h g).trans hgh⟩
  have hne : g ≠ g' := by
    rintro rfl
    simp at hid
  rw [hs.targets.forall hg hrow hne] at hsame
  cases hsame

end Store

/-! ## The operations -/

namespace Administration

variable {c : Context} {i : Installation}

theorem application_eq_ok {uuid : String} (h : i.store.HasApplication uuid) :
    ∃ a, application uuid c i = (.ok a, i) := by
  obtain ⟨a, ha⟩ := Option.isSome_iff_exists.1 (Store.hasApplication_iff.1 h)
  have hread : reading (·.application? uuid) c i = (.ok (some a), i) := by rw [reading, ha]
  exact ⟨a, by rw [application, bind_of_ok hread]; rfl⟩

theorem exists_revokeGrant {g : Grant} (h : i.store.grant? g.id = some g) :
    ∃ j, revokeGrant g.id c i = (.ok g, j) ∧ j.store = i.store.deleteGrant g.id := by
  have hread : reading (·.grant? g.id) c i = (.ok (some g), i) := by rw [reading, h]
  have hok : (revokeGrant g.id c i).1 = .ok g := by
    rw [revokeGrant, bind_apply, transaction, bind_of_ok hread]
    rfl
  rcases hrun : revokeGrant g.id c i with ⟨answer, j⟩
  rw [hrun] at hok
  subst hok
  exact ⟨j, rfl, (revokeGrant_ok hrun).2.store⟩

theorem exists_addGrant {g : Grant} (h : i.store.HasApplication g.application) :
    ∃ g' j, addGrant g c i = (.ok g', j) ∧ j.store = (i.store.createGrant g).2 := by
  obtain ⟨a, ha⟩ := application_eq_ok (c := c) h
  have hok : (addGrant g c i).1 = .ok (i.store.createGrant g).1 := by
    rw [addGrant, bind_apply, transaction, bind_of_ok ha]
    rfl
  rcases hrun : addGrant g c i with ⟨answer, j⟩
  rw [hrun] at hok
  subst hok
  exact ⟨_, j, rfl, (addGrant_ok hrun).2.2.store⟩

theorem exists_revokeCatalogGrant {g : CatalogGrant} (h : i.store.catalogGrant? g.id = some g) :
    ∃ j, revokeCatalogGrant g.id c i = (.ok g, j) ∧
      j.store = i.store.deleteCatalogGrant g.id := by
  have hread : reading (·.catalogGrant? g.id) c i = (.ok (some g), i) := by rw [reading, h]
  have hok : (revokeCatalogGrant g.id c i).1 = .ok g := by
    rw [revokeCatalogGrant, bind_apply, transaction, bind_of_ok hread]
    rfl
  rcases hrun : revokeCatalogGrant g.id c i with ⟨answer, j⟩
  rw [hrun] at hok
  subst hok
  exact ⟨j, rfl, (revokeCatalogGrant_ok hrun).2.store⟩

theorem exists_addCatalogGrant {g : CatalogGrant} (h : i.store.HasApplication g.application)
    (hfree : ¬ i.store.catalogGrants.rows.any (Store.sameTarget g) = true) :
    ∃ g' j, addCatalogGrant g c i = (.ok g', j) ∧
      i.store.createCatalogGrant g = .ok (g', j.store) := by
  obtain ⟨a, ha⟩ := application_eq_ok (c := c) h
  obtain ⟨⟨g', t⟩, hcreate⟩ := Store.exists_createCatalogGrant hfree
  have hok : (addCatalogGrant g c i).1 = .ok g' := by
    have hread : reading (·.catalogGrants.rows.any (Store.sameTarget g)) c i = (.ok false, i) := by
      rw [reading, Bool.not_eq_true _ |>.mp hfree]
    have hstore : changingWithOr (·.createCatalogGrant g) c i =
        (.ok g', { i with store := t }) := by
      rw [changingWithOr, hcreate]
    rw [addCatalogGrant, bind_apply, transaction, bind_of_ok ha, bind_of_ok hread]
    simp only [Bool.false_eq_true, if_false]
    rw [bind_of_ok hstore]
    rfl
  rcases hrun : addCatalogGrant g c i with ⟨answer, j⟩
  rw [hrun] at hok
  subst hok
  obtain ⟨-, t', hcreate', hchanges⟩ := addCatalogGrant_ok hrun
  exact ⟨g', j, rfl, by rw [hcreate', hchanges.store]⟩

end Administration

/-! ## What is looked up in between -/

/-- What can be looked up about access, with its input. -/
inductive Enquiry where
  | clientApplications (clientId : String)
  | grantSet (application : String) (component : Component)
  | snapshot (applications : List Application) (component : Component) (typeRef : Option TypeRef)
  | decision (request : AccessRequest) (applications : List Application)
  | resolution (reference : TypeRef) (component : Component)
  | related (reference : TypeRef) (relation : Relation)

def Enquiry.run : Enquiry → Operation Unit
  | .clientApplications clientId => (CaseAccess.clientApplications clientId).forget
  | .grantSet application component => (CaseAccess.grantSet application component).forget
  | .snapshot applications component typeRef =>
      (CaseAccess.snapshot applications component typeRef).forget
  | .decision request applications => (request.decide applications).forget
  | .resolution reference component => (resolveType reference component).forget
  | .related reference relation => (relatedTypes reference relation).forget

theorem Enquiry.run_steady (enquiry : Enquiry) : MovesIn Installation.Steady enquiry.run := by
  have hforget : ∀ {α : Type} {m : Operation α}, MovesIn Installation.Steady m →
      MovesIn Installation.Steady m.forget :=
    fun hm => movesIn_bind hm fun _ => movesIn_pure ()
  cases enquiry with
  | clientApplications clientId => exact hforget (clientApplications_steady clientId)
  | grantSet application component => exact hforget (grantSet_steady application component)
  | snapshot applications component typeRef =>
      exact hforget (snapshot_steady applications component typeRef)
  | decision request applications => exact hforget (decide_steady request applications)
  | resolution reference component => exact hforget (resolveType_steady reference component)
  | related reference relation => exact hforget (relatedTypes_steady reference relation)

/-- The installation after enquiries, each in its own context. -/
def enquire (enquiries : List (Context × Enquiry)) (i : Installation) : Installation :=
  enquiries.foldl (fun i p => (p.2.run p.1 i).2) i

theorem store_enquire (enquiries : List (Context × Enquiry)) (i : Installation) :
    (enquire enquiries i).store = i.store := by
  induction enquiries generalizing i with
  | nil => rfl
  | cons p rest ih => exact (ih _).trans (p.2.run_steady p.1 i).store

theorem Reachable.enquire (enquiries : List (Context × Enquiry)) {i : Installation}
    (h : Reachable i) : Reachable (CaseAccess.enquire enquiries i) := by
  induction enquiries generalizing i with
  | nil => exact h
  | cons p rest ih => exact ih (h.lookup p.2.run_steady p.1)

/-- What an administrator gets to by a command that gives something back. -/
theorem Reachable.administration {i j : Installation} (h : Reachable i) {α : Type}
    {m : Operation α} (command : AdministrationCommand) (hm : command.run = m.forget)
    {c : Context} {a : α} (hrun : m c i = (.ok a, j)) : Reachable j := by
  have hnext := h.step (.administration command c i)
  rw [hm, Operation.forget, bind_of_ok hrun] at hnext
  exact hnext

/-- Whatever is looked up before, between and after: a grant that is there can be revoked
and added again as it was given back, and then every request is decided as before,
wherever its type resolves as before; and so for a catalog grant. -/
theorem revoking_and_adding_restores {i : Installation} (hreach : Reachable i) (c₁ c₂ : Context)
    (before between after : List (Context × Enquiry)) :
    (∀ g ∈ i.store.grants.rows, ∃ j g' k,
      Administration.revokeGrant g.id c₁ (enquire before i) = (.ok g, j) ∧
      Administration.addGrant g c₂ (enquire between j) = (.ok g', k) ∧
      (enquire after k).DecidesLike i) ∧
    ∀ g ∈ i.store.catalogGrants.rows, ∃ j g' k,
      Administration.revokeCatalogGrant g.id c₁ (enquire before i) = (.ok g, j) ∧
      Administration.addCatalogGrant g c₂ (enquire between j) = (.ok g', k) ∧
      (enquire after k).DecidesLike i := by
  have hconsistent := hreach.consistent
  have hstart := hreach.enquire before
  refine ⟨fun g hg => ?_, fun g hg => ?_⟩
  · have hfound : (enquire before i).store.grant? g.id = some g := by
      rw [store_enquire]
      exact hreach.coherent.grants.find? hg
    obtain ⟨j, hrevoke, hj⟩ := Administration.exists_revokeGrant (c := c₁) hfound
    have hmiddle := (hstart.administration (.revokeGrant g.id) rfl hrevoke).enquire between
    have hstore : (enquire between j).store = i.store.deleteGrant g.id := by
      rw [store_enquire, hj, store_enquire]
    obtain ⟨g', k, hadd, hk⟩ := Administration.exists_addGrant (i := enquire between j) (c := c₂)
      (g := g) (by rw [hstore]; exact hconsistent.grants g hg)
    have hend := (hmiddle.administration (.addGrant g) rfl hadd).enquire after
    refine ⟨j, g', k, hrevoke, hadd, Store.SameTerms.decidesLike ?_ hreach.coherent hend.coherent⟩
    rw [store_enquire, hk, hstore]
    exact .of_grant hreach.coherent.grants hg
  · have hfound : (enquire before i).store.catalogGrant? g.id = some g := by
      rw [store_enquire]
      exact hreach.coherent.catalogGrants.find? hg
    obtain ⟨j, hrevoke, hj⟩ := Administration.exists_revokeCatalogGrant (c := c₁) hfound
    have hmiddle :=
      (hstart.administration (.revokeCatalogGrant g.id) rfl hrevoke).enquire between
    have hstore : (enquire between j).store = i.store.deleteCatalogGrant g.id := by
      rw [store_enquire, hj, store_enquire]
    obtain ⟨g', k, hadd, hk⟩ := Administration.exists_addCatalogGrant (i := enquire between j)
      (c := c₂) (g := g) (by rw [hstore]; exact hconsistent.catalogGrants g hg)
      (by rw [hstore]; exact hconsistent.free_target hg)
    have hend := (hmiddle.administration (.addCatalogGrant g) rfl hadd).enquire after
    refine ⟨j, g', k, hrevoke, hadd, Store.SameTerms.decidesLike ?_ hreach.coherent hend.coherent⟩
    rw [hstore] at hk
    rw [store_enquire]
    exact .of_catalogGrant hreach.coherent.catalogGrants hg hk

/-! ## The shelf of a library -/

/-- The library loses its grant on the shelf and gets it again, and in between a request
is denied. A book of a neighbour that is on the shelf is decided as before. -/
theorem shelf_grant_is_restored : Reachable library ∧ ∃ j g' k d,
    Administration.revokeCatalogGrant 1 .alone library = (.ok shelfGrant, j) ∧
      (readBook.decide [reader] .alone j).1 = .ok (.deny .scopesNotGranted) ∧
      Administration.addCatalogGrant shelfGrant .alone
        (enquire [(.alone, .decision readBook [reader])] j) = (.ok g', k) ∧
      (readFarBook.decide [reader] .withNeighbour library).1 = .ok d ∧
      (readFarBook.decide [reader] .withNeighbour k).1 = .ok d := by
  have hreach : Reachable library :=
    ((Reachable.start {}).step (.administration _ _ _)).step (.administration _ _ _)
  have hgrant : shelfGrant ∈ library.store.catalogGrants.rows := by decide +kernel
  obtain ⟨j, g', k, hrevoke, hadd, hlike⟩ := (revoking_and_adding_restores hreach .alone .alone
    [] [(.alone, .decision readBook [reader])] []).2 shelfGrant hgrant
  obtain rfl : (Administration.revokeCatalogGrant 1 .alone library).2 = j :=
    congrArg Prod.snd hrevoke
  have hdenied : (readBook.decide [reader] .alone
      (Administration.revokeCatalogGrant 1 .alone library).2).1 =
        .ok (.deny .scopesNotGranted) := by decide +kernel
  have htypes : k.typeCache = library.typeCache := by
    obtain rfl := congrArg Prod.snd hadd
    decide +kernel
  obtain ⟨d, hbefore, hafter⟩ := hlike readFarBook [reader] .withNeighbour .withNeighbour
    fun typeRef component _ _ hremote =>
      AccessRequest.resolveType_remote hremote htypes
  exact ⟨hreach, _, g', k, d, hrevoke, hdenied, hadd, hbefore, hafter⟩

end CaseAccess
