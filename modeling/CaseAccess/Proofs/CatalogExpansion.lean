import CaseAccess.Proofs.Entitlement
import CaseAccess.Proofs.Rows

/-!
# Catalog grants, spelled out

A grant on a catalog that is held here stands for one explicit grant on each type of
its component in that catalog. Taken literally this is a change of the store: the
catalog grant goes, and the explicit grants come. No decision about a type that is
held here sees the difference, and neither does one without a type.

The two stores meet in the word *provided*. In one of them the catalog counts because
the definition of the type names it, in the other the grant is on the type itself, and
both say that the same row is among the types. A type that is held here resolves to
nothing that could be there later, so a decision on it is settled by what is provided.
-/

namespace CaseAccess

open Operation

/-! ## Types that are held here -/

/-- A local reference resolves as a type of a component to the row that has both. -/
theorem resolveType_local {reference : TypeRef} (h : reference.isRemote = false)
    {component : Component} {c : Context} {i : Installation} {d : TypeDefinition} :
    (resolveType reference component c i).1 = .ok (.ok d) ↔
      d ∈ i.store.types.rows ∧ d.reference = reference ∧ d.component = component := by
  rw [resolveType_eq_ok, resolution_eq_ok_of_local h, Store.type?, Table.get?_eq_some, and_assoc]

namespace AccessRequest

/-- The request names no object of another installation. -/
def IsLocal (r : AccessRequest) : Prop :=
  ∀ t ∈ r.typeRef, t.isRemote = false

variable {r : AccessRequest} {applications : List Application} {c : Context} {i : Installation}
  {component : Component}

/-- For such a request a catalog counts because of a row among the types, unless the
types of the catalog cannot be known. -/
theorem counts_of_isLocal (h : r.IsLocal) {catalog : TypeRef} :
    r.Counts c i component catalog ↔
      (r.typeRef = none ∧ catalog.isRemote = true) ∨
        ∃ d ∈ i.store.types.rows, d.catalog = some catalog ∧ d.component = component ∧
          ∀ t ∈ r.typeRef, d.reference = t := by
  rw [Counts]
  cases ht : r.typeRef with
  | none => simp
  | some typeRef =>
      simp only [reduceCtorEq, false_and, false_or, Option.mem_some_iff, forall_eq',
        resolveType_local (h typeRef ht)]
      constructor
      · rintro ⟨d, ⟨hmem, hkey, hcomp⟩, hcat⟩
        exact ⟨d, hmem, hcat, hcomp, hkey⟩
      · rintro ⟨d, hmem, hcat, hcomp, hkey⟩
        exact ⟨d, ⟨hmem, hkey, hcomp⟩, hcat⟩

/-! ## Refusals

A request about a type that is held here is refused for a reason that does not depend
on what is stored. -/

/-- Why a request is refused, if it is not about what may be resolved later. -/
def refusal (r : AccessRequest) (applications : List Application) : DenyReason :=
  if applications = [] then .noApplications
  else if r.scopes.isEmpty then .noScopesRequired
  else if r.component = none then .noComponent
  else .scopesNotGranted

theorem covering_cases (required given : ScopeSet) :
    Snapshot.covering required given = .allow ∨
      Snapshot.covering required given = .deny .scopesNotGranted := by
  rw [Snapshot.covering]
  split
  · exact .inl rfl
  · exact .inr rfl

theorem decideObject_cases (s : Snapshot) (required : ScopeSet) (typeRef : TypeRef)
    (level : Option Confidentiality) {resolution : Resolution}
    (h : ∀ why, resolution = .error why → why.isTransient = false) :
    s.decideObject (m := Id) required typeRef level resolution = .allow ∨
      s.decideObject (m := Id) required typeRef level resolution = .deny .scopesNotGranted := by
  rw [Snapshot.decideObject]
  split
  · exact .inl rfl
  · split
    · exact .inr rfl
    · show s.decideResolved required typeRef level resolution = .allow ∨
        s.decideResolved required typeRef level resolution = .deny .scopesNotGranted
      cases resolution with
      | error why => simp [Snapshot.decideResolved, h why rfl]
      | ok d =>
          rw [Snapshot.decideResolved]
          cases d.catalog with
          | none => exact .inr rfl
          | some catalog => exact covering_cases _ _

theorem not_transient_of_local {reference : TypeRef} (h : reference.isRemote = false)
    {s : Store} {types : TypeCache} {why : Unresolved}
    (hwhy : c.resolution s types reference component = .error why) : why.isTransient = false := by
  rw [resolution_of_local h] at hwhy
  split at hwhy
  · rw [TypeDefinition.asComponent] at hwhy
    split at hwhy
    · cases hwhy
    · cases hwhy
      rfl
  · cases hwhy
    rfl

/-- Where no type has to be resolved later, a request is allowed, or refused for that reason. -/
theorem verdict_cases {s : Store} {resolution : TypeRef → Component → Resolution}
    {applications : List Application}
    (h : ∀ component t, r.typeRef = some t →
      (s.snapshot applications component (some t)).decideObject (m := Id) r.scopes t
          r.confidentiality (resolution t component) = .allow ∨
        (s.snapshot applications component (some t)).decideObject (m := Id) r.scopes t
          r.confidentiality (resolution t component) = .deny .scopesNotGranted) :
    r.verdict applications s resolution = .allow ∨
      r.verdict applications s resolution = .deny (r.refusal applications) := by
  rw [verdict, refusal]
  split
  · exact .inr rfl
  · split
    · exact .inl rfl
    · split
      · exact .inr rfl
      · cases r.component with
        | none => exact .inr rfl
        | some component =>
            cases ht : r.typeRef with
            | none => exact covering_cases _ _
            | some typeRef => exact h component typeRef ht

theorem IsLocal.verdict_cases (h : r.IsLocal) (applications : List Application) (c : Context)
    (s : Store) (types : TypeCache) :
    r.verdict applications s (c.resolution s types) = .allow ∨
      r.verdict applications s (c.resolution s types) = .deny (r.refusal applications) := by
  refine AccessRequest.verdict_cases fun component t ht => ?_
  exact decideObject_cases _ _ _ _ fun why hwhy => not_transient_of_local (h t ht) hwhy

/-- Two verdicts that are given so are the same if the applications are entitled alike. -/
theorem verdict_congr {d : Context} {j : Installation}
    (hi : r.verdict applications i.store (c.resolution i.store i.typeCache) = .allow ∨
      r.verdict applications i.store (c.resolution i.store i.typeCache) =
        .deny (r.refusal applications))
    (hj : r.verdict applications j.store (d.resolution j.store j.typeCache) = .allow ∨
      r.verdict applications j.store (d.resolution j.store j.typeCache) =
        .deny (r.refusal applications))
    (hsame : r.Entitled applications d j ↔ r.Entitled applications c i) :
    r.verdict applications j.store (d.resolution j.store j.typeCache) =
      r.verdict applications i.store (c.resolution i.store i.typeCache) := by
  rw [← verdict_eq_allow, ← verdict_eq_allow] at hsame
  rcases hi with hi | hi
  · rw [hi, hsame.2 hi]
  · rcases hj with hj | hj
    · rw [hj, hsame.1 hj]
    · rw [hi, hj]

/-- The verdict on such a request follows from whether the applications are entitled. -/
theorem IsLocal.verdict_congr {d : Context} {j : Installation} (h : r.IsLocal)
    (hsame : r.Entitled applications d j ↔ r.Entitled applications c i) :
    r.verdict applications j.store (d.resolution j.store j.typeCache) =
      r.verdict applications i.store (c.resolution i.store i.typeCache) :=
  AccessRequest.verdict_congr (h.verdict_cases applications c i.store i.typeCache)
    (h.verdict_cases applications d j.store j.typeCache) hsame

end AccessRequest

/-! ## The change of the store -/

/-- The explicit grant that a catalog grant stands for on one type. -/
def CatalogGrant.onType (g : CatalogGrant) (t : TypeRef) : Grant :=
  ⟨0, g.application, g.component, g.scopes, some t, g.ceiling⟩

namespace Store

/-- The store without a catalog grant. -/
def withoutCatalogGrant (s : Store) (g : CatalogGrant) : Store :=
  { s with catalogGrants := s.catalogGrants.filter (· ≠ g) }

/-- The store with explicit grants in the place of a catalog grant, one on each type of
its catalog. -/
def expand (s : Store) (g : CatalogGrant) : Store :=
  (s.catalogTypes g.catalog g.component).foldl (fun s t => (s.createGrant (g.onType t)).2)
    (s.withoutCatalogGrant g)

variable {s : Store} {g : CatalogGrant}

/-- Adding explicit grants leaves types and catalog grants alone. -/
theorem foldl_createGrant_frame (l : List Grant) :
    (l.foldl (fun s h => (s.createGrant h).2) s).types = s.types ∧
      (l.foldl (fun s h => (s.createGrant h).2) s).catalogGrants = s.catalogGrants := by
  induction l generalizing s with
  | nil => exact ⟨rfl, rfl⟩
  | cons h rest ih => exact ih

/-- The grants that are there after some have been added, but for their numbers. -/
theorem mem_foldl_createGrant {l : List Grant} {h : Grant} :
    h ∈ (l.foldl (fun s h => (s.createGrant h).2) s).grants.rows →
      h ∈ s.grants.rows ∨ ∃ h' ∈ l, h = { h' with id := h.id } := by
  induction l generalizing s with
  | nil => exact .inl
  | cons a rest ih =>
      intro hmem
      rcases ih hmem with hmem | ⟨h', hmem, heq⟩
      · rcases List.mem_append.1 hmem with hmem | hmem
        · exact .inl hmem
        · rw [List.mem_singleton] at hmem
          exact .inr ⟨a, by simp, by rw [hmem]⟩
      · exact .inr ⟨h', List.mem_cons_of_mem _ hmem, heq⟩

theorem subset_foldl_createGrant {l : List Grant} {h : Grant} (hmem : h ∈ s.grants.rows) :
    h ∈ (l.foldl (fun s h => (s.createGrant h).2) s).grants.rows := by
  induction l generalizing s with
  | nil => exact hmem
  | cons a rest ih => exact ih (List.mem_append_left _ hmem)

theorem exists_mem_foldl_createGrant {l : List Grant} {h : Grant} (hmem : h ∈ l) :
    ∃ n, { h with id := n } ∈ (l.foldl (fun s h => (s.createGrant h).2) s).grants.rows := by
  induction l generalizing s with
  | nil => cases hmem
  | cons a rest ih =>
      rw [List.foldl_cons]
      rcases List.mem_cons.1 hmem with rfl | hmem
      · refine ⟨s.grants.next, subset_foldl_createGrant ?_⟩
        exact List.mem_append_right _ (List.mem_singleton.2 rfl)
      · exact ih hmem

theorem expand_eq_foldl (s : Store) (g : CatalogGrant) :
    s.expand g = ((s.catalogTypes g.catalog g.component).map g.onType).foldl
      (fun s h => (s.createGrant h).2) (s.withoutCatalogGrant g) := by
  rw [expand, List.foldl_map]

theorem types_expand : (s.expand g).types = s.types := by
  rw [expand_eq_foldl]
  exact (foldl_createGrant_frame _).1

theorem mem_catalogGrants_expand {h : CatalogGrant} :
    h ∈ (s.expand g).catalogGrants.rows ↔ h ∈ s.catalogGrants.rows ∧ h ≠ g := by
  rw [expand_eq_foldl, (foldl_createGrant_frame _).2]
  simp [withoutCatalogGrant, Numbered.filter]

theorem subset_grants_expand {h : Grant} (hmem : h ∈ s.grants.rows) :
    h ∈ (s.expand g).grants.rows := by
  rw [expand_eq_foldl]
  exact subset_foldl_createGrant hmem

theorem mem_grants_expand {h : Grant} (hmem : h ∈ (s.expand g).grants.rows) :
    h ∈ s.grants.rows ∨
      ∃ t ∈ s.catalogTypes g.catalog g.component, h = { g.onType t with id := h.id } := by
  rw [expand_eq_foldl] at hmem
  rcases mem_foldl_createGrant hmem with hmem | ⟨h', hmem, heq⟩
  · exact .inl hmem
  · obtain ⟨t, ht, rfl⟩ := List.mem_map.1 hmem
    exact .inr ⟨t, ht, heq⟩

theorem exists_mem_grants_expand {t : TypeRef}
    (ht : t ∈ s.catalogTypes g.catalog g.component) :
    ∃ n, { g.onType t with id := n } ∈ (s.expand g).grants.rows := by
  rw [expand_eq_foldl]
  exact exists_mem_foldl_createGrant (List.mem_map_of_mem ht)

end Store

/-! ## What is provided in both stores -/

namespace AccessRequest

variable {r : AccessRequest} {applications : List Application} {c d : Context}
  {i j : Installation} {g : CatalogGrant} {component : Component} {scope : String}

theorem counts_congr (h : r.IsLocal) (htypes : j.store.types = i.store.types) {catalog : TypeRef} :
    r.Counts d j component catalog ↔ r.Counts c i component catalog := by
  rw [counts_of_isLocal h, counts_of_isLocal h, htypes]

/-- The catalog of the grant counts just when one of its types is asked about. -/
theorem counts_iff_catalogTypes (h : r.IsLocal) (hg : g.catalog.isRemote = false) :
    r.Counts c i g.component g.catalog ↔
      ∃ t ∈ i.store.catalogTypes g.catalog g.component, ∀ t' ∈ r.typeRef, t = t' := by
  rw [counts_of_isLocal h, hg, or_iff_right (by simp)]
  constructor
  · rintro ⟨e, hmem, hcat, hcomp, ht⟩
    exact ⟨e.reference, Store.mem_catalogTypes.2 ⟨e, hmem, hcat, hcomp, rfl⟩, ht⟩
  · rintro ⟨t, htypes, ht⟩
    obtain ⟨e, hmem, hcat, hcomp, rfl⟩ := Store.mem_catalogTypes.1 htypes
    exact ⟨e, hmem, hcat, hcomp, ht⟩

theorem provided_expand (h : r.IsLocal) (hg : g.catalog.isRemote = false)
    (hj : j.store = i.store.expand g)
    (hprovided : r.Provided applications c i component scope) :
    r.Provided applications d j component scope := by
  cases hprovided with
  | explicit e hmem hheld hcomp ha ht hs =>
      exact .explicit e (hj ▸ Store.subset_grants_expand hmem) hheld hcomp ha ht hs
  | catalog e hmem hheld hcomp ha hcounts hs =>
      by_cases heq : e = g
      · subst heq
        subst hcomp
        obtain ⟨t, htypes, ht⟩ := (counts_iff_catalogTypes h hg).1 hcounts
        obtain ⟨n, hn⟩ := Store.exists_mem_grants_expand htypes
        refine .explicit _ (hj ▸ hn) hheld rfl ha ?_ hs
        intro t' ht'
        exact congrArg some (ht t' ht')
      · have hkept : e ∈ j.store.catalogGrants.rows := by
          rw [hj]
          exact Store.mem_catalogGrants_expand.2 ⟨hmem, heq⟩
        refine .catalog e hkept hheld hcomp ha ?_ hs
        exact (counts_congr h (hj ▸ Store.types_expand)).2 hcounts

theorem provided_of_expand (h : r.IsLocal) (hg : g.catalog.isRemote = false)
    (hstored : g ∈ i.store.catalogGrants.rows) (hj : j.store = i.store.expand g)
    (hprovided : r.Provided applications d j component scope) :
    r.Provided applications c i component scope := by
  cases hprovided with
  | explicit e hmem hheld hcomp ha ht hs =>
      rcases Store.mem_grants_expand (hj ▸ hmem) with hmem | ⟨t, htypes, heq⟩
      · exact .explicit e hmem hheld hcomp ha ht hs
      · rw [heq] at hheld hcomp ha ht hs
        cases hcomp
        refine .catalog g hstored hheld rfl ha ?_ hs
        refine (counts_iff_catalogTypes h hg).2 ⟨t, htypes, fun t' ht' => ?_⟩
        exact Option.some.inj (ht t' ht')
  | catalog e hmem hheld hcomp ha hcounts hs =>
      rw [hj] at hmem
      refine .catalog e (Store.mem_catalogGrants_expand.1 hmem).1 hheld hcomp ha ?_ hs
      exact (counts_congr h (hj ▸ Store.types_expand)).1 hcounts

theorem entitled_expand (h : r.IsLocal) (hg : g.catalog.isRemote = false)
    (hstored : g ∈ i.store.catalogGrants.rows) (hj : j.store = i.store.expand g) :
    r.Entitled applications d j ↔ r.Entitled applications c i := by
  rw [Entitled, Entitled]
  refine and_congr_right fun _ => or_congr_right <| and_congr_right fun _ =>
    exists_congr fun component => and_congr_right fun _ => forall₂_congr fun scope _ => ?_
  exact ⟨provided_of_expand h hg hstored hj, provided_expand h hg hj⟩

/-- A decision about a type that is held here, or about no type, is the same whether a
local catalog grant is kept or spelled out. -/
theorem decide_expand (hi : i.grantCache.Agrees i.store) (hj : j.grantCache.Agrees j.store)
    (hg : g ∈ i.store.catalogGrants.rows) (hcatalog : g.catalog.isRemote = false)
    (hstore : j.store = i.store.expand g) (hr : r.IsLocal) (applications : List Application)
    (c d : Context) :
    ∃ decision, (r.decide applications c i).1 = .ok decision ∧
      (r.decide applications d j).1 = .ok decision := by
  refine ⟨_, decide_eq_verdict hi r applications c, ?_⟩
  rw [decide_eq_verdict hj r applications d, Except.ok.injEq]
  have hsame : r.verdict applications j.store (d.resolution j.store j.typeCache) = .allow ↔
      r.verdict applications i.store (c.resolution i.store i.typeCache) = .allow := by
    rw [verdict_eq_allow, verdict_eq_allow]
    exact entitled_expand hr hcatalog hg hstore
  rcases hr.verdict_cases applications c i.store i.typeCache with hverdict | hverdict
  · rw [hverdict]
    exact hsame.2 hverdict
  · rcases hr.verdict_cases applications d j.store j.typeCache with hverdict' | hverdict'
    · rw [hsame.1 hverdict'] at hverdict
      cases hverdict
    · rw [hverdict, hverdict']

end AccessRequest

/-- The installation of the shelf, with its catalog grant spelled out. -/
def spelledShelf : Installation :=
  { shelf with store := shelf.store.expand shelfGrant }

theorem spelledShelf_decides :
    ¬ shelfGrant ∈ spelledShelf.store.catalogGrants.rows ∧
      (readBook.decide [reader] Context.alone spelledShelf).1 = .ok .allow := by
  have hi : shelf.grantCache.Agrees shelf.store := GrantCache.Agrees.of_empty
  have hj : spelledShelf.grantCache.Agrees spelledShelf.store := GrantCache.Agrees.of_empty
  have hr : readBook.IsLocal := by
    intro t ht
    cases ht
    decide
  obtain ⟨decision, hshelf, hspelled⟩ :=
    AccessRequest.decide_expand hi hj (List.mem_singleton.2 rfl) (by decide) rfl hr [reader]
      Context.alone Context.alone
  have hallow : (readBook.decide [reader] Context.alone shelf).1 = .ok .allow := rfl
  rw [hallow] at hshelf
  cases hshelf
  exact ⟨fun h => (Store.mem_catalogGrants_expand.1 h).2 rfl, hspelled⟩

end CaseAccess
