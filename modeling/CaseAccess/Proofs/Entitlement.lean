import CaseAccess.Proofs.Verdict

/-!
# Who is allowed what

A decision is made with short cuts: a type is resolved only where catalog grants could
give what is missing, and a request with an object is treated apart from one without.
What it answers can be said without any of that. The stored grants of the applications
provide scopes, and a request is granted when everything it needs is provided.

An explicit grant provides its scopes if it is on the component of the request, passes
its level, and is on its type if it has one. A catalog grant does so if its catalog
counts: the type of the request resolves to a definition in that catalog, or there is
no type and the catalog holds, as far as can be known, a type of the component.
-/

namespace CaseAccess

open Operation

/-- A ceiling admits a request without a level, and one with a level that is not above
the ceiling; without a ceiling no level is admitted. -/
def Admits (ceiling level : Option Confidentiality) : Prop :=
  ∀ l ∈ level, ∃ c ∈ ceiling, l.rank ≤ c.rank

theorem passes_iff {ceiling level : Option Confidentiality} :
    Confidentiality.passes ceiling level = true ↔ Admits ceiling level := by
  cases level with
  | none => simp [Confidentiality.passes, Admits]
  | some l =>
      cases ceiling with
      | none => simp [Confidentiality.passes, Admits]
      | some c => simp [Confidentiality.passes, Confidentiality.permits, Admits]

/-- A grant of that application is one of the caller's. -/
def HeldBy (applications : List Application) (uuid : String) : Prop :=
  ∃ a ∈ applications, a.uuid = uuid

namespace AccessRequest

variable (r : AccessRequest) (applications : List Application) (c : Context) (i : Installation)

/-- Grants on the catalog count for the request, made on a component. -/
def Counts (component : Component) (catalog : TypeRef) : Prop :=
  match r.typeRef with
  | some typeRef =>
      ∃ d, (resolveType typeRef component c i).1 = .ok (.ok d) ∧ d.catalog = some catalog
  | none =>
      catalog.isRemote = true ∨
        ∃ d ∈ i.store.types.rows, d.catalog = some catalog ∧ d.component = component

/-- A stored grant of the applications gives the scope to the request, made on a
component. -/
inductive Provided (component : Component) (scope : String) : Prop where
  | explicit (g : Grant) (stored : g ∈ i.store.grants.rows)
      (held : HeldBy applications g.application) (onComponent : g.component = component)
      (admits : Admits g.ceiling r.confidentiality) (onType : ∀ t ∈ r.typeRef, g.typeRef = some t)
      (gives : scope ∈ g.scopes)
  | catalog (g : CatalogGrant) (stored : g ∈ i.store.catalogGrants.rows)
      (held : HeldBy applications g.application) (onComponent : g.component = component)
      (admits : Admits g.ceiling r.confidentiality) (counts : r.Counts c i component g.catalog)
      (gives : scope ∈ g.scopes)

/-- The applications may do what the request asks for: one of them has every
permission, or their grants provide all that is asked for. -/
def Entitled : Prop :=
  applications ≠ [] ∧
    ((∃ a ∈ applications, a.hasAllPermissions = true) ∨
      (∃ scope, scope ∈ r.scopes) ∧
        ∃ component, r.component = some component ∧
          ∀ scope ∈ r.scopes, r.Provided applications c i component scope)

end AccessRequest

/-! ## Scopes of a snapshot

What the four sets of scopes of a snapshot have as members, in terms of its grants. -/

theorem mem_foldl_union {scope : String} {sets : List ScopeSet} {s : ScopeSet} :
    scope ∈ sets.foldl (· ∪ ·) s ↔ scope ∈ s ∨ ∃ t ∈ sets, scope ∈ t := by
  induction sets generalizing s with
  | nil => simp
  | cons t rest ih =>
      rw [List.foldl_cons, ih, SortedSet.mem_union]
      simp only [List.mem_cons, exists_eq_or_imp, or_assoc]

theorem mem_scopesOf {α : Type} {scope : String} {l : List α} {scopes : α → ScopeSet} :
    scope ∈ scopesOf (l.map scopes) ↔ ∃ a ∈ l, scope ∈ scopes a := by
  have hempty : ¬ scope ∈ ({} : ScopeSet) := SortedSet.not_mem_empty
  rw [scopesOf, mem_foldl_union, or_iff_right hempty]
  constructor
  · rintro ⟨t, ht, hs⟩
    obtain ⟨a, ha, rfl⟩ := List.mem_map.1 ht
    exact ⟨a, ha, hs⟩
  · rintro ⟨a, ha, hs⟩
    exact ⟨scopes a, List.mem_map_of_mem ha, hs⟩

namespace Snapshot

variable {s : Snapshot} {typeRef catalog : TypeRef} {level : Option Confidentiality}
  {scope : String} {required : ScopeSet}

theorem mem_explicitScopes :
    scope ∈ s.explicitScopes typeRef level ↔
      ∃ g ∈ s.grants, Admits g.ceiling level ∧ g.typeRef = some typeRef ∧ scope ∈ g.scopes := by
  simp only [explicitScopes, mem_scopesOf, List.mem_filter, Bool.and_eq_true, decide_eq_true_eq,
    Grant.passes, passes_iff]
  constructor
  · rintro ⟨g, ⟨hg, ht, ha⟩, hs⟩
    exact ⟨g, hg, ha, ht, hs⟩
  · rintro ⟨g, hg, ha, ht, hs⟩
    exact ⟨g, ⟨hg, ht, ha⟩, hs⟩

theorem mem_candidates {g : CatalogGrant} :
    g ∈ s.candidates level ↔ g ∈ s.catalogGrants ∧ Admits g.ceiling level := by
  simp only [candidates, List.mem_filter, CatalogGrant.passes, passes_iff]

theorem mem_potentialScopes :
    scope ∈ s.potentialScopes typeRef level ↔
      scope ∈ s.explicitScopes typeRef level ∨
        ∃ g ∈ s.catalogGrants, Admits g.ceiling level ∧ scope ∈ g.scopes := by
  simp only [potentialScopes, SortedSet.mem_union, mem_scopesOf, mem_candidates, and_assoc]

theorem mem_scopesIn :
    scope ∈ s.scopesIn typeRef level catalog ↔
      scope ∈ s.explicitScopes typeRef level ∨
        ∃ g ∈ s.catalogGrants, Admits g.ceiling level ∧ g.catalog = catalog ∧ scope ∈ g.scopes := by
  simp only [scopesIn, SortedSet.mem_union, mem_scopesOf, List.mem_filter, mem_candidates,
    decide_eq_true_eq, and_assoc]

theorem mem_componentScopes :
    scope ∈ s.componentScopes level ↔
      (∃ g ∈ s.grants, Admits g.ceiling level ∧ scope ∈ g.scopes) ∨
        ∃ g ∈ s.catalogGrants, Admits g.ceiling level ∧ g.catalog ∈ s.populated ∧
          scope ∈ g.scopes := by
  simp only [componentScopes, SortedSet.mem_union, mem_scopesOf, List.mem_filter, mem_candidates,
    decide_eq_true_eq, and_assoc, Grant.passes, passes_iff]

/-! ## Decisions of a snapshot -/

theorem exists_not_mem_of_not_isSubset {given : ScopeSet} (h : ¬ required.isSubset given = true) :
    ∃ scope ∈ required, ¬ scope ∈ given := by
  simpa [SortedSet.isSubset, SortedSet.mem_toList] using h

theorem covering_eq_allow {given : ScopeSet} :
    covering required given = .allow ↔ ∀ scope ∈ required, scope ∈ given := by
  rw [covering, ← SortedSet.isSubset_iff]
  split
  · next h => simp [h]
  · next h => simp [h]

/-- A scope is given on a type: by explicit grants, or because the type resolved to a
definition in the catalog of a grant. -/
def Gives (s : Snapshot) (typeRef : TypeRef) (level : Option Confidentiality)
    (resolution : Resolution) (scope : String) : Prop :=
  scope ∈ s.explicitScopes typeRef level ∨
    ∃ d, resolution = .ok d ∧ ∃ g ∈ s.catalogGrants,
      Admits g.ceiling level ∧ d.catalog = some g.catalog ∧ scope ∈ g.scopes

theorem decideResolved_eq_allow {resolution : Resolution}
    (h : ∃ scope ∈ required, ¬ scope ∈ s.explicitScopes typeRef level) :
    s.decideResolved required typeRef level resolution = .allow ↔
      ∀ scope ∈ required, s.Gives typeRef level resolution scope := by
  obtain ⟨missing, hmissing, hnot⟩ := h
  cases resolution with
  | error why =>
      have hdeny : s.decideResolved required typeRef level (.error why) ≠ .allow := by
        rw [decideResolved]
        split
        · simp
        · simp
      refine ⟨fun h => absurd h hdeny, fun h => ?_⟩
      rcases h missing hmissing with h | ⟨d, hd, -⟩
      · exact absurd h hnot
      · cases hd
  | ok d =>
      rw [decideResolved]
      cases hcatalog : d.catalog with
      | none =>
          refine ⟨fun h => by simp at h, fun h => ?_⟩
          rcases h missing hmissing with h | ⟨d', hd, g, -, -, hg, -⟩
          · exact absurd h hnot
          · cases hd
            rw [hcatalog] at hg
            cases hg
      | some catalog =>
          simp only [covering_eq_allow, mem_scopesIn, Gives]
          refine forall₂_congr fun scope _ => or_congr_right ?_
          constructor
          · rintro ⟨g, hg, ha, rfl, hs⟩
            exact ⟨d, rfl, g, hg, ha, hcatalog, hs⟩
          · rintro ⟨d', hd, g, hg, ha, hc, hs⟩
            cases hd
            rw [hcatalog] at hc
            cases hc
            exact ⟨g, hg, ha, rfl, hs⟩

/-- The short cuts change nothing: what is asked for is allowed just when the grants
give all of it. -/
theorem decideObject_eq_allow {resolution : Resolution} :
    s.decideObject (m := Id) required typeRef level resolution = .allow ↔
      ∀ scope ∈ required, s.Gives typeRef level resolution scope := by
  show (if required.isSubset (s.explicitScopes typeRef level) then Decision.allow
    else if !required.isSubset (s.potentialScopes typeRef level) then .deny .scopesNotGranted
    else s.decideResolved required typeRef level resolution) = .allow ↔ _
  split
  · next h =>
      rw [SortedSet.isSubset_iff] at h
      exact ⟨fun _ scope hscope => .inl (h scope hscope), fun _ => rfl⟩
  · next h =>
      split
      · next hpotential =>
          refine ⟨fun h => by simp at h, fun hall => ?_⟩
          have hsub : required.isSubset (s.potentialScopes typeRef level) = true := by
            rw [SortedSet.isSubset_iff]
            intro scope hscope
            rw [mem_potentialScopes]
            rcases hall scope hscope with he | ⟨d, -, g, hg, ha, -, hs⟩
            · exact .inl he
            · exact .inr ⟨g, hg, ha, hs⟩
          simp [hsub] at hpotential
      · exact decideResolved_eq_allow (exists_not_mem_of_not_isSubset h)

end Snapshot

/-! ## The snapshot of a store -/

namespace Store

variable {s : Store} {applications : List Application} {component : Component}
  {typeRef : Option TypeRef} {catalog : TypeRef}

theorem mem_grants_grantSet {uuid : String} {g : Grant} :
    g ∈ (s.grantSet uuid component).grants ↔
      g ∈ s.grants.rows ∧ g.application = uuid ∧ g.component = component := by
  rw [grantSet, listGrants, List.mem_filter, List.mem_filter, decide_eq_true_eq,
    decide_eq_true_eq, and_assoc]

theorem mem_catalogGrants_grantSet {uuid : String} {g : CatalogGrant} :
    g ∈ (s.grantSet uuid component).catalogGrants ↔
      g ∈ s.catalogGrants.rows ∧ g.application = uuid ∧ g.component = component := by
  rw [grantSet, listCatalogGrants, List.mem_filter, List.mem_filter, decide_eq_true_eq,
    decide_eq_true_eq, and_assoc]

theorem mem_grants_snapshot {g : Grant} :
    g ∈ (s.snapshot applications component typeRef).grants ↔
      g ∈ s.grants.rows ∧ HeldBy applications g.application ∧ g.component = component := by
  simp only [snapshot, snapshotOf, grantSets, HeldBy, List.mem_flatMap, List.mem_map]
  constructor
  · rintro ⟨_, ⟨a, ha, rfl⟩, hmem⟩
    obtain ⟨hg, happ, hcomp⟩ := mem_grants_grantSet.1 hmem
    exact ⟨hg, ⟨a, ha, happ.symm⟩, hcomp⟩
  · rintro ⟨hg, ⟨a, ha, happ⟩, hcomp⟩
    exact ⟨_, ⟨a, ha, rfl⟩, mem_grants_grantSet.2 ⟨hg, happ.symm, hcomp⟩⟩

theorem mem_catalogGrants_snapshot {g : CatalogGrant} :
    g ∈ (s.snapshot applications component typeRef).catalogGrants ↔
      g ∈ s.catalogGrants.rows ∧ HeldBy applications g.application ∧ g.component = component := by
  simp only [snapshot, snapshotOf, grantSets, HeldBy, List.mem_flatMap, List.mem_map]
  constructor
  · rintro ⟨_, ⟨a, ha, rfl⟩, hmem⟩
    obtain ⟨hg, happ, hcomp⟩ := mem_catalogGrants_grantSet.1 hmem
    exact ⟨hg, ⟨a, ha, happ.symm⟩, hcomp⟩
  · rintro ⟨hg, ⟨a, ha, happ⟩, hcomp⟩
    exact ⟨_, ⟨a, ha, rfl⟩, mem_catalogGrants_grantSet.2 ⟨hg, happ.symm, hcomp⟩⟩

theorem mem_catalogTypes {reference : TypeRef} :
    reference ∈ s.catalogTypes catalog component ↔
      ∃ d ∈ s.types.rows,
        d.catalog = some catalog ∧ d.component = component ∧ d.reference = reference := by
  simp only [catalogTypes, List.mem_mergeSort, List.mem_map, List.mem_filter, decide_eq_true_eq,
    and_assoc]

theorem isPopulated_iff :
    s.isPopulated component catalog = true ↔
      catalog.isRemote = true ∨
        ∃ d ∈ s.types.rows, d.catalog = some catalog ∧ d.component = component := by
  simp only [isPopulated, Bool.or_eq_true, Bool.not_eq_true', List.isEmpty_eq_false_iff_exists_mem,
    mem_catalogTypes]
  refine or_congr_right ⟨?_, ?_⟩
  · rintro ⟨_, d, hd, hcatalog, hcomponent, -⟩
    exact ⟨d, hd, hcatalog, hcomponent⟩
  · rintro ⟨d, hd, hcatalog, hcomponent⟩
    exact ⟨d.reference, d, hd, hcatalog, hcomponent, rfl⟩

theorem mem_populated_snapshot :
    catalog ∈ (s.snapshot applications component typeRef).populated ↔
      (∃ g ∈ (s.snapshot applications component typeRef).catalogGrants, g.catalog = catalog) ∧
        s.isPopulated component catalog = true := by
  simp only [snapshot, snapshotOf, SortedSet.mem_ofList, List.mem_filter, List.mem_map]

end Store

/-! ## Requests -/

namespace AccessRequest

variable {r : AccessRequest} {applications : List Application} {c : Context} {i : Installation}
  {component : Component} {scope : String}

/-- Without an object, a component gives just what is provided. -/
theorem mem_componentScopes_iff_provided (h : r.typeRef = none) :
    scope ∈ (i.store.snapshot applications component none).componentScopes r.confidentiality ↔
      r.Provided applications c i component scope := by
  rw [Snapshot.mem_componentScopes]
  simp only [Store.mem_grants_snapshot, Store.mem_catalogGrants_snapshot,
    Store.mem_populated_snapshot]
  constructor
  · rintro (⟨g, ⟨hg, hheld, hcomp⟩, ha, hs⟩ | ⟨g, ⟨hg, hheld, hcomp⟩, ha, ⟨-, hp⟩, hs⟩)
    · exact .explicit g hg hheld hcomp ha (by simp [h]) hs
    · refine .catalog g hg hheld hcomp ha ?_ hs
      rw [Counts, h]
      exact Store.isPopulated_iff.1 hp
  · intro hprovided
    cases hprovided with
    | explicit g hg hheld hcomp ha _ hs => exact .inl ⟨g, ⟨hg, hheld, hcomp⟩, ha, hs⟩
    | catalog g hg hheld hcomp ha hcounts hs =>
        rw [Counts, h] at hcounts
        exact .inr ⟨g, ⟨hg, hheld, hcomp⟩, ha,
          ⟨⟨g, ⟨hg, hheld, hcomp⟩, rfl⟩, Store.isPopulated_iff.2 hcounts⟩, hs⟩

/-- On an object, its type gives just what is provided. -/
theorem gives_iff_provided {typeRef : TypeRef} (h : r.typeRef = some typeRef) :
    (i.store.snapshot applications component (some typeRef)).Gives typeRef r.confidentiality
        (c.resolution i.store i.typeCache typeRef component) scope ↔
      r.Provided applications c i component scope := by
  simp only [Snapshot.Gives, Snapshot.mem_explicitScopes, Store.mem_grants_snapshot,
    Store.mem_catalogGrants_snapshot]
  constructor
  · rintro (⟨g, ⟨hg, hheld, hcomp⟩, ha, ht, hs⟩ | ⟨d, hd, g, ⟨hg, hheld, hcomp⟩, ha, hcat, hs⟩)
    · refine .explicit g hg hheld hcomp ha ?_ hs
      rw [h]
      intro t hmem
      cases hmem
      exact ht
    · refine .catalog g hg hheld hcomp ha ?_ hs
      rw [Counts, h]
      exact ⟨d, resolveType_eq_ok.2 hd, hcat⟩
  · intro hprovided
    cases hprovided with
    | explicit g hg hheld hcomp ha ht hs =>
        exact .inl ⟨g, ⟨hg, hheld, hcomp⟩, ha, ht typeRef h, hs⟩
    | catalog g hg hheld hcomp ha hcounts hs =>
        rw [Counts, h] at hcounts
        obtain ⟨d, hd, hcat⟩ := hcounts
        exact .inr ⟨d, resolveType_eq_ok.1 hd, g, ⟨hg, hheld, hcomp⟩, ha, hcat, hs⟩

theorem exists_mem_iff_not_isEmpty {s : ScopeSet} :
    (∃ scope, scope ∈ s) ↔ ¬ s.isEmpty = true := by
  rw [SortedSet.isEmpty, Bool.not_eq_true, List.isEmpty_eq_false_iff_exists_mem]
  rfl

theorem verdict_eq_allow :
    r.verdict applications i.store (c.resolution i.store i.typeCache) = .allow ↔
      r.Entitled applications c i := by
  rw [verdict, Entitled, exists_mem_iff_not_isEmpty]
  split
  · next h => simp [h]
  · next h =>
      split
      · next hsuper =>
          rw [List.any_eq_true] at hsuper
          exact ⟨fun _ => ⟨h, .inl hsuper⟩, fun _ => rfl⟩
      · next hsuper =>
          rw [List.any_eq_true] at hsuper
          rw [or_iff_right hsuper]
          split
          · next hempty => simp [hempty]
          · next hempty =>
              cases hcomp : r.component with
              | none => simp
              | some component =>
                  rw [and_iff_right h, and_iff_right hempty]
                  simp only [Option.some.injEq, exists_eq_left']
                  cases ht : r.typeRef with
                  | none =>
                      rw [Snapshot.decideComponent, Snapshot.covering_eq_allow]
                      exact forall₂_congr fun scope _ => mem_componentScopes_iff_provided ht
                  | some typeRef =>
                      rw [Snapshot.decideObject_eq_allow]
                      exact forall₂_congr fun scope _ => gives_iff_provided ht

theorem isAllowed_verdict :
    (r.verdict applications i.store (c.resolution i.store i.typeCache)).isAllowed = true ↔
      r.Entitled applications c i := by
  rw [Decision.isAllowed, decide_eq_true_iff]
  exact verdict_eq_allow

/-- Whether a caller is allowed something always has an answer, and the answer is
whether it is entitled to it, if the grant cache agrees with the store. After any
commands it does: that is `reaches_keepsCoherence`. -/
theorem allow_iff_entitled (h : i.grantCache.Agrees i.store) (r : AccessRequest)
    (applications : List Application) (c : Context) :
    ∃ b, (r.allow applications c i).1 = .ok b ∧ (b = true ↔ r.Entitled applications c i) :=
  ⟨_, allow_eq_verdict h r applications c, isAllowed_verdict⟩

end AccessRequest

/-! ## An entitled reader -/

def shelfGrant : CatalogGrant :=
  ⟨1, "library", .zrc, ⟨"shelf"⟩, ScopeSet.single "zaken.lezen", some .intern⟩

/-- A type in a catalog, and a grant on the catalog. -/
def shelf : Installation where
  store := {
    types := ⟨[{ reference := ⟨"book"⟩, component := .zrc, catalog := some ⟨"shelf"⟩ }], by decide⟩
    catalogGrants := ⟨[shelfGrant], 1⟩ }

def reader : Application := ⟨"library", "Library", SortedSet.ofList ["reader"], false⟩

def readBook : AccessRequest :=
  ⟨some .zrc, ScopeSet.single "zaken.lezen", some ⟨"book"⟩, some .intern⟩

/-- The same for a book that is one level more secret. -/
def readSecretBook : AccessRequest :=
  { readBook with confidentiality := some .zaakvertrouwelijk }

/-- The reader may read a book up to the ceiling of the grant, and not above it. -/
theorem reader_entitled :
    shelf.grantCache.Agrees shelf.store ∧ readBook.Entitled [reader] Context.alone shelf ∧
      ¬ readSecretBook.Entitled [reader] Context.alone shelf := by
  have hagrees : shelf.grantCache.Agrees shelf.store := GrantCache.Agrees.of_empty
  obtain ⟨b, hb, hiff⟩ :=
    AccessRequest.allow_iff_entitled hagrees readBook [reader] Context.alone
  have hallowed : (readBook.allow [reader] Context.alone shelf).1 = .ok true := rfl
  rw [hallowed] at hb
  cases hb
  obtain ⟨b, hb, hsecret⟩ :=
    AccessRequest.allow_iff_entitled hagrees readSecretBook [reader] Context.alone
  have hrefused : (readSecretBook.allow [reader] Context.alone shelf).1 = .ok false := rfl
  rw [hrefused] at hb
  cases hb
  exact ⟨hagrees, hiff.1 rfl, fun hentitled => Bool.false_ne_true (hsecret.2 hentitled)⟩

end CaseAccess
