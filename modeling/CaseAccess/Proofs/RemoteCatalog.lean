import CaseAccess.Proofs.DocumentDefinition
import CaseAccess.Proofs.Entitlement
import Mathlib

/-!
# Catalogs that other installations name

A type of another installation belongs to the catalog that its document names, and the
name is read like any reference in a document. So the document may name a catalog that
is held here, by its identifier or by an address below one of the bases, and a grant
on that catalog then counts for a type that the catalog does not hold.

Whether that ever happens is decided by comparing a store with the one that has no
grants on local catalogs. The two answer a request on a remote type alike unless the
document does name a local catalog, grants on that catalog complete what is asked for,
and explicit grants alone do not. This is an equivalence: nothing else makes a
difference, and where all of it comes together the answers do differ.
-/

namespace CaseAccess

open Operation

/-- The store without the catalog grants on catalogs that are held here. -/
def Store.withoutLocalCatalogGrants (s : Store) : Store :=
  { s with catalogGrants := s.catalogGrants.filter (·.catalog.isRemote) }

theorem mem_withoutLocalCatalogGrants {s : Store} {g : CatalogGrant} :
    g ∈ s.withoutLocalCatalogGrants.catalogGrants.rows ↔
      g ∈ s.catalogGrants.rows ∧ g.catalog.isRemote = true := by
  simp only [Store.withoutLocalCatalogGrants, Numbered.filter, List.mem_filter]

/-! ## What a document says of its catalog -/

/-- A document that says nothing but its catalog defines a type of that catalog. -/
theorem definition_of_read {bases : LocalBases} {text url : String} {catalog : TypeRef}
    (h : bases.read text = .ok catalog) (hne : text ≠ "") (reference : TypeRef)
    (component : Component) :
    TypeDocument.definition bases { url := url, catalog := some text } reference component =
      .ok ⟨reference, component, some catalog, {}⟩ := by
  have hsome : nonEmpty (some text) = some text := by simp [nonEmpty, Option.filter, hne]
  have hread : (some text).mapM bases.readAddress = .ok (some catalog) := by
    simp [Option.mapM, readAddress_eq_ok.2 h, Functor.map, Except.map]
  simp only [TypeDocument.definition, hsome, hread, List.mapM_nil, atMember, inOrder,
    List.mergeSort_nil, bind, Except.bind, pure, Except.pure]
  rfl

/-- A definition that is fetched belongs to the catalog that the document names. -/
theorem catalog_of_fetched {c : Context} {reference catalog : TypeRef} {component : Component}
    {d : TypeDefinition} (h : c.fetched reference component = .ok d)
    (hd : d.catalog = some catalog) :
    ∃ service document text, c.answer service reference.key = .found document ∧
      document.catalog = some text ∧ c.bases.read text = .ok catalog := by
  obtain ⟨service, document, hanswer, -, -, hdefines⟩ := Context.defines_of_fetched h
  obtain ⟨text, htext, -, hread⟩ := (hdefines.catalog catalog).1 hd
  exact ⟨service, document, text, hanswer, htext, hread⟩

/-! ## When a local grant is used from outside -/

namespace AccessRequest

variable (r : AccessRequest) (applications : List Application) (c : Context) (i : Installation)

/-- A stored explicit grant of the applications gives the scope to the request, made on
a component. -/
def ProvidedExplicitly (component : Component) (scope : String) : Prop :=
  ∃ g ∈ i.store.grants.rows, HeldBy applications g.application ∧ g.component = component ∧
    Admits g.ceiling r.confidentiality ∧ (∀ t ∈ r.typeRef, g.typeRef = some t) ∧ scope ∈ g.scopes

/-- The type of the request resolves to a definition that names a catalog held here,
and the grants on that catalog are needed for what is asked for. -/
structure Trespasses (component : Component) : Prop where
  onComponent : r.component = some component
  ordinary : ∀ a ∈ applications, a.hasAllPermissions = false
  namesLocal : ∃ typeRef d catalog, r.typeRef = some typeRef ∧
    (resolveType typeRef component c i).1 = .ok (.ok d) ∧ d.catalog = some catalog ∧
      catalog.isRemote = false
  complete : ∀ scope ∈ r.scopes, r.Provided applications c i component scope
  needed : ∃ scope ∈ r.scopes, ¬ r.ProvidedExplicitly applications i component scope

variable {r applications c i} {j : Installation} {typeRef : TypeRef} {component : Component}
  {scope : String}

/-- What a remote type resolves to does not depend on the store. -/
theorem resolveType_remote (h : typeRef.isRemote = true) (htypes : j.typeCache = i.typeCache) :
    (resolveType typeRef component c j).1 = (resolveType typeRef component c i).1 := by
  have hsame : c.resolution j.store j.typeCache typeRef component =
      c.resolution i.store i.typeCache typeRef component := by
    rw [Context.resolution, Context.resolution, Context.anyResolution, Context.anyResolution,
      if_pos h, if_pos h, htypes]
  obtain ⟨_, hi⟩ := resolveType_ok typeRef component c i
  obtain ⟨_, hj⟩ := resolveType_ok typeRef component c j
  rw [hi, hj, hsame]

theorem counts_remote (hr : r.typeRef = some typeRef) (h : typeRef.isRemote = true)
    (htypes : j.typeCache = i.typeCache) {catalog : TypeRef} :
    r.Counts c j component catalog ↔ r.Counts c i component catalog := by
  rw [Counts, Counts, hr]
  simp only [resolveType_remote h htypes]

/-- Without the grants on local catalogs, what is provided is provided explicitly or by
a grant on a remote catalog. -/
theorem provided_without_local (hr : r.typeRef = some typeRef) (h : typeRef.isRemote = true)
    (hstore : j.store = i.store.withoutLocalCatalogGrants) (htypes : j.typeCache = i.typeCache) :
    r.Provided applications c j component scope ↔
      r.ProvidedExplicitly applications i component scope ∨
        ∃ g ∈ i.store.catalogGrants.rows, g.catalog.isRemote = true ∧
          HeldBy applications g.application ∧ g.component = component ∧
            Admits g.ceiling r.confidentiality ∧ r.Counts c i component g.catalog ∧
              scope ∈ g.scopes := by
  constructor
  · intro hprovided
    cases hprovided with
    | explicit g hmem hheld hcomp ha ht hs =>
        rw [hstore] at hmem
        exact .inl ⟨g, hmem, hheld, hcomp, ha, ht, hs⟩
    | catalog g hmem hheld hcomp ha hcounts hs =>
        rw [hstore] at hmem
        obtain ⟨hmem, hremote⟩ := mem_withoutLocalCatalogGrants.1 hmem
        exact .inr ⟨g, hmem, hremote, hheld, hcomp, ha, (counts_remote hr h htypes).1 hcounts, hs⟩
  · rintro (⟨g, hmem, hheld, hcomp, ha, ht, hs⟩ | ⟨g, hmem, hremote, hheld, hcomp, ha, hcounts, hs⟩)
    · refine .explicit g ?_ hheld hcomp ha ht hs
      rw [hstore]
      exact hmem
    · refine .catalog g ?_ hheld hcomp ha ((counts_remote hr h htypes).2 hcounts) hs
      rw [hstore]
      exact mem_withoutLocalCatalogGrants.2 ⟨hmem, hremote⟩

/-- Taking the grants on local catalogs away provides nothing new. -/
theorem provided_of_without_local (hr : r.typeRef = some typeRef) (h : typeRef.isRemote = true)
    (hstore : j.store = i.store.withoutLocalCatalogGrants) (htypes : j.typeCache = i.typeCache)
    (hprovided : r.Provided applications c j component scope) :
    r.Provided applications c i component scope := by
  rcases (provided_without_local hr h hstore htypes).1 hprovided with
    ⟨g, hmem, hheld, hcomp, ha, ht, hs⟩ | ⟨g, hmem, -, hheld, hcomp, ha, hcounts, hs⟩
  · exact .explicit g hmem hheld hcomp ha ht hs
  · exact .catalog g hmem hheld hcomp ha hcounts hs

theorem entitled_of_without_local (hr : r.typeRef = some typeRef) (h : typeRef.isRemote = true)
    (hstore : j.store = i.store.withoutLocalCatalogGrants) (htypes : j.typeCache = i.typeCache)
    (hentitled : r.Entitled applications c j) : r.Entitled applications c i := by
  obtain ⟨hne, hsuper | ⟨hscopes, k, hk, hall⟩⟩ := hentitled
  · exact ⟨hne, .inl hsuper⟩
  · exact ⟨hne, .inr ⟨hscopes, k, hk, fun scope hscope =>
      provided_of_without_local hr h hstore htypes (hall scope hscope)⟩⟩

theorem Provided.ne_nil (h : r.Provided applications c i component scope) : applications ≠ [] := by
  rintro rfl
  cases h with
  | explicit _ _ hheld _ _ _ _ =>
      obtain ⟨a, ha, -⟩ := hheld
      cases ha
  | catalog _ _ hheld _ _ _ _ =>
      obtain ⟨a, ha, -⟩ := hheld
      cases ha

theorem Trespasses.entitled (h : r.Trespasses applications c i component) :
    r.Entitled applications c i := by
  obtain ⟨scope, hscope, -⟩ := h.needed
  have hne : applications ≠ [] := (h.complete scope hscope).ne_nil
  exact ⟨hne, .inr ⟨⟨scope, hscope⟩, component, h.onComponent, h.complete⟩⟩

/-- A trespassing request has nothing but grants on local catalogs for what it needs:
its type is in a local catalog, so no grant on a remote one counts. -/
theorem Trespasses.not_entitled (htrespasses : r.Trespasses applications c i component)
    (hr : r.typeRef = some typeRef) (h : typeRef.isRemote = true)
    (hstore : j.store = i.store.withoutLocalCatalogGrants) (htypes : j.typeCache = i.typeCache) :
    ¬ r.Entitled applications c j := by
  obtain ⟨hk, hordinary, ⟨t, d, catalog, ht, hd, hcatalog, hlocal⟩, -, scope, hscope, hneeded⟩ :=
    htrespasses
  have hnone : ¬ r.Provided applications c j component scope := by
    intro hprovided
    rcases (provided_without_local hr h hstore htypes).1 hprovided with
      hexplicit | ⟨g, -, hremote, -, -, -, hcounts, -⟩
    · exact hneeded hexplicit
    · rw [Counts, ht] at hcounts
      obtain ⟨d', hd', hcatalog'⟩ := hcounts
      rw [hd] at hd'
      cases hd'
      rw [hcatalog] at hcatalog'
      cases hcatalog'
      rw [hlocal] at hremote
      cases hremote
  rintro ⟨-, ⟨a, ha, hsuper⟩ | ⟨-, k, hk', hall⟩⟩
  · rw [hordinary a ha] at hsuper
    cases hsuper
  · rw [hk] at hk'
    cases hk'
    exact hnone (hall scope hscope)

/-- What is provided, but no longer without the grants on local catalogs, is provided by
such a grant, and so the type is in its catalog. -/
theorem namesLocal_of_not_provided (hr : r.typeRef = some typeRef) (h : typeRef.isRemote = true)
    (hstore : j.store = i.store.withoutLocalCatalogGrants) (htypes : j.typeCache = i.typeCache)
    (hprovided : r.Provided applications c i component scope)
    (hmissing : ¬ r.Provided applications c j component scope) :
    ∃ typeRef d catalog, r.typeRef = some typeRef ∧
      (resolveType typeRef component c i).1 = .ok (.ok d) ∧ d.catalog = some catalog ∧
        catalog.isRemote = false := by
  rw [provided_without_local hr h hstore htypes, not_or] at hmissing
  obtain ⟨hneeded, hremote⟩ := hmissing
  cases hprovided with
  | explicit g hmem hheld hcomp ha ht hs =>
      exact absurd ⟨g, hmem, hheld, hcomp, ha, ht, hs⟩ hneeded
  | catalog g hmem hheld hcomp ha hcounts hs =>
      have hlocal : g.catalog.isRemote = false := by
        cases hg : g.catalog.isRemote with
        | false => rfl
        | true => exact absurd ⟨g, hmem, hg, hheld, hcomp, ha, hcounts, hs⟩ hremote
      rw [Counts, hr] at hcounts
      obtain ⟨d, hd, hcatalog⟩ := hcounts
      exact ⟨typeRef, d, g.catalog, hr, hd, hcatalog, hlocal⟩

theorem exists_trespasses (hr : r.typeRef = some typeRef) (h : typeRef.isRemote = true)
    (hstore : j.store = i.store.withoutLocalCatalogGrants) (htypes : j.typeCache = i.typeCache)
    (hentitled : r.Entitled applications c i) (hnot : ¬ r.Entitled applications c j) :
    ∃ component, r.Trespasses applications c i component := by
  obtain ⟨hne, hentitled⟩ := hentitled
  have hordinary : ∀ a ∈ applications, a.hasAllPermissions = false := by
    intro a ha
    cases hsuper : a.hasAllPermissions with
    | false => rfl
    | true => exact absurd ⟨hne, .inl ⟨a, ha, hsuper⟩⟩ hnot
  rcases hentitled with ⟨a, ha, hsuper⟩ | ⟨hscopes, k, hk, hall⟩
  · rw [hordinary a ha] at hsuper
    cases hsuper
  · have hmissing : ∃ scope ∈ r.scopes, ¬ r.Provided applications c j k scope := by
      by_contra hnone
      refine hnot ⟨hne, .inr ⟨hscopes, k, hk, fun scope hscope => ?_⟩⟩
      by_contra hprovided
      exact hnone ⟨scope, hscope, hprovided⟩
    obtain ⟨scope, hscope, hmissing⟩ := hmissing
    have hneeded : ¬ r.ProvidedExplicitly applications i k scope := by
      intro hexplicit
      exact hmissing ((provided_without_local hr h hstore htypes).2 (.inl hexplicit))
    exact ⟨k, hk, hordinary,
      namesLocal_of_not_provided hr h hstore htypes (hall scope hscope) hmissing, hall, scope,
      hscope, hneeded⟩

/-- The grants on local catalogs make a request on a remote type succeed just when it
trespasses. -/
theorem trespasses_iff (hr : r.typeRef = some typeRef) (h : typeRef.isRemote = true)
    (hstore : j.store = i.store.withoutLocalCatalogGrants) (htypes : j.typeCache = i.typeCache) :
    (∃ component, r.Trespasses applications c i component) ↔
      r.Entitled applications c i ∧ ¬ r.Entitled applications c j := by
  constructor
  · rintro ⟨k, htrespasses⟩
    exact ⟨htrespasses.entitled, htrespasses.not_entitled hr h hstore htypes⟩
  · rintro ⟨hentitled, hnot⟩
    exact exists_trespasses hr h hstore htypes hentitled hnot

/-- A request on a remote type is answered as it would be without any grant on a local
catalog, unless it trespasses; and then it is not. -/
theorem allow_without_local_iff (hi : i.grantCache.Agrees i.store)
    (hj : j.grantCache.Agrees j.store) (hstore : j.store = i.store.withoutLocalCatalogGrants)
    (htypes : j.typeCache = i.typeCache) (hr : r.typeRef = some typeRef)
    (h : typeRef.isRemote = true) (applications : List Application) (c : Context) :
    (r.allow applications c i).1 = (r.allow applications c j).1 ↔
      ¬ ∃ component, r.Trespasses applications c i component := by
  rw [trespasses_iff hr h hstore htypes, allow_eq_verdict hi, allow_eq_verdict hj,
    Except.ok.injEq]
  have hmono : r.Entitled applications c j → r.Entitled applications c i :=
    entitled_of_without_local hr h hstore htypes
  constructor
  · rintro hsame ⟨hentitled, hnot⟩
    rw [← isAllowed_verdict, hsame, isAllowed_verdict] at hentitled
    exact hnot hentitled
  · intro hnone
    rw [Bool.eq_iff_iff, isAllowed_verdict, isAllowed_verdict]
    refine ⟨fun hentitled => ?_, hmono⟩
    by_contra hnot
    exact hnone ⟨hentitled, hnot⟩

/-- Unless a definition is remembered, a request trespasses because of a document that
names a catalog held here. -/
theorem Trespasses.document (h : r.Trespasses applications c i component)
    (hr : r.typeRef = some typeRef) (hremote : typeRef.isRemote = true)
    (hnot : i.typeCache.get? c.typeTtl c.uptime typeRef.key
      (componentOf typeRef (some component)) = none) :
    ∃ service document text catalog, c.answer service typeRef.key = .found document ∧
      document.catalog = some text ∧ c.bases.read text = .ok catalog ∧
        catalog.isRemote = false := by
  obtain ⟨t, d, catalog, ht, hd, hcatalog, hlocal⟩ := h.namesLocal
  rw [hr] at ht
  cases ht
  rw [resolveType_eq_ok, Context.resolution, Context.anyResolution, if_pos hremote,
    Context.remoteResolution, hnot] at hd
  cases hfetched : c.fetched typeRef (componentOf typeRef (some component)) with
  | error why =>
      rw [hfetched] at hd
      cases hd
  | ok e =>
      rw [hfetched] at hd
      simp only [TypeDefinition.asComponent] at hd
      split at hd
      · cases hd
        obtain ⟨service, document, text, hanswer, htext, hread⟩ :=
          catalog_of_fetched hfetched hcatalog
        exact ⟨service, document, text, catalog, hanswer, htext, hread, hlocal⟩
      · cases hd

end AccessRequest

/-! ## A neighbour that names the shelf -/

/-- A context in which another installation says that its type is on the shelf. -/
def Context.withNeighbour : Context :=
  { Context.alone with
    services := ⟨[{ apiRoot := "http://far.example/" }]⟩
    answer := fun _ _ =>
      .found { url := "http://far.example/zaaktypen/1", catalog := some "shelf" } }

def clearedShelf : Installation :=
  { shelf with store := shelf.store.withoutLocalCatalogGrants }

def readFarBook : AccessRequest :=
  { readBook with typeRef := some ⟨"http://far.example/zaaktypen/1"⟩ }

theorem component_farBook :
    componentOf ⟨"http://far.example/zaaktypen/1"⟩ (some .zrc) = .zrc := by
  have hurl : Component.ofTypeUrl? "http://far.example/zaaktypen/1" = some .zrc := by cbv
  rw [componentOf, hurl]
  rfl

theorem resolution_farBook :
    Context.withNeighbour.resolution shelf.store {} ⟨"http://far.example/zaaktypen/1"⟩ .zrc =
      .ok ⟨⟨"http://far.example/zaaktypen/1"⟩, .zrc, some ⟨"shelf"⟩, {}⟩ := by
  have hfetched : Context.withNeighbour.fetched ⟨"http://far.example/zaaktypen/1"⟩ .zrc =
      .ok ⟨⟨"http://far.example/zaaktypen/1"⟩, .zrc, some ⟨"shelf"⟩, {}⟩ := by
    have hservice : Context.withNeighbour.services.find? "http://far.example/zaaktypen/1" =
        some { apiRoot := "http://far.example/" } := by decide
    have hread : Context.withNeighbour.bases.read "shelf" = .ok ⟨"shelf"⟩ := rfl
    rw [Context.fetched, hservice]
    show CatalogAnswer.resolution (.found { url := _, catalog := some "shelf" }) _ _ _ = _
    simp only [CatalogAnswer.resolution]
    rw [definition_of_read hread (by decide)]
  have hremote : TypeRef.isRemote ⟨"http://far.example/zaaktypen/1"⟩ = true := by decide
  have hforgotten : Context.withNeighbour.remoteResolution {} ⟨"http://far.example/zaaktypen/1"⟩
      .zrc = Context.withNeighbour.fetched ⟨"http://far.example/zaaktypen/1"⟩ .zrc := rfl
  rw [Context.resolution, Context.anyResolution, if_pos hremote, component_farBook, hforgotten,
    hfetched]
  rfl

theorem readFarBook_trespasses :
    readFarBook.Trespasses [reader] Context.withNeighbour shelf .zrc where
  onComponent := rfl
  ordinary := by decide
  namesLocal :=
    ⟨_, _, ⟨"shelf"⟩, rfl, resolveType_eq_ok.2 resolution_farBook, rfl, by decide⟩
  complete := by
    intro scope hscope
    refine .catalog shelfGrant (by decide) ⟨reader, by decide, rfl⟩ rfl ?_ ?_ hscope
    · exact passes_iff.1 rfl
    · exact ⟨_, resolveType_eq_ok.2 resolution_farBook, rfl⟩
  needed := by
    refine ⟨"zaken.lezen", by decide, ?_⟩
    rintro ⟨g, hg, -⟩
    cases hg

theorem far_book_allowed :
    (readFarBook.allow [reader] Context.withNeighbour shelf).1 = .ok true ∧
      (readFarBook.allow [reader] Context.withNeighbour clearedShelf).1 = .ok false := by
  have hi : shelf.grantCache.Agrees shelf.store := GrantCache.Agrees.of_empty
  have hj : clearedShelf.grantCache.Agrees clearedShelf.store := GrantCache.Agrees.of_empty
  obtain ⟨hentitled, hnot⟩ := (AccessRequest.trespasses_iff (j := clearedShelf) rfl (by decide)
    rfl rfl).1 ⟨.zrc, readFarBook_trespasses⟩
  rw [← AccessRequest.isAllowed_verdict] at hentitled hnot
  rw [allow_eq_verdict hi, allow_eq_verdict hj, hentitled, Bool.eq_false_iff.2 hnot]
  exact ⟨rfl, rfl⟩

theorem far_book_differs :
    (readFarBook.allow [reader] Context.withNeighbour shelf).1 ≠
      (readFarBook.allow [reader] Context.withNeighbour clearedShelf).1 := by
  have hi : shelf.grantCache.Agrees shelf.store := GrantCache.Agrees.of_empty
  have hj : clearedShelf.grantCache.Agrees clearedShelf.store := GrantCache.Agrees.of_empty
  intro hsame
  exact (AccessRequest.allow_without_local_iff hi hj rfl rfl rfl (by decide) [reader]
    Context.withNeighbour).1 hsame ⟨.zrc, readFarBook_trespasses⟩

end CaseAccess
