import CaseAccess.Proofs.HiddenCase
import CaseAccess.Proofs.WiderAccess

/-!
# Decisions that wait for another installation

A decision on a type of another installation is left open while that installation does
not answer, if explicit grants do not give all that is asked for and grants on catalogs
could give the rest. The caller is then told that the answer is not available, rather
than that it is denied.

What the grants could give is taken from all catalogs together, and a type lies in one.
`Covered` says of a kind of catalogs that grants on them give the rest. A decision is
left open when that holds of the catalogs of any kind, scope by scope. An answer that puts
the type in a catalog leads to permission when it holds of this one catalog. So the
report is right just when one catalog gives the rest alone, and in particular when a
single scope is missing. It is wrong when the rest is scattered over several catalogs:
then no answer whatever would have led to permission.
-/

namespace CaseAccess

open Operation

/-! ## What waits, and for what -/

namespace AccessRequest

variable (r : AccessRequest) (applications : List Application) (c : Context) (i : Installation)

/-- All that is asked for is given, by explicit grants or by grants on catalogs of a
kind. -/
def Covered (component : Component) (kind : TypeRef → Prop) : Prop :=
  ∀ scope ∈ r.scopes, r.ProvidedExplicitly applications i component scope ∨
    ∃ g ∈ i.store.catalogGrants.rows, kind g.catalog ∧ HeldBy applications g.application ∧
      g.component = component ∧ Admits g.ceiling r.confidentiality ∧ scope ∈ g.scopes

/-- The type does not resolve for now, explicit grants do not give everything, and grants
on catalogs could give the rest. -/
structure LeftOpen (typeRef : TypeRef) (component : Component) (why : Unresolved) : Prop where
  onType : r.typeRef = some typeRef
  onComponent : r.component = some component
  ordinary : ∀ a ∈ applications, a.hasAllPermissions = false
  unresolved : c.resolution i.store i.typeCache typeRef component = .error why
  transient : why.isTransient = true
  missing : ∃ scope ∈ r.scopes, ¬ r.ProvidedExplicitly applications i component scope
  covered : r.Covered applications i component fun _ => True

end AccessRequest

/-- The same store, at a time and in a context in which the type is one of the component
and lies in the catalog. -/
structure Installation.Places (i : Installation) (typeRef : TypeRef) (component : Component)
    (catalog : TypeRef) (c' : Context) (i' : Installation) : Prop where
  store : i'.store = i.store
  agrees : i'.grantCache.Agrees i'.store
  resolved : ∃ d, (resolveType typeRef component c' i').1 = .ok (.ok d) ∧
    d.component = component ∧ d.catalog = some catalog

/-- If the type were one of the component and in the catalog, the request would be
allowed. -/
def AccessRequest.WouldBeAllowed (r : AccessRequest) (applications : List Application)
    (i : Installation) (typeRef : TypeRef) (component : Component) (catalog : TypeRef) : Prop :=
  (∃ c' i', i.Places typeRef component catalog c' i') ∧
    ∀ c' i', i.Places typeRef component catalog c' i' →
      (r.decide applications c' i').1 = .ok .allow

namespace AccessRequest

variable {r : AccessRequest} {applications : List Application} {c c' : Context}
  {i i' : Installation} {typeRef catalog : TypeRef} {component : Component}
  {why : Unresolved}

/-! ## When a decision is left open -/

theorem exists_missing_iff (h : r.typeRef = some typeRef) :
    (∃ scope ∈ r.scopes, ¬ scope ∈ (i.store.snapshot applications component
        (some typeRef)).explicitScopes typeRef r.confidentiality) ↔
      ∃ scope ∈ r.scopes, ¬ r.ProvidedExplicitly applications i component scope := by
  simp only [Snapshot.mem_explicitScopes, Store.mem_grants_snapshot, ProvidedExplicitly, h,
    Option.mem_some_iff, forall_eq', and_assoc]

theorem LeftOpen.applications_ne_nil (h : r.LeftOpen applications c i typeRef component why) :
    applications ≠ [] := by
  obtain ⟨scope, hscope, hnot⟩ := h.missing
  obtain ⟨g, -, -, ⟨a, ha, -⟩, -⟩ := (h.covered scope hscope).resolve_left hnot
  exact List.ne_nil_of_mem ha

theorem leftOpen_iff (hi : i.grantCache.Agrees i.store) {detail : String} :
    (r.decide applications c i).1 = .ok (.deny (.catalogUnavailable detail)) ↔
      ∃ typeRef component why, r.LeftOpen applications c i typeRef component why ∧
        detail = s!"cannot resolve type {typeRef}: {why}" := by
  rw [decide_eq_verdict hi, Except.ok.injEq, verdict_eq_unavailable]
  constructor
  · rintro ⟨-, hordinary, -, typeRef, component, htype, hcomponent, h⟩
    obtain ⟨hmissing, hpotential, why, hwhy, htransient, hdetail⟩ :=
      Snapshot.decideObject_eq_unavailable.1 h
    refine ⟨typeRef, component, why, ⟨htype, hcomponent, hordinary, hwhy, htransient,
      (exists_missing_iff htype).1 hmissing, fun scope hscope => ?_⟩, hdetail⟩
    exact (mem_potentialScopes htype).1 (hpotential scope hscope)
  · rintro ⟨typeRef, component, why, hopen, hdetail⟩
    obtain ⟨scope, hscope, -⟩ := hopen.missing
    refine ⟨hopen.applications_ne_nil, hopen.ordinary, ⟨scope, hscope⟩, typeRef, component,
      hopen.onType, hopen.onComponent, Snapshot.decideObject_eq_unavailable.2 ?_⟩
    refine ⟨(exists_missing_iff hopen.onType).2 hopen.missing, fun scope hscope => ?_, why,
      hopen.unresolved, hopen.transient, hdetail⟩
    exact (mem_potentialScopes hopen.onType).2 (hopen.covered scope hscope)

/-! ## What an answer would lead to -/

/-- A type can lie in any catalog: that of a definition which is remembered. -/
theorem exists_places (hi : i.grantCache.Agrees i.store) (hremote : typeRef.isRemote = true)
    (c : Context) (component : Component) (catalog : TypeRef) :
    ∃ c' i', i.Places typeRef component catalog c' i' := by
  let d : TypeDefinition := ⟨typeRef, component, some catalog, {}⟩
  refine ⟨{ c with typeTtl := 1 }, { i with
    typeCache := i.typeCache.save c.uptime typeRef.key (componentOf typeRef (some component)) d },
    rfl, hi, d, resolveType_eq_ok.2 ?_, rfl, rfl⟩
  rw [Context.resolution, Context.anyResolution, if_pos hremote, Context.remoteResolution,
    TypeCache.get?_save, if_pos rfl, if_pos Nat.one_pos]
  exact if_pos rfl

/-- There, the grants on the catalog count and those on other catalogs do not. -/
theorem provided_of_places (h : i.Places typeRef component catalog c' i')
    (htype : r.typeRef = some typeRef) {scope : String} :
    r.Provided applications c' i' component scope ↔
      r.ProvidedExplicitly applications i component scope ∨
        ∃ g ∈ i.store.catalogGrants.rows, g.catalog = catalog ∧ HeldBy applications g.application ∧
          g.component = component ∧ Admits g.ceiling r.confidentiality ∧ scope ∈ g.scopes := by
  obtain ⟨hstore, -, d, hd, -, hcatalog⟩ := h
  have hcounts : ∀ other, r.Counts c' i' component other ↔ other = catalog := by
    intro other
    rw [Counts, htype]
    constructor
    · rintro ⟨d', hd', hother⟩
      rw [hd] at hd'
      cases hd'
      exact Option.some.inj (hother.symm.trans hcatalog)
    · rintro rfl
      exact ⟨d, hd, hcatalog⟩
  constructor
  · intro hprovided
    cases hprovided with
    | explicit g hg hheld hcomponent hadmits hon hgives =>
        exact .inl ⟨g, hstore ▸ hg, hheld, hcomponent, hadmits, hon, hgives⟩
    | catalog g hg hheld hcomponent hadmits hcount hgives =>
        exact .inr ⟨g, hstore ▸ hg, (hcounts _).1 hcount, hheld, hcomponent, hadmits, hgives⟩
  · rintro (⟨g, hg, hheld, hcomponent, hadmits, hon, hgives⟩ |
      ⟨g, hg, hin, hheld, hcomponent, hadmits, hgives⟩)
    · exact .explicit g (hstore ▸ hg) hheld hcomponent hadmits hon hgives
    · exact .catalog g (hstore ▸ hg) hheld hcomponent hadmits ((hcounts _).2 hin) hgives

/-- What was left open is allowed there just when grants on the catalog give the rest. -/
theorem LeftOpen.decide_of_places (hopen : r.LeftOpen applications c i typeRef component why)
    (h : i.Places typeRef component catalog c' i') :
    (r.decide applications c' i').1 = .ok .allow ↔
      r.Covered applications i component (· = catalog) := by
  rw [decide_eq_verdict h.agrees, Except.ok.injEq, verdict_eq_allow]
  constructor
  · rintro ⟨-, ⟨a, ha, hsuper⟩ | ⟨-, component', hcomponent, hall⟩⟩
    · rw [hopen.ordinary a ha] at hsuper
      cases hsuper
    · rw [hopen.onComponent, Option.some.injEq] at hcomponent
      subst hcomponent
      exact fun scope hscope => (provided_of_places h hopen.onType).1 (hall scope hscope)
  · intro hcovered
    obtain ⟨scope, hscope, -⟩ := hopen.missing
    refine ⟨hopen.applications_ne_nil, .inr ⟨⟨scope, hscope⟩, component, hopen.onComponent,
      fun scope hscope => ?_⟩⟩
    exact (provided_of_places h hopen.onType).2 (hcovered scope hscope)

theorem LeftOpen.isRemote (h : r.LeftOpen applications c i typeRef component why) :
    typeRef.isRemote = true := by
  by_contra hlocal
  have hsettled := not_transient_of_local (Bool.eq_false_iff.2 hlocal) h.unresolved
  rw [h.transient] at hsettled
  cases hsettled

/-- With one scope missing, some catalog gives it. -/
theorem LeftOpen.covered_of_one (h : r.LeftOpen applications c i typeRef component why)
    (hone : ∀ scope ∈ r.scopes, ∀ other ∈ r.scopes,
      ¬ r.ProvidedExplicitly applications i component scope →
        ¬ r.ProvidedExplicitly applications i component other → scope = other) :
    ∃ catalog, r.Covered applications i component (· = catalog) := by
  obtain ⟨missing, hmissing, hnot⟩ := h.missing
  obtain ⟨g, hg, -, hgiven⟩ := (h.covered missing hmissing).resolve_left hnot
  refine ⟨g.catalog, fun scope hscope => ?_⟩
  by_cases hexplicit : r.ProvidedExplicitly applications i component scope
  · exact .inl hexplicit
  · obtain rfl := hone scope hscope missing hmissing hexplicit hnot
    exact .inr ⟨g, hg, rfl, hgiven⟩

end AccessRequest

/-- A decision that is reported as not available was left open by a remote type, and a
definition that puts the type in a catalog would have led to permission just when grants
on this one catalog give what explicit grants do not. -/
theorem unavailable_is_blocked_by_one_catalog {i : Installation}
    (hi : i.grantCache.Agrees i.store) {r : AccessRequest} {applications : List Application}
    {c : Context} {detail : String}
    (h : (r.decide applications c i).1 = .ok (.deny (.catalogUnavailable detail))) :
    ∃ typeRef component why, r.LeftOpen applications c i typeRef component why ∧
      detail = s!"cannot resolve type {typeRef}: {why}" ∧ typeRef.isRemote = true ∧
      ∀ catalog, r.WouldBeAllowed applications i typeRef component catalog ↔
        r.Covered applications i component (· = catalog) := by
  obtain ⟨typeRef, component, why, hopen, hdetail⟩ := (AccessRequest.leftOpen_iff hi).1 h
  refine ⟨typeRef, component, why, hopen, hdetail, hopen.isRemote, fun catalog => ⟨?_, ?_⟩⟩
  · rintro ⟨⟨c', i', hplaces⟩, hallowed⟩
    exact (hopen.decide_of_places hplaces).1 (hallowed c' i' hplaces)
  · intro hcovered
    refine ⟨AccessRequest.exists_places hi hopen.isRemote c component catalog, ?_⟩
    exact fun c' i' hplaces => (hopen.decide_of_places hplaces).2 hcovered

/-- While the neighbour is silent, reading its book waits for an answer, and one answer
would have allowed it. -/
theorem far_book_waits :
    (readFarBook.decide [reader] .withSilentNeighbour shelf).1 =
        .ok (.deny (.catalogUnavailable
          "cannot resolve type http://far.example/zaaktypen/1: fetch remote type timed out")) ∧
      ∃ catalog, readFarBook.WouldBeAllowed [reader] shelf ⟨"http://far.example/zaaktypen/1"⟩ .zrc
        catalog := by
  have hdecide : (readFarBook.decide [reader] .withSilentNeighbour shelf).1 =
      .ok (.deny (.catalogUnavailable
        "cannot resolve type http://far.example/zaaktypen/1: fetch remote type timed out")) := by
    decide +kernel
  obtain ⟨typeRef, component, why, hopen, -, -, hiff⟩ :=
    unavailable_is_blocked_by_one_catalog .of_empty hdecide
  cases hopen.onType
  cases hopen.onComponent
  have hlezen : ∀ scope ∈ readFarBook.scopes, scope = "zaken.lezen" := by
    simp [readFarBook, readBook, ScopeSet.single, SortedSet.mem_ofList]
  obtain ⟨catalog, hcovered⟩ := hopen.covered_of_one fun scope hscope other hother _ _ =>
    (hlezen scope hscope).trans (hlezen other hother).symm
  exact ⟨hdecide, catalog, (hiff catalog).2 hcovered⟩

/-- Reading and changing are granted on two catalogs of the neighbour, each on one. -/
def scatteredShelves : Installation where
  store := {
    catalogGrants := ⟨[
      { shelfGrant with catalog := ⟨"http://far.example/catalogussen/1"⟩ },
      { shelfGrant with
        id := 2
        catalog := ⟨"http://far.example/catalogussen/2"⟩
        scopes := ScopeSet.single "zaken.bijwerken" }], 2⟩ }

/-- A request for both waits too, though no answer would have allowed it. -/
theorem scattered_shelves_wait :
    (lendFarBook.decide [reader] .withSilentNeighbour scatteredShelves).1 =
        .ok (.deny (.catalogUnavailable
          "cannot resolve type http://far.example/zaaktypen/1: fetch remote type timed out")) ∧
      ∀ catalog c' i', scatteredShelves.Places ⟨"http://far.example/zaaktypen/1"⟩ .zrc catalog c'
        i' → (lendFarBook.decide [reader] c' i').1 ≠ .ok .allow := by
  have hdecide : (lendFarBook.decide [reader] .withSilentNeighbour scatteredShelves).1 =
      .ok (.deny (.catalogUnavailable
        "cannot resolve type http://far.example/zaaktypen/1: fetch remote type timed out")) := by
    decide +kernel
  refine ⟨hdecide, fun catalog c' i' hplaces hallowed => ?_⟩
  obtain ⟨typeRef, component, why, hopen, -⟩ := (AccessRequest.leftOpen_iff .of_empty).1 hdecide
  cases hopen.onType
  cases hopen.onComponent
  have hcovered := (hopen.decide_of_places hplaces).1 hallowed
  have hgranted : ∀ scope ∈ lendFarBook.scopes, ∃ g ∈ scatteredShelves.store.catalogGrants.rows,
      g.catalog = catalog ∧ scope ∈ g.scopes := by
    intro scope hscope
    rcases hcovered scope hscope with ⟨g, hg, -⟩ | ⟨g, hg, hcatalog, -, -, -, hgives⟩
    · cases hg
    · exact ⟨g, hg, hcatalog, hgives⟩
  obtain ⟨g, hg, rfl, hreads⟩ := hgranted "zaken.lezen" (by decide)
  obtain ⟨g', hg', hsame, hchanges⟩ := hgranted "zaken.bijwerken" (by decide)
  have hapart : ∀ g ∈ scatteredShelves.store.catalogGrants.rows,
      ∀ g' ∈ scatteredShelves.store.catalogGrants.rows, "zaken.lezen" ∈ g.scopes →
        "zaken.bijwerken" ∈ g'.scopes → g'.catalog ≠ g.catalog := by decide
  exact hapart g hg g' hg' hreads hchanges hsame

end CaseAccess
