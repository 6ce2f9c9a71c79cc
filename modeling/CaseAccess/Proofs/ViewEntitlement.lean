import CaseAccess.Proofs.History
import CaseAccess.Proofs.PermissionNotice
import CaseAccess.Proofs.StoredGrants

/-!
# A view shows what is decided

Catalog grants are spelled out twice, and by different means. A view lists one entry for
each type that the catalog holds, with the address of the type; a decision never makes
that list, it asks whether the type of the object is in the catalog. The two agree. What
an application may do on a type that is held here can be read off its view: the entries
of that component and with the address of that type, as far as their ceilings go, give
just the scopes that the application is allowed.

Read backwards, an address has to lead to one type. Two types that are held here have
different addresses since their keys are at the end of them. A remote reference is shown
as it is, so it could be taken for one of these if it lies below the own catalog; that
no explicit grant is on such a reference is the one thing that is asked for.
-/

namespace CaseAccess

open Operation Administration

/-- The address below which the types of an installation are shown. -/
def catalogBase (base : String) : String := withoutSlashes base ++ "/catalogi/api/v1/"

/-- The key is written as an address below that of the own catalog. -/
def TypeRef.IsBelow (base : String) (r : TypeRef) : Prop :=
  ∃ rest, r.key = catalogBase base ++ rest

/-! ## Addresses of types -/

section TypeUrl

variable {base : String} {component : Component} {r t : TypeRef}

theorem typeUrl_of_local (h : r.isRemote = false) :
    typeUrl base component r =
      catalogBase base ++ (component.typeCollection?.getD "zaaktypen" ++ "/" ++ r.key) := by
  rw [typeUrl, h, if_neg Bool.false_ne_true, catalogBase]
  simp only [String.append_assoc]

theorem typeUrl_of_remote (h : r.isRemote = true) : typeUrl base component r = r.key := by
  rw [typeUrl, if_pos h]

/-- Of all references outside the own catalog only the type itself has its address. -/
theorem typeUrl_eq_iff (ht : t.isRemote = false) (hr : r.isRemote = true → ¬ r.IsBelow base) :
    typeUrl base component r = typeUrl base component t ↔ r = t := by
  refine ⟨fun h => ?_, fun h => by rw [h]⟩
  cases hremote : r.isRemote with
  | true =>
      rw [typeUrl_of_remote hremote, typeUrl_of_local ht] at h
      exact absurd ⟨_, h⟩ (hr hremote)
  | false =>
      rw [typeUrl_of_local hremote, typeUrl_of_local ht, String.append_right_inj,
        String.append_right_inj] at h
      cases r
      cases t
      cases h
      rfl

end TypeUrl

/-! ## Entries of a view -/

/-- An entry of a view gives a scope on the type at an address, to a request for a level. -/
structure GrantView.Gives (entry : GrantView) (component : Component) (field address : String)
    (level : Option Confidentiality) (scope : String) : Prop where
  onComponent : entry.component = component.name
  onType : entry.types.get? field = some address
  admits : Admits (entry.ceiling.bind Named.ofName?) level
  gives : scope ∈ entry.scopes

theorem Component.ofName?_name (k : Component) : Named.ofName? k.name = some k := by
  cases k <;> rfl

theorem Component.name_injective : Function.Injective Component.name := by
  intro a b h
  have hname := a.ofName?_name
  rw [h, b.ofName?_name] at hname
  exact (Option.some.inj hname).symm

theorem Confidentiality.ofName?_name (l : Confidentiality) : Named.ofName? l.name = some l := by
  cases l <;> rfl

theorem TypeFields.get?_set {component : Component} {field : String}
    (h : component.typeField? = some field) (text : String) :
    (TypeFields.set {} field text).get? field = some text := by
  cases component <;> cases h <;> rfl

theorem TypeFields.get?_empty (field : String) : TypeFields.get? {} field = none := by
  simp [TypeFields.get?]

section Entries

variable {base field address scope : String} {component shown : Component}
  {level ceiling : Option Confidentiality} {scopes : ScopeSet} {typeRef : Option TypeRef}

theorem viewGrant_gives_iff (hfield : component.typeField? = some field) :
    (viewGrant base shown scopes typeRef ceiling).Gives component field address level scope ↔
      shown = component ∧ (∃ r, typeRef = some r ∧ typeUrl base component r = address) ∧
        Admits ceiling level ∧ scope ∈ scopes := by
  have hceiling : (viewGrant base shown scopes typeRef ceiling).ceiling.bind Named.ofName? =
      ceiling := by
    cases ceiling with
    | none => rfl
    | some l => exact l.ofName?_name
  have htypes : shown = component →
      ((viewGrant base shown scopes typeRef ceiling).types.get? field = some address ↔
        ∃ r, typeRef = some r ∧ typeUrl base component r = address) := by
    rintro rfl
    cases typeRef with
    | none => simp [viewGrant, TypeFields.get?_empty]
    | some r => simp [viewGrant, hfield, TypeFields.get?_set hfield]
  constructor
  · rintro ⟨hcomponent, htype, hadmits, hscope⟩
    have hshown := Component.name_injective hcomponent
    rw [hceiling] at hadmits
    exact ⟨hshown, (htypes hshown).1 htype, hadmits, hscope⟩
  · rintro ⟨hshown, htype, hadmits, hscope⟩
    refine ⟨congrArg Component.name hshown, (htypes hshown).2 htype, ?_, hscope⟩
    rw [hceiling]
    exact hadmits

end Entries

namespace Store

variable {s : Store} {base field scope : String} {component : Component} {a : Application}
  {level : Option Confidentiality} {t : TypeRef}

/-- The entries of a view that give a scope on a type come from the explicit grants on it
and from the grants on the catalogs that hold it. -/
theorem view_gives_iff (hfield : component.typeField? = some field) (hs : s.HoldsTypes)
    (hbelow : ∀ g ∈ s.listGrants a.uuid, ∀ r ∈ g.typeRef, r.isRemote = true → ¬ r.IsBelow base)
    (ht : t.isRemote = false) :
    (∃ entry ∈ (s.view base a).grants,
      entry.Gives component field (typeUrl base component t) level scope) ↔
      (∃ g ∈ s.listGrants a.uuid, g.component = component ∧ g.typeRef = some t ∧
        Admits g.ceiling level ∧ scope ∈ g.scopes) ∨
      ∃ g ∈ s.listCatalogGrants a.uuid, g.component = component ∧
        t ∈ s.catalogTypes g.catalog component ∧ Admits g.ceiling level ∧ scope ∈ g.scopes := by
  have hexplicit : ∀ g ∈ s.listGrants a.uuid,
      ((g.view base).Gives component field (typeUrl base component t) level scope ↔
        g.component = component ∧ g.typeRef = some t ∧ Admits g.ceiling level ∧
          scope ∈ g.scopes) := by
    intro g hg
    rw [Grant.view, viewGrant_gives_iff hfield]
    refine and_congr_right fun _ => and_congr_left fun _ => ?_
    constructor
    · rintro ⟨r, hr, haddress⟩
      rw [hr, (typeUrl_eq_iff ht (hbelow g hg r hr)).1 haddress]
    · exact fun hr => ⟨t, hr, rfl⟩
  have hcatalog : ∀ g : CatalogGrant, (∃ entry ∈ s.viewCatalogGrant base g,
      entry.Gives component field (typeUrl base component t) level scope) ↔
        g.component = component ∧ t ∈ s.catalogTypes g.catalog component ∧
          Admits g.ceiling level ∧ scope ∈ g.scopes := by
    intro g
    rw [viewCatalogGrant]
    constructor
    · rintro ⟨entry, hentry, hgives⟩
      split at hentry
      · cases hentry
      · obtain ⟨r, hr, rfl⟩ := List.mem_map.1 hentry
        obtain ⟨rfl, ⟨_, ⟨⟩, haddress⟩, hadmits, hscope⟩ := (viewGrant_gives_iff hfield).1 hgives
        obtain ⟨d, hd, -, -, rfl⟩ := mem_catalogTypes.1 hr
        have hlocal : d.reference.isRemote = true → ¬ d.reference.IsBelow base := by
          rw [hs d hd]
          exact fun hremote => absurd hremote Bool.false_ne_true
        rw [← (typeUrl_eq_iff ht hlocal).1 haddress]
        exact ⟨rfl, hr, hadmits, hscope⟩
    · rintro ⟨rfl, hmem, hadmits, hscope⟩
      rw [hfield, if_neg (by simp)]
      exact ⟨_, List.mem_map_of_mem hmem,
        (viewGrant_gives_iff hfield).2 ⟨rfl, ⟨t, rfl, rfl⟩, hadmits, hscope⟩⟩
  simp only [view, List.mem_append, or_and_right, exists_or, List.mem_map, List.mem_flatMap]
  refine or_congr ?_ ?_
  · constructor
    · rintro ⟨_, ⟨g, hg, rfl⟩, hgives⟩
      exact ⟨g, hg, (hexplicit g hg).1 hgives⟩
    · rintro ⟨g, hg, hgives⟩
      exact ⟨_, ⟨g, hg, rfl⟩, (hexplicit g hg).2 hgives⟩
  · constructor
    · rintro ⟨entry, ⟨g, hg, hentry⟩, hgives⟩
      exact ⟨g, hg, (hcatalog g).1 ⟨entry, hentry, hgives⟩⟩
    · rintro ⟨g, hg, hgives⟩
      obtain ⟨entry, hentry, hgives⟩ := (hcatalog g).2 hgives
      exact ⟨entry, ⟨g, hg, hentry⟩, hgives⟩

end Store

/-! ## Views and decisions -/

/-- A request for scopes on a type, made for one application. -/
def AccessRequest.onType (component : Component) (scopes : ScopeSet) (t : TypeRef)
    (level : Option Confidentiality) : AccessRequest :=
  ⟨some component, scopes, some t, level⟩

theorem provided_onType_iff {i : Installation} {c : Context} {a : Application}
    {component : Component} {scopes : ScopeSet} {t : TypeRef} {level : Option Confidentiality}
    {scope : String} (ht : t.isRemote = false) :
    (AccessRequest.onType component scopes t level).Provided [a] c i component scope ↔
      (∃ g ∈ i.store.listGrants a.uuid, g.component = component ∧ g.typeRef = some t ∧
        Admits g.ceiling level ∧ scope ∈ g.scopes) ∨
      ∃ g ∈ i.store.listCatalogGrants a.uuid, g.component = component ∧
        t ∈ i.store.catalogTypes g.catalog component ∧ Admits g.ceiling level ∧
          scope ∈ g.scopes := by
  have hlocal : (AccessRequest.onType component scopes t level).IsLocal := by
    rintro _ ⟨⟩
    exact ht
  have hcounts : ∀ catalog,
      (AccessRequest.onType component scopes t level).Counts c i component catalog ↔
        t ∈ i.store.catalogTypes catalog component := by
    intro catalog
    rw [AccessRequest.counts_of_isLocal hlocal, Store.mem_catalogTypes]
    simp [AccessRequest.onType]
  have hheld : ∀ {owner : String}, HeldBy [a] owner ↔ owner = a.uuid := by
    intro owner
    simp [HeldBy, eq_comm]
  constructor
  · intro h
    cases h with
    | explicit g stored held onComponent admits onType gives =>
        have hg : g ∈ i.store.listGrants a.uuid :=
          List.mem_filter.2 ⟨stored, decide_eq_true (hheld.1 held)⟩
        exact .inl ⟨g, hg, onComponent, onType t rfl, admits, gives⟩
    | catalog g stored held onComponent admits counts gives =>
        have hg := Store.mem_listCatalogGrants.2 ⟨stored, hheld.1 held⟩
        exact .inr ⟨g, hg, onComponent, (hcounts g.catalog).1 counts, admits, gives⟩
  · rintro (⟨g, hg, hcomponent, htype, hadmits, hscope⟩ |
      ⟨g, hg, hcomponent, hmem, hadmits, hscope⟩)
    · obtain ⟨stored, hown⟩ := List.mem_filter.1 hg
      refine .explicit g stored (hheld.2 (of_decide_eq_true hown)) hcomponent hadmits ?_ hscope
      rintro _ ⟨⟩
      exact htype
    · obtain ⟨stored, hown⟩ := Store.mem_listCatalogGrants.1 hg
      exact .catalog g stored (hheld.2 hown) hcomponent hadmits ((hcounts g.catalog).2 hmem) hscope

theorem entitled_onType_iff {i : Installation} {c : Context} {a : Application}
    (hflag : a.hasAllPermissions = false) {component : Component} {scopes : ScopeSet}
    (hscopes : ∃ scope, scope ∈ scopes) {t : TypeRef} {level : Option Confidentiality} :
    (AccessRequest.onType component scopes t level).Entitled [a] c i ↔
      ∀ scope ∈ scopes, (AccessRequest.onType component scopes t level).Provided [a] c i
        component scope := by
  simp only [AccessRequest.Entitled, AccessRequest.onType]
  simp [hflag, hscopes]

/-- In an installation that can be found running, what an application without every
permission may do on a type that is held here is what the entries of its view give that
have the address of the type. Its catalog grants may be on any catalogs, and the type need
not be stored yet; only an explicit grant on a remote reference below the own catalog could
be taken for one on a type that is held here. -/
theorem view_shows_decision {i : Installation} (h : Reachable i) {uuid : String}
    {a : Application} (ha : i.store.application? uuid = some a)
    (hflag : a.hasAllPermissions = false) {c : Context}
    (hbelow : ∀ g ∈ i.store.listGrants uuid, ∀ r ∈ g.typeRef,
      r.isRemote = true → ¬ r.IsBelow c.settings.publicBaseUrl)
    {component : Component} {field : String} (hfield : component.typeField? = some field)
    {t : TypeRef} (ht : t.isRemote = false) {scopes : ScopeSet}
    (hscopes : ∃ scope, scope ∈ scopes) (level : Option Confidentiality) :
    ∃ view allowed, (getApplication uuid c i).1 = .ok view ∧
      ((AccessRequest.onType component scopes t level).allow [a] c i).1 = .ok allowed ∧
      (allowed = true ↔ ∀ scope ∈ scopes, ∃ entry ∈ view.grants,
        entry.Gives component field (typeUrl c.settings.publicBaseUrl component t) level
          scope) := by
  have huuid : a.uuid = uuid := Store.uuid_of_application? ha
  subst huuid
  have hview : (getApplication a.uuid c i).1 =
      .ok (i.store.view c.settings.publicBaseUrl a) := by
    rw [getApplication, bind_of_ok (application_of_some ha)]
    rfl
  obtain ⟨allowed, hallowed, hentitled⟩ := AccessRequest.allow_iff_entitled h.coherent.agrees
    (AccessRequest.onType component scopes t level) [a] c
  refine ⟨_, allowed, hview, hallowed, hentitled.trans ?_⟩
  rw [entitled_onType_iff hflag hscopes]
  refine forall₂_congr fun scope _ => ?_
  rw [provided_onType_iff ht, Store.view_gives_iff hfield h.holdsTypes hbelow ht]

/-- The library may read the new book, as its view says. -/
theorem library_shows_book :
    ∃ view allowed, (getApplication "library" Context.alone stockedLibrary).1 = .ok view ∧
      (readBook.allow [⟨"library", "Library", SortedSet.ofList ["reader"], false⟩] Context.alone
        stockedLibrary).1 = .ok allowed ∧
      (allowed = true ↔ ∀ scope ∈ readBook.scopes, ∃ entry ∈ view.grants,
        entry.Gives .zrc "zaaktype" "http://localhost/catalogi/api/v1/zaaktypen/book"
          (some .intern) scope) ∧ allowed = true := by
  have hreach : Reachable stockedLibrary :=
    (((Reachable.start {}).step (.administration _ _ _)).step (.administration _ _ _)).step
      (.administration _ _ _)
  have hlibrary : stockedLibrary.store.application? "library" =
      some ⟨"library", "Library", SortedSet.ofList ["reader"], false⟩ := by decide +kernel
  have huntyped : stockedLibrary.store.listGrants "library" =
      [⟨1, "library", .ac, ScopeSet.single "autorisaties.lezen", none, none⟩] := by
    decide +kernel
  have hfield : Component.zrc.typeField? = some "zaaktype" := rfl
  have hlocal : book.reference.isRemote = false := rfl
  have hscopes : ∃ scope, scope ∈ ScopeSet.single "zaken.lezen" :=
    ⟨"zaken.lezen", by decide +kernel⟩
  obtain ⟨view, allowed, hview, hallowed, hiff⟩ := view_shows_decision (c := Context.alone)
    hreach hlibrary rfl (by simp [huntyped]) hfield hlocal hscopes (some .intern)
  have htrue : (readBook.allow [⟨"library", "Library", SortedSet.ofList ["reader"], false⟩]
      Context.alone stockedLibrary).1 = .ok true := by decide +kernel
  have haddress : typeUrl Context.alone.settings.publicBaseUrl .zrc book.reference =
      "http://localhost/catalogi/api/v1/zaaktypen/book" := by decide +kernel
  rw [haddress] at hiff
  have hsame : allowed = true := Except.ok.inj (hallowed.symm.trans htrue)
  exact ⟨view, allowed, hview, hallowed, hiff, hsame⟩

end CaseAccess
