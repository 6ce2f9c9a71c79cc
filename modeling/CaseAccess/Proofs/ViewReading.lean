import CaseAccess.Proofs.RecordReading
import CaseAccess.Proofs.ReferenceReading
import CaseAccess.Proofs.StoredGrants
import CaseAccess.Proofs.ViewEntitlement

/-!
# What is read from a view

A view is a document, and it can be sent back as a body. The body is decoded to just what
the view says, without the parts that no body has.

Of a grant that was read from a body everything comes back that way, except that its type
is read from the address under which it is shown. So a shown grant can be read just if
that address can, and the grant that is read differs at most in its type: `reread` says in
which. A remote reference is its own address. An identifier comes back if it can be found
again at the end of its address.
-/

namespace CaseAccess

open Json (list?_ofTexts mapM_eq_some)
open Json.Layout (decode_object read_defaulted read_map read_optional read_seq)

/-! ## The view as a body -/

/-- What a grant asks for that is as the shown one. -/
def GrantView.body (g : GrantView) : GrantBody := ⟨g.component, g.scopes, g.types, g.ceiling⟩

/-- What a body asks for that is as the view. -/
def ApplicationView.body (a : ApplicationView) : ApplicationBody :=
  ⟨a.clientIds, a.label, a.hasAllPermissions, a.grants.map GrantView.body⟩

/-- A grant is read from its document, whichever of its parts are left out. -/
theorem GrantView.decode_toJson (g : GrantView) :
    GrantBody.layout.decode g.toJson = some g.body := by
  obtain ⟨component, scopes, ⟨zaaktype, informatieobjecttype, besluittype⟩, ceiling⟩ := g
  have htext : ∀ text : String, Json.optional? Json.text? (.string text) = some (some text) :=
    fun _ => rfl
  rw [GrantView.toJson, grantMembers, decode_object]
  · refine read_seq (read_seq (read_seq (read_map (read_defaulted rfl rfl))
      (read_defaulted rfl (list?_ofTexts scopes))) (read_seq (read_seq (read_map
      (read_optional ?_ htext)) (read_optional ?_ htext)) (read_optional ?_ htext)))
      (read_optional ?_ htext)
    all_goals
      cases zaaktype <;> cases informatieobjecttype <;> cases besluittype <;> cases ceiling <;> rfl
  · cases zaaktype <;> cases informatieobjecttype <;> cases besluittype <;> cases ceiling <;> rfl

theorem ApplicationView.decode_toJson (a : ApplicationView) :
    ApplicationBody.layout.decode a.toJson = some a.body := by
  have hgrants : Json.list? GrantBody.layout.decode (Json.ofList GrantView.toJson a.grants) =
      some (a.grants.map GrantView.body) := mapM_eq_some GrantView.decode_toJson a.grants
  rw [ApplicationView.toJson, decode_object (by rfl)]
  exact read_seq (read_seq (read_seq (read_map (read_defaulted rfl (list?_ofTexts a.clientIds)))
    (read_defaulted rfl rfl)) (read_defaulted rfl rfl)) (read_defaulted rfl hgrants)

/-! ## Grants -/

/-- What is true of every grant that was read from a body. -/
structure Grant.IsWritten (bases : LocalBases) (g : Grant) : Prop where
  scopes : g.scopes.toList ≠ []
  untyped : g.component.typeField? = none → g.typeRef = none
  typed : ∀ field, g.component.typeField? = some field →
    ∃ r text, g.typeRef = some r ∧ bases.read text = .ok r
  ceiling : g.component.hasConfidentiality = true → g.ceiling ≠ none

/-- What is read where the type of a grant is shown, if that can be read. -/
def Grant.rereadType (bases : LocalBases) (base : String) (g : Grant) : Option (Option TypeRef) :=
  g.typeRef.elim (some none) fun r =>
    (bases.read (typeUrl base g.component r)).toOption.map some

/-- The grant that is read where this one is shown, if it can be read. -/
def Grant.reread (bases : LocalBases) (base : String) (g : Grant) : Option Grant :=
  (g.rereadType bases base).map fun typeRef => { g.heldBy "" with typeRef }

section Grants

variable {bases : LocalBases} {base path : String} {place : Nat} {component : Component}
  {g : Grant}

namespace GrantBody

variable {body : GrantBody}

/-! ### Grants that were read -/

theorem read_ok (h : body.read bases place = .ok g) :
    ∃ path, body.component = g.component.name ∧ body.readScopes path = .ok g.scopes ∧
      body.readType bases path g.component = .ok g.typeRef ∧
      body.readCeiling path g.component = .ok g.ceiling := by
  simp only [read] at h
  split at h
  · cases h
  · next component hcomponent =>
    split at h
    · next scopes typeRef ceiling hscopes htype hceiling =>
      cases h
      exact ⟨_, (Named.name_of_ofName? hcomponent).symm, hscopes, htype, hceiling⟩
    · cases h

theorem readScopes_ok {scopes : ScopeSet} (h : body.readScopes path = .ok scopes) :
    body.scopes ≠ [] ∧ scopes = SortedSet.ofList body.scopes := by
  rw [readScopes] at h
  split at h
  · cases h
  · next hne =>
    cases h
    exact ⟨hne, rfl⟩

theorem readType_untyped {typeRef : Option TypeRef} (hfield : component.typeField? = none)
    (h : body.readType bases path component = .ok typeRef) : typeRef = none := by
  rw [readType, hfield] at h
  cases h
  rfl

theorem readType_ok {field : String} {typeRef : Option TypeRef}
    (hfield : component.typeField? = some field)
    (h : body.readType bases path component = .ok typeRef) :
    ∃ text r, body.typeText? field = some text ∧ bases.read text = .ok r ∧ typeRef = some r := by
  simp only [readType, hfield] at h
  split at h
  · cases h
  · next text htext =>
    split at h
    · next r hread =>
      cases h
      exact ⟨text, r, htext, hread, rfl⟩
    · cases h

theorem readCeiling_ok {ceiling : Option Confidentiality}
    (h : body.readCeiling path component = .ok ceiling) :
    body.ceiling = ceiling.map (·.name) ∧
      (component.hasConfidentiality = true → ceiling ≠ none) := by
  simp only [readCeiling] at h
  split at h
  · next text htext =>
    split at h
    · next level hlevel =>
      cases h
      rw [htext, ← Named.name_of_ofName? hlevel]
      exact ⟨rfl, fun _ => Option.some_ne_none _⟩
    · cases h
  · next hnone =>
    split at h
    · cases h
    · next hfree =>
      cases h
      exact ⟨hnone, fun hlevel => absurd hlevel hfree⟩

theorem isWritten_of_read (h : body.read bases place = .ok g) : g.IsWritten bases := by
  obtain ⟨path, -, hscopes, htype, hceiling⟩ := read_ok h
  obtain ⟨hne, hscopes⟩ := readScopes_ok hscopes
  refine ⟨?_, fun huntyped => readType_untyped huntyped htype, fun field hfield => ?_,
    (readCeiling_ok hceiling).2⟩
  · obtain ⟨scope, hscope⟩ := List.exists_mem_of_ne_nil _ hne
    have hmem : scope ∈ g.scopes := hscopes ▸ SortedSet.mem_ofList.2 hscope
    exact List.ne_nil_of_mem (SortedSet.mem_toList.2 hmem)
  · obtain ⟨text, r, -, hread, hr⟩ := readType_ok hfield htype
    exact ⟨r, text, hr, hread⟩

/-! ### Grants that are shown -/

theorem readScopes_view (path : String) (hg : g.IsWritten bases) :
    (g.view base).body.readScopes path = .ok g.scopes := by
  have hbody : (g.view base).body.scopes = g.scopes.toList := rfl
  rw [readScopes, hbody, if_neg hg.scopes, g.scopes.ofList_toList]

theorem readCeiling_view (path : String) (hg : g.IsWritten bases) :
    (g.view base).body.readCeiling path g.component = .ok g.ceiling := by
  have hbody : (g.view base).body.ceiling = g.ceiling.map (·.name) := rfl
  rw [readCeiling, hbody]
  cases hceiling : g.ceiling with
  | none =>
      have hlevel : ¬ g.component.hasConfidentiality = true := fun h => hg.ceiling h hceiling
      simp only [Option.map_none, if_neg hlevel]
  | some level => simp only [Option.map_some, level.ofName?_name]

/-- The type of a shown grant is read from its address. -/
theorem readType_view (path : String) (hg : g.IsWritten bases) :
    ((g.view base).body.readType bases path g.component).toOption =
      g.rereadType bases base := by
  rw [readType, Grant.rereadType]
  cases hfield : g.component.typeField? with
  | none =>
      rw [hg.untyped hfield]
      rfl
  | some field =>
      obtain ⟨r, text, hr, -⟩ := hg.typed field hfield
      have htypes : (g.view base).body.types =
          TypeFields.set {} field (typeUrl base g.component r) := by
        simp only [GrantView.body, Grant.view, viewGrant, hfield, hr]
      have htext : (g.view base).body.typeText? field =
          (some (typeUrl base g.component r)).filter (· ≠ "") := by
        rw [typeText?, htypes, TypeFields.get?_set hfield]
      simp only [hr, htext, Option.elim_some]
      by_cases hempty : typeUrl base g.component r = ""
      · rw [hempty]
        rfl
      · rw [Option.filter_some, decide_eq_true hempty, if_pos rfl]
        simp only []
        cases bases.read (typeUrl base g.component r) with
        | ok t => rfl
        | error e => rfl

/-- A grant that was read is read from its view as `reread` says, wherever it stands. -/
theorem read_view (hg : g.IsWritten bases) :
    ((g.view base).body.read bases place).toOption = g.reread bases base := by
  have hcomponent : Named.ofName? (g.view base).body.component = some g.component :=
    g.component.ofName?_name
  simp only [read, hcomponent, readScopes_view _ hg, readCeiling_view _ hg]
  rw [Grant.reread, ← readType_view s!"autorisaties.{place}" hg]
  cases (g.view base).body.readType bases s!"autorisaties.{place}" g.component with
  | ok typeRef => rfl
  | error e => rfl

end GrantBody

/-! ### Lists of grants -/

section List

variable {grants : List Grant}

theorem map_toOption_readGrants (h : ∀ g ∈ grants, g.IsWritten bases) :
    (readGrants bases (grants.map fun g => (g.view base).body)).map Except.toOption =
      grants.map (·.reread bases base) := by
  have hfrom : ∀ start, (((grants.map fun g => (g.view base).body).zipIdx start).map
      fun entry => entry.1.read bases entry.2).map Except.toOption =
        grants.map (·.reread bases base) := by
    induction grants with
    | nil => exact fun _ => rfl
    | cons g rest ih =>
        intro start
        have hrest := ih (fun g' hg' => h g' (List.mem_cons_of_mem _ hg')) (start + 1)
        simp only [List.map_cons, List.zipIdx_cons,
          GrantBody.read_view (h g List.mem_cons_self), hrest]
  exact hfrom 0

theorem acceptedGrants_view (h : ∀ g ∈ grants, g.IsWritten bases) :
    acceptedGrants (readGrants bases (grants.map fun g => (g.view base).body)) =
      grants.filterMap (·.reread bases base) := by
  have hfilter : ∀ {α β : Type} (f : α → Option β) (l : List α),
      l.filterMap f = (l.map f).filterMap id := fun f l => by
    rw [List.filterMap_map]
    rfl
  rw [acceptedGrants, hfilter, map_toOption_readGrants h, ← hfilter]

theorem grantRefusals_eq_nil {bodies : List GrantBody} :
    grantRefusals (readGrants bases bodies) = [] ↔
      ∀ o ∈ (readGrants bases bodies).map Except.toOption, o.isSome = true := by
  rw [grantRefusals, List.flatMap_eq_nil_iff, List.forall_mem_map]
  refine forall₂_congr fun x hx => ?_
  have hnamed : x ≠ .error [] := by
    obtain ⟨⟨body, place⟩, -, rfl⟩ := List.mem_map.1 hx
    exact body.read_ne_error_nil bases place
  cases x with
  | ok g => simp [Except.toOption]
  | error refusals =>
      have hne : refusals ≠ [] := fun hnil => hnamed (hnil ▸ rfl)
      simp [Except.toOption, hne]

/-- Nothing is refused where every grant can be read. -/
theorem grantRefusals_view (h : ∀ g ∈ grants, g.IsWritten bases) :
    grantRefusals (readGrants bases (grants.map fun g => (g.view base).body)) = [] ↔
      ∀ g ∈ grants, (g.reread bases base).isSome = true := by
  rw [grantRefusals_eq_nil, map_toOption_readGrants h, List.forall_mem_map]

end List

/-! ### Types -/

section Types

variable {own : Url} {r t : TypeRef} {text : String} {g' : Grant}

theorem isCollection_of_component (component : Component) :
    IsCollection (component.typeCollection?.getD "zaaktypen").toList := by
  have hzaak : IsCollection "zaaktypen".toList :=
    ⟨by decide +kernel, by decide +kernel, by decide +kernel⟩
  cases component with
  | drc => exact ⟨by decide +kernel, by decide +kernel, by decide +kernel⟩
  | brc => exact ⟨by decide +kernel, by decide +kernel, by decide +kernel⟩
  | _ => exact hzaak

/-- A reference that was read comes back from its address just if it is remote or can be
found again there. -/
theorem read_typeUrl_iff (component : Component)
    (hcatalog : bases.IsCatalog (catalogBase base).toList own) (hread : bases.read text = .ok r) :
    bases.read (typeUrl base component r) = .ok r ↔
      r.isRemote = true ∨ Url.CanName (catalogBase base).toList own r.key.toList := by
  cases hremote : r.isRemote with
  | true =>
      rw [typeUrl_of_remote hremote]
      exact iff_of_true (LocalBases.read_remote hread hremote) (.inl rfl)
  | false =>
      obtain ⟨htrim, hne⟩ := LocalBases.trim_of_local hread hremote
      have haddress : typeUrl base component r = String.ofList ((catalogBase base).toList ++
          ((component.typeCollection?.getD "zaaktypen").toList ++ '/' :: r.key.toList)) := by
        rw [typeUrl_of_local hremote, ← String.toList_inj, String.toList_ofList]
        simp
      have hself : r = ⟨String.ofList r.key.toList⟩ := by rw [String.ofList_toList]
      rw [haddress, ← hcatalog.read_eq_iff (isCollection_of_component component) htrim hne hremote,
        ← hself]
      simp

namespace Grant

/-- The type of the grant can be found again where it is shown. -/
def CanReturn (base : String) (own : Url) (g : Grant) : Prop :=
  ∀ r, g.typeRef = some r →
    r.isRemote = true ∨ Url.CanName (catalogBase base).toList own r.key.toList

theorem reread_typed {r : TypeRef} (htype : g.typeRef = some r) :
    g.reread bases base = some g' ↔ ∃ t, bases.read (typeUrl base g.component r) = .ok t ∧
      g' = { g.heldBy "" with typeRef := some t } := by
  rw [reread, rereadType, htype, Option.elim_some]
  cases bases.read (typeUrl base g.component r) with
  | ok t => simp [Except.toOption, eq_comm]
  | error e => simp [Except.toOption]

theorem IsWritten.read_type (hg : g.IsWritten bases) (htype : g.typeRef = some r) :
    ∃ field text, g.component.typeField? = some field ∧ bases.read text = .ok r := by
  cases hfield : g.component.typeField? with
  | none =>
      rw [hg.untyped hfield] at htype
      cases htype
  | some field =>
      obtain ⟨r', text, hr, hread⟩ := hg.typed field hfield
      rw [htype] at hr
      cases hr
      exact ⟨field, text, rfl, hread⟩

theorem reread_eq_self_iff (hcatalog : bases.IsCatalog (catalogBase base).toList own)
    (hg : g.IsWritten bases) :
    g.reread bases base = some (g.heldBy "") ↔ g.CanReturn base own := by
  cases htype : g.typeRef with
  | none =>
      refine iff_of_true ?_ fun r hr => ?_
      · rw [reread, rereadType, htype]
        cases g
        cases htype
        rfl
      · rw [htype] at hr
        cases hr
  | some r =>
      obtain ⟨field, text, -, hread⟩ := hg.read_type htype
      have hself : ∀ t, g.heldBy "" = { g.heldBy "" with typeRef := some t } ↔ t = r := by
        intro t
        cases g
        cases htype
        simp [heldBy, eq_comm]
      have hreturns : g.CanReturn base own ↔
          r.isRemote = true ∨ Url.CanName (catalogBase base).toList own r.key.toList := by
        rw [CanReturn, htype]
        exact ⟨fun h => h r rfl, fun h _ hr => Option.some.inj hr ▸ h⟩
      rw [reread_typed htype, hreturns, ← read_typeUrl_iff g.component hcatalog hread]
      simp only [hself, exists_eq_right]

theorem component_reread (h : g.reread bases base = some g') : g'.component = g.component := by
  obtain ⟨typeRef, -, rfl⟩ := Option.map_eq_some_iff.1 h
  rfl

/-- A grant that is read where it is shown, and shown as it was, is on a type that comes back
from its address. -/
theorem read_of_reread (h : g.reread bases base = some g') (hg : g.IsWritten bases)
    (hview : g'.view base = g.view base) (htype' : g'.typeRef = some t) :
    bases.read (typeUrl base g.component t) = .ok t := by
  cases htype : g.typeRef with
  | none =>
      rw [reread, rereadType, htype, Option.elim_none, Option.map_some] at h
      cases h
      cases htype'
  | some r =>
      obtain ⟨field, text, hfield, -⟩ := hg.read_type htype
      obtain ⟨_, hread, rfl⟩ := (reread_typed htype).1 h
      cases htype'
      have htypes := congrArg GrantView.types hview
      simp only [view, viewGrant, heldBy, hfield, htype] at htypes
      have htexts := congrArg (TypeFields.get? · field) htypes
      rw [TypeFields.get?_set hfield, TypeFields.get?_set hfield, Option.some.injEq] at htexts
      rw [htexts]
      exact hread

end Grant

end Types

end Grants

end CaseAccess
