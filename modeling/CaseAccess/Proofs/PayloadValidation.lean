import CaseAccess.Proofs.Revision

/-!
# Payloads of new applications

A payload is read once, and everything that is wrong with it is collected on the way. Here
is said what can be wrong, apart from how it is looked for: `Violates` gives every finding
a place, four for the fields of an application and four for each of its grants, and says
when it is there. The list that the reading collects has the findings of all places in
their order, each once. This is shown for stretches of places, `ListsBetween`, which are
put together as the lists are.

A payload without findings is `Valid`, and an application is created from just such a
payload, unless another application has one of its client identifiers. Its grants are then
those of the payload, one for each and in their order.
-/

namespace CaseAccess

open Operation Administration

/-! ## Lists of findings -/

/-- The list has what is found at the places from one up to another, in the order of the
places and each once. -/
def ListsBetween {α : Type} (found : Nat → α → Prop) (first last : Nat) (l : List α) : Prop :=
  ∃ entries : List (Nat × α), entries.map Prod.snd = l ∧
    entries.Pairwise (fun a b => a.1 < b.1) ∧
    ∀ place a, (place, a) ∈ entries ↔ found place a ∧ first ≤ place ∧ place < last

/-- The list has what is found at any place, in the order of the places and each once. -/
def ListsAll {α : Type} (found : Nat → α → Prop) (l : List α) : Prop :=
  ∃ entries : List (Nat × α), entries.map Prod.snd = l ∧
    entries.Pairwise (fun a b => a.1 < b.1) ∧ ∀ place a, (place, a) ∈ entries ↔ found place a

section Lists

variable {α : Type} {found found' : Nat → α → Prop} {first middle last start size : Nat}
  {l l' : List α}

theorem listsBetween_nil (h : ∀ place a, first ≤ place → place < last → ¬ found place a) :
    ListsBetween found first last [] :=
  ⟨[], rfl, .nil, fun place a => iff_of_false List.not_mem_nil
    fun ⟨hfound, hfirst, hlast⟩ => h place a hfirst hlast hfound⟩

/-- One place has one finding or none. -/
theorem listsBetween_one (start : Nat) (hsize : l.length ≤ 1)
    (h : ∀ a, a ∈ l ↔ found start a) : ListsBetween found start (start + 1) l := by
  refine ⟨l.map (start, ·), ?_, ?_, fun place a => ?_⟩
  · rw [List.map_map]
    exact List.map_id' l
  · match l, hsize with
    | [], _ => exact .nil
    | [a], _ => exact List.pairwise_singleton _ _
  · rw [List.mem_map]
    constructor
    · rintro ⟨b, hb, heq⟩
      cases heq
      exact ⟨(h _).1 hb, Nat.le_refl _, Nat.lt_succ_self _⟩
    · rintro ⟨hfound, hfirst, hlast⟩
      obtain rfl : place = start := by omega
      exact ⟨a, (h a).2 hfound, rfl⟩

theorem listsBetween_if {c : Prop} [Decidable c] {a : α} (start : Nat)
    (h : ∀ b, found start b ↔ c ∧ b = a) :
    ListsBetween found start (start + 1) (if c then [a] else []) := by
  refine listsBetween_one start ?_ fun b => ?_
  · split
    · exact Nat.le_refl 1
    · exact Nat.zero_le 1
  · rw [List.mem_ite_nil_right, List.mem_singleton, h]

theorem ListsBetween.append (h : ListsBetween found first middle l)
    (h' : ListsBetween found middle last l') (hfirst : first ≤ middle) (hlast : middle ≤ last) :
    ListsBetween found first last (l ++ l') := by
  obtain ⟨entries, rfl, hordered, hmem⟩ := h
  obtain ⟨entries', rfl, hordered', hmem'⟩ := h'
  refine ⟨entries ++ entries', List.map_append, ?_, fun place a => ?_⟩
  · refine List.pairwise_append.2 ⟨hordered, hordered', fun e he e' he' => ?_⟩
    have hbefore := ((hmem e.1 e.2).1 he).2.2
    have hafter := ((hmem' e'.1 e'.2).1 he').2.1
    omega
  · rw [List.mem_append, hmem, hmem', ← and_or_left]
    refine and_congr_right fun _ => ?_
    omega

/-- Findings at the same places further on. -/
theorem ListsBetween.shift (h : ListsBetween found' 0 size l)
    (hsame : ∀ place a, place < size → (found (start + place) a ↔ found' place a)) :
    ListsBetween found start (start + size) l := by
  obtain ⟨entries, rfl, hordered, hmem⟩ := h
  refine ⟨entries.map fun e => (start + e.1, e.2), ?_, ?_, fun place a => ?_⟩
  · rw [List.map_map]
    rfl
  · rw [List.pairwise_map]
    exact hordered.imp fun hlt => Nat.add_lt_add_left hlt start
  · rw [List.mem_map]
    constructor
    · rintro ⟨⟨offset, b⟩, he, heq⟩
      cases heq
      obtain ⟨hfound, -, hlt⟩ := (hmem offset b).1 he
      exact ⟨(hsame offset b hlt).2 hfound, by omega, by omega⟩
    · rintro ⟨hfound, hfirst, hlast⟩
      obtain ⟨offset, rfl⟩ := Nat.exists_eq_add_of_le hfirst
      have hlt : offset < size := by omega
      exact ⟨(offset, a), (hmem offset a).2 ⟨(hsame offset a hlt).1 hfound, by omega, hlt⟩, rfl⟩

theorem ListsBetween.listsAll (h : ListsBetween found 0 last l)
    (hlast : ∀ place a, found place a → place < last) : ListsAll found l := by
  obtain ⟨entries, hl, hordered, hmem⟩ := h
  refine ⟨entries, hl, hordered, fun place a => (hmem place a).trans ?_⟩
  exact ⟨fun h => h.1, fun h => ⟨h, Nat.zero_le _, hlast place a h⟩⟩

theorem ListsAll.eq_nil_iff (h : ListsAll found l) : l = [] ↔ ∀ place a, ¬ found place a := by
  obtain ⟨entries, rfl, -, hmem⟩ := h
  rw [List.map_eq_nil_iff, List.eq_nil_iff_forall_not_mem, Prod.forall]
  exact forall₂_congr fun place a => not_congr (hmem place a)

end Lists

/-! ## What can be wrong -/

/-- What can be wrong with a grant: its component, and if that is known its scopes, its type
and its ceiling. -/
def GrantBody.Violates (bases : LocalBases) (path : String) (g : GrantBody) :
    Nat → InvalidParam → Prop
  | 0, p =>
      (∀ component : Component, component.name ≠ g.component) ∧
        p = ⟨path ++ ".component", "invalid_choice", Component.unknownMessage g.component⟩
  | 1, p =>
      (∃ component : Component, component.name = g.component) ∧ g.scopes = [] ∧
        p = ⟨path ++ ".scopes", "required", "scopes cannot be empty"⟩
  | 2, p =>
      ∃ component : Component, component.name = g.component ∧
        ∃ field, component.typeField? = some field ∧
          ((g.typeText? field = none ∧
            p = ⟨s!"{path}.{field}", "required",
              s!"{field} is required for component {component}"⟩) ∨
          ∃ text cause, g.typeText? field = some text ∧ bases.read text = .error cause ∧
            p = ⟨s!"{path}.{field}", "bad-url", cause.message⟩)
  | 3, p =>
      ∃ component : Component, component.name = g.component ∧
        ((g.ceiling = none ∧ (component = .zrc ∨ component = .drc) ∧
          p = ⟨path ++ ".maxVertrouwelijkheidaanduiding", "required",
            s!"maxVertrouwelijkheidaanduiding is required for component {component}"⟩) ∨
        ∃ text, g.ceiling = some text ∧ (∀ level : Confidentiality, level.name ≠ text) ∧
          p = ⟨path ++ ".maxVertrouwelijkheidaanduiding", "invalid_choice",
            Confidentiality.unknownMessage text⟩)
  | _, _ => False

/-- What can be wrong with a payload: its client identifiers, its label, having every
permission beside grants or neither, and its grants, each with four places. -/
def ApplicationBody.Violates (bases : LocalBases) (body : ApplicationBody) :
    Nat → InvalidParam → Prop
  | 0, p =>
      body.clientIds = [] ∧ p = ⟨"clientIds", "required", "at least one client id is required"⟩
  | 1, p =>
      (∃ id ∈ body.clientIds, trimmed id = "") ∧
        p = ⟨"clientIds", "blank", "client ids cannot be blank"⟩
  | 2, p => trimmed body.label = "" ∧ p = ⟨"label", "required", "label cannot be empty"⟩
  | 3, p =>
      (body.hasAllPermissions = true ∧ body.grants ≠ [] ∧
        p = ⟨nonFieldErrors, "ambiguous-authorizations-specified",
          "either set heeftAlleAutorisaties or list autorisaties, not both"⟩) ∨
      (body.hasAllPermissions = false ∧ body.grants = [] ∧
        p = ⟨nonFieldErrors, "missing-autorisaties",
          "set heeftAlleAutorisaties or list autorisaties"⟩)
  | place + 4, p =>
      ∃ g, body.grants[place / 4]? = some g ∧
        g.Violates bases s!"autorisaties.{place / 4}" (place % 4) p

/-- A grant that is valid for a component. -/
structure GrantBody.ValidFor (bases : LocalBases) (g : GrantBody) (component : Component) :
    Prop where
  named : component.name = g.component
  scopes : g.scopes ≠ []
  typed : ∀ field, component.typeField? = some field →
    ∃ text r, g.typeText? field = some text ∧ bases.read text = .ok r
  ceiling : ∀ text, g.ceiling = some text → ∃ level : Confidentiality, level.name = text
  levelled : component = .zrc ∨ component = .drc → g.ceiling ≠ none

/-- A payload from which an application can be created. -/
structure ApplicationBody.Valid (bases : LocalBases) (body : ApplicationBody) : Prop where
  identified : body.clientIds ≠ []
  identifiers : ∀ id ∈ body.clientIds, trimmed id ≠ ""
  label : trimmed body.label ≠ ""
  /-- It has every permission or grants, one of the two. -/
  exclusive : body.hasAllPermissions = true ↔ body.grants = []
  grants : ∀ g ∈ body.grants, ∃ component, g.ValidFor bases component

/-! ## Grants -/

/-- A part of a grant is refused once or not at all. -/
theorem listsBetween_refusal {α : Type} {found : Nat → InvalidParam → Prop}
    {x : Except InvalidParam α} (start : Nat) (h : ∀ p, x = .error p ↔ found start p) :
    ListsBetween found start (start + 1) (refusal x) := by
  cases x with
  | ok a =>
      refine listsBetween_one start (Nat.zero_le 1) fun p => ?_
      rw [← h]
      exact iff_of_false List.not_mem_nil fun h => by cases h
  | error q =>
      refine listsBetween_one start (Nat.le_refl 1) fun p => ?_
      rw [refusal, List.mem_singleton, ← h, Except.error.injEq, eq_comm]

theorem ofName?_component {text : String} {component : Component} :
    Named.ofName? text = some component ↔ component.name = text :=
  ⟨Named.name_of_ofName?, fun h => h ▸ component.ofName?_name⟩

theorem ofName?_level {text : String} {level : Confidentiality} :
    Named.ofName? text = some level ↔ level.name = text :=
  ⟨Named.name_of_ofName?, fun h => h ▸ level.ofName?_name⟩

namespace GrantBody

variable {bases : LocalBases} {g : GrantBody} {path : String} {component : Component}
  {place start : Nat} {p : InvalidParam}

theorem Violates.place_lt (h : g.Violates bases path place p) : place < 4 := by
  match place, h with
  | 0, _ | 1, _ | 2, _ | 3, _ => omega

theorem readScopes_eq_error (known : component.name = g.component) :
    g.readScopes path = .error p ↔ g.Violates bases path 1 p := by
  have hknown : ∃ component : Component, component.name = g.component := ⟨component, known⟩
  rw [readScopes, Violates, and_iff_right hknown]
  split
  · next hnone => rw [and_iff_right hnone, Except.error.injEq, eq_comm]
  · next hsome => exact iff_of_false (fun h => by cases h) fun h => hsome h.1

/-- The component that a grant names. -/
theorem exists_component_iff (known : component.name = g.component) {q : Component → Prop} :
    (∃ component : Component, component.name = g.component ∧ q component) ↔ q component := by
  constructor
  · rintro ⟨other, hother, hq⟩
    have hsame := (ofName?_component.2 hother).symm.trans (ofName?_component.2 known)
    rwa [Option.some.inj hsame] at hq
  · exact fun hq => ⟨component, known, hq⟩

theorem readType_eq_error (known : component.name = g.component) :
    g.readType bases path component = .error p ↔ g.Violates bases path 2 p := by
  rw [Violates, exists_component_iff known, readType]
  cases component.typeField? with
  | none => simp
  | some field =>
      cases htext : g.typeText? field with
      | none => simp [htext, eq_comm]
      | some text =>
          cases hread : bases.read text with
          | ok r => simp [htext, hread]
          | error cause => simp [htext, hread, eq_comm]

theorem readCeiling_eq_error (known : component.name = g.component) :
    g.readCeiling path component = .error p ↔ g.Violates bases path 3 p := by
  have hlevelled : component.hasConfidentiality = true ↔ component = .zrc ∨ component = .drc := by
    cases component <;> simp [Component.hasConfidentiality]
  rw [Violates, exists_component_iff known, readCeiling, ← hlevelled]
  cases hceiling : g.ceiling with
  | none =>
      cases component.hasConfidentiality with
      | true => simp [eq_comm]
      | false => simp
  | some text =>
      cases hlevel : (Named.ofName? text : Option Confidentiality) with
      | none =>
          have hunknown : ∀ level : Confidentiality, level.name ≠ text := fun level hname => by
            rw [ofName?_level.2 hname] at hlevel
            cases hlevel
          simp only [hlevel]
          constructor
          · intro h
            cases h
            exact .inr ⟨text, rfl, hunknown, rfl⟩
          · rintro (⟨hnone, -⟩ | ⟨_, htext, -, rfl⟩)
            · cases hnone
            · cases htext
              rfl
      | some level =>
          have hknown : ∃ level : Confidentiality, level.name = text :=
            ⟨level, ofName?_level.1 hlevel⟩
          simp [hlevel, hknown]

/-- What is wrong with the grant at a place of the list. -/
def refusals (bases : LocalBases) (place : Nat) (g : GrantBody) : List InvalidParam :=
  match g.read bases place with
  | .ok _ => []
  | .error ps => ps

theorem refusals_of_known (known : component.name = g.component) :
    g.refusals bases place = refusal (g.readScopes s!"autorisaties.{place}") ++
      refusal (g.readType bases s!"autorisaties.{place}" component) ++
      refusal (g.readCeiling s!"autorisaties.{place}" component) := by
  rw [refusals, read]
  simp only [ofName?_component.2 known]
  cases g.readScopes s!"autorisaties.{place}" with
  | error p => rfl
  | ok scopes =>
      cases g.readType bases s!"autorisaties.{place}" component with
      | error p => rfl
      | ok typeRef =>
          cases g.readCeiling s!"autorisaties.{place}" component with
          | error p => rfl
          | ok ceiling => rfl

/-- Only a grant of a known component is looked at further. -/
theorem Violates.exists_component (h : g.Violates bases path place p) (hplace : 1 ≤ place) :
    ∃ component : Component, component.name = g.component := by
  have hlt := h.place_lt
  obtain rfl | rfl | rfl : place = 1 ∨ place = 2 ∨ place = 3 := by omega
  · exact h.1
  · obtain ⟨component, known, -⟩ := h
    exact ⟨component, known⟩
  · obtain ⟨component, known, -⟩ := h
    exact ⟨component, known⟩

theorem listsBetween_refusals_of_unknown
    (hunknown : ∀ component : Component, component.name ≠ g.component) :
    ListsBetween (g.Violates bases s!"autorisaties.{place}") 0 4 (g.refusals bases place) := by
  have hname : (Named.ofName? g.component : Option Component) = none :=
    Option.eq_none_iff_forall_ne_some.2 fun component h =>
      hunknown component (ofName?_component.1 h)
  have hlist : g.refusals bases place = [⟨s!"autorisaties.{place}" ++ ".component",
      "invalid_choice", Component.unknownMessage g.component⟩] ++ [] := by
    rw [refusals, read, hname]
    rfl
  rw [hlist]
  refine ListsBetween.append (listsBetween_one 0 (Nat.le_refl 1) fun p => ?_)
    (listsBetween_nil fun place' p hfirst _ hfound => ?_) (Nat.zero_le 1) (by omega)
  · rw [List.mem_singleton, Violates, and_iff_right hunknown]
  · obtain ⟨component, known⟩ := hfound.exists_component hfirst
    exact hunknown component known

theorem listsBetween_refusals_of_known (known : component.name = g.component) :
    ListsBetween (g.Violates bases s!"autorisaties.{place}") 0 4 (g.refusals bases place) := by
  have hcomponent : ListsBetween (g.Violates bases s!"autorisaties.{place}") 0 1 [] :=
    listsBetween_nil fun place' p _ hlast hfound => by
      obtain rfl : place' = 0 := by omega
      exact hfound.1 component known
  have hscopes : ListsBetween (g.Violates bases s!"autorisaties.{place}") 1 2
      (refusal (g.readScopes s!"autorisaties.{place}")) :=
    listsBetween_refusal 1 fun _ => readScopes_eq_error known
  have htype : ListsBetween (g.Violates bases s!"autorisaties.{place}") 2 3
      (refusal (g.readType bases s!"autorisaties.{place}" component)) :=
    listsBetween_refusal 2 fun _ => readType_eq_error known
  have hceiling : ListsBetween (g.Violates bases s!"autorisaties.{place}") 3 4
      (refusal (g.readCeiling s!"autorisaties.{place}" component)) :=
    listsBetween_refusal 3 fun _ => readCeiling_eq_error known
  have hparts := (hscopes.append htype (by omega) (by omega)).append hceiling (by omega) (by omega)
  rw [refusals_of_known known]
  exact hcomponent.append hparts (by omega) (by omega)

/-- A grant is refused for its component alone, or else for its scopes, its type and its
ceiling, in that order. -/
theorem listsBetween_refusals (bases : LocalBases) (place : Nat) (g : GrantBody) :
    ListsBetween (g.Violates bases s!"autorisaties.{place}") 0 4 (g.refusals bases place) := by
  by_cases h : ∃ component : Component, component.name = g.component
  · obtain ⟨component, known⟩ := h
    exact listsBetween_refusals_of_known known
  · exact listsBetween_refusals_of_unknown fun component known => h ⟨component, known⟩

end GrantBody

/-! ## Payloads -/

section Payloads

variable {bases : LocalBases} {body : ApplicationBody} {place : Nat} {p : InvalidParam}

theorem grantRefusals_cons (bases : LocalBases) (start : Nat) (g : GrantBody)
    (rest : List GrantBody) :
    grantRefusals (((g :: rest).zipIdx start).map fun (body, place) => body.read bases place) =
      g.refusals bases start ++
        grantRefusals ((rest.zipIdx (start + 1)).map fun (body, place) => body.read bases place) :=
  rfl

/-- The four places of a grant. -/
theorem ApplicationBody.violates_grant {n part : Nat} (hpart : part < 4) :
    body.Violates bases (4 * n + 4 + part) p ↔
      ∃ g, body.grants[n]? = some g ∧ g.Violates bases s!"autorisaties.{n}" part p := by
  have hplace : 4 * n + 4 + part = 4 * n + part + 4 := by omega
  have hgrant : (4 * n + part) / 4 = n := by omega
  have hrest : (4 * n + part) % 4 = part := by omega
  rw [hplace, Violates, hgrant, hrest]

/-- The grants from one on are refused one after the other, each at its four places. -/
theorem listsBetween_grants (bases : LocalBases) (body : ApplicationBody) {grants : List GrantBody}
    {start : Nat} (h : ∀ n, body.grants[start + n]? = grants[n]?) :
    ListsBetween (body.Violates bases) (4 * start + 4) (4 * (start + grants.length) + 4)
      (grantRefusals ((grants.zipIdx start).map fun (g, place) => g.read bases place)) := by
  -- on the grants that are left, which `h` finds in the payload from `start` on
  induction grants generalizing start with
  | nil =>
      refine listsBetween_nil fun place p hfirst hlast _ => ?_
      rw [List.length_nil] at hlast
      omega
  | cons g rest ih =>
      have hfirst : ListsBetween (body.Violates bases) (4 * start + 4) (4 * start + 4 + 4)
          (g.refusals bases start) := by
        refine (g.listsBetween_refusals bases start).shift fun offset p hoffset => ?_
        have hg : body.grants[start]? = some g := h 0
        rw [ApplicationBody.violates_grant hoffset, hg]
        simp
      have hrest := @ih (start + 1) fun n => by
        have hn := h (n + 1)
        rwa [List.getElem?_cons_succ, ← Nat.add_assoc, Nat.add_right_comm] at hn
      have hlast : 4 * (start + 1 + rest.length) + 4 = 4 * (start + (g :: rest).length) + 4 := by
        rw [List.length_cons]
        omega
      rw [hlast] at hrest
      rw [grantRefusals_cons]
      refine hfirst.append hrest (by omega) ?_
      rw [List.length_cons]
      omega

/-- What is wrong with a payload, as its reading collects it. -/
def ApplicationBody.refusals (bases : LocalBases) (body : ApplicationBody) : List InvalidParam :=
  clientIdRefusals body.clientIds ++ labelRefusals body.label
    ++ exclusivityRefusals body.hasAllPermissions (!body.grants.isEmpty)
    ++ grantRefusals (readGrants bases body.grants)

theorem ApplicationBody.listsBetween_exclusivity (bases : LocalBases) (body : ApplicationBody) :
    ListsBetween (body.Violates bases) 3 4
      (exclusivityRefusals body.hasAllPermissions (!body.grants.isEmpty)) := by
  refine listsBetween_one 3 ?_ fun p => ?_
  · cases body.hasAllPermissions <;> cases body.grants <;> simp [exclusivityRefusals]
  · rw [Violates]
    cases body.hasAllPermissions <;> cases body.grants <;> simp [exclusivityRefusals]

theorem ApplicationBody.violates_lt {place : Nat} (h : body.Violates bases place p) :
    place < 4 * body.grants.length + 4 := by
  match place, h with
  | 0, _ | 1, _ | 2, _ | 3, _ => omega
  | place + 4, ⟨g, hg, _⟩ =>
      obtain ⟨hlt, -⟩ := List.getElem?_eq_some_iff.1 hg
      omega

/-- Everything that is wrong with a payload is listed, in its order and once. -/
theorem ApplicationBody.listsAll_refusals (bases : LocalBases) (body : ApplicationBody) :
    ListsAll (body.Violates bases) (body.refusals bases) := by
  have hidentified : ListsBetween (body.Violates bases) 0 1
      (if body.clientIds = [] then
        [⟨"clientIds", "required", "at least one client id is required"⟩] else []) :=
    listsBetween_if 0 fun _ => Iff.rfl
  have hidentifiers : ListsBetween (body.Violates bases) 1 2
      (if body.clientIds.any (trimmed · = "") then
        [⟨"clientIds", "blank", "client ids cannot be blank"⟩] else []) := by
    refine listsBetween_if 1 fun p => ?_
    rw [Violates, List.any_eq_true]
    simp only [decide_eq_true_eq]
  have hlabel : ListsBetween (body.Violates bases) 2 3 (labelRefusals body.label) :=
    listsBetween_if 2 fun _ => Iff.rfl
  have hexclusive := body.listsBetween_exclusivity bases
  have hgrants := listsBetween_grants bases body fun n => by rw [Nat.zero_add]
  have hfields := ((hidentified.append hidentifiers (by omega) (by omega)).append hlabel
    (by omega) (by omega)).append hexclusive (by omega) (by omega)
  refine (hfields.append hgrants (by omega) (by omega)).listsAll fun place p h => ?_
  have hlt := violates_lt h
  omega

theorem GrantBody.ValidFor.not_violates {g : GrantBody} {component : Component} {path : String}
    (h : g.ValidFor bases component) : ¬ g.Violates bases path place p := by
  intro hv
  match place, hv with
  | 0, hv => exact hv.1 component h.named
  | 1, hv => exact h.scopes hv.2.1
  | 2, hv =>
      rw [GrantBody.Violates, GrantBody.exists_component_iff h.named] at hv
      obtain ⟨field, hfield, hmissing⟩ := hv
      obtain ⟨text, r, htext, hread⟩ := h.typed field hfield
      rcases hmissing with ⟨hnone, -⟩ | ⟨text', cause, htext', herror, -⟩
      · rw [htext] at hnone
        cases hnone
      · rw [htext] at htext'
        cases htext'
        rw [hread] at herror
        cases herror
  | 3, hv =>
      rw [GrantBody.Violates, GrantBody.exists_component_iff h.named] at hv
      rcases hv with ⟨hnone, hlevelled, -⟩ | ⟨text, htext, hunknown, -⟩
      · exact h.levelled hlevelled hnone
      · obtain ⟨level, hlevel⟩ := h.ceiling text htext
        exact hunknown level hlevel

theorem GrantBody.exists_validFor {g : GrantBody} (path : String)
    (h : ∀ place p, ¬ g.Violates bases path place p) : ∃ component, g.ValidFor bases component := by
  obtain ⟨component, known⟩ : ∃ component : Component, component.name = g.component := by
    by_contra hnone
    push Not at hnone
    exact h 0 _ ⟨hnone, rfl⟩
  refine ⟨component, known, fun hnone => h 1 _ ⟨⟨component, known⟩, hnone, rfl⟩,
    fun field hfield => ?_, fun text htext => ?_,
    fun hlevelled hnone => h 3 _ ⟨component, known, .inl ⟨hnone, hlevelled, rfl⟩⟩⟩
  · cases htext : g.typeText? field with
    | none => exact absurd ⟨component, known, field, hfield, .inl ⟨htext, rfl⟩⟩ (h 2 _)
    | some text =>
        cases hread : bases.read text with
        | ok r => exact ⟨text, r, rfl, hread⟩
        | error cause =>
            exact absurd ⟨component, known, field, hfield, .inr ⟨text, cause, htext, hread, rfl⟩⟩
              (h 2 _)
  · by_contra hunknown
    push Not at hunknown
    exact h 3 _ ⟨component, known, .inr ⟨text, htext, hunknown, rfl⟩⟩

/-- A payload is valid if nothing is wrong with it. -/
theorem ApplicationBody.valid_iff :
    body.Valid bases ↔ ∀ place p, ¬ body.Violates bases place p := by
  constructor
  · intro h place p hv
    match place, hv with
    | 0, hv => exact h.identified hv.1
    | 1, ⟨⟨id, hid, hblank⟩, _⟩ => exact h.identifiers id hid hblank
    | 2, hv => exact h.label hv.1
    | 3, .inl ⟨hflag, hgrants, _⟩ => exact hgrants (h.exclusive.1 hflag)
    | 3, .inr ⟨hflag, hgrants, _⟩ =>
        rw [h.exclusive.2 hgrants] at hflag
        cases hflag
    | place + 4, ⟨g, hg, hv⟩ =>
        obtain ⟨component, hvalid⟩ := h.grants g (List.mem_of_getElem? hg)
        exact hvalid.not_violates hv
  · intro h
    refine ⟨fun hnone => h 0 _ ⟨hnone, rfl⟩, fun id hid hblank => h 1 _ ⟨⟨id, hid, hblank⟩, rfl⟩,
      fun hblank => h 2 _ ⟨hblank, rfl⟩, ⟨fun hflag => ?_, fun hgrants => ?_⟩, fun g hg => ?_⟩
    · by_contra hgrants
      exact h 3 _ (.inl ⟨hflag, hgrants, rfl⟩)
    · by_contra hflag
      exact h 3 _ (.inr ⟨Bool.eq_false_iff.2 hflag, hgrants, rfl⟩)
    · obtain ⟨n, hn⟩ := List.getElem?_of_mem hg
      refine GrantBody.exists_validFor s!"autorisaties.{n}" fun part p hv => ?_
      exact h _ p ((violates_grant hv.place_lt).2 ⟨g, hn, hv⟩)

theorem ApplicationBody.valid_iff_refusals : body.Valid bases ↔ body.refusals bases = [] :=
  valid_iff.trans (body.listsAll_refusals bases).eq_nil_iff.symm

/-- A payload is read if it is valid, and otherwise everything that is wrong is reported. -/
theorem ApplicationBody.read_of_valid (h : body.Valid bases) :
    body.read bases = .ok ⟨readClientIds body.clientIds, body.label, body.hasAllPermissions,
      some (acceptedGrants (readGrants bases body.grants))⟩ := by
  have hnone := valid_iff_refusals.1 h
  show (ApiError.ofParams (body.refusals bases) >>= _) = _
  rw [hnone]
  rfl

theorem ApplicationBody.read_of_not_valid (h : ¬ body.Valid bases) :
    body.read bases = .error (.invalid (body.refusals bases)) := by
  rw [valid_iff_refusals] at h
  show (ApiError.ofParams (body.refusals bases) >>= _) = _
  rw [ApiError.ofParams, if_neg h]
  rfl

end Payloads

/-! ## Creating an application -/

section Creating

variable {uuid : String} {c : Context} {i j : Installation} {body : ApplicationBody}

/-- None of the client identifiers, as they are read, belongs to an application. -/
def ApplicationBody.IsFree (s : Store) (body : ApplicationBody) : Prop :=
  ∀ id ∈ body.clientIds, ∀ owner a, s.application? owner = some a → trimmed id ∉ a.clientIds

theorem ownerRefusals_eq_nil_iff {s : Store} (hs : s.Consistent)
    (hnew : s.application? uuid = none) :
    ownerRefusals s uuid (readClientIds body.clientIds) = [] ↔ body.IsFree s := by
  have howner : ∀ clientId, (∀ owner, s.clientOwner? clientId = some owner → owner = uuid) ↔
      ∀ owner a, s.application? owner = some a → clientId ∉ a.clientIds := by
    intro clientId
    constructor
    · intro h owner a ha hmem
      have howns := h owner (hs.clientOwner?_eq_some_iff.2 ⟨a, ha, hmem⟩)
      rw [howns, hnew] at ha
      cases ha
    · intro h owner howns
      obtain ⟨a, ha, hmem⟩ := hs.clientOwner?_eq_some_iff.1 howns
      exact absurd hmem (h owner a ha)
  have hids : ∀ clientId, clientId ∈ (readClientIds body.clientIds).toList ↔
      ∃ id ∈ body.clientIds, trimmed id = clientId := by
    intro clientId
    rw [SortedSet.mem_toList, readClientIds, SortedSet.mem_ofList, List.mem_map]
  rw [ownerRefusals, List.filterMap_eq_nil_iff, ApplicationBody.IsFree]
  constructor
  · intro h id hid
    refine (howner _).1 fun owner howns => ?_
    have hpasses := h _ ((hids _).2 ⟨id, hid, rfl⟩)
    by_contra hother
    simp only [howns, if_neg hother, reduceCtorEq] at hpasses
  · intro h clientId hmem
    obtain ⟨id, hid, rfl⟩ := (hids clientId).1 hmem
    cases howns : s.clientOwner? (trimmed id) with
    | none => rfl
    | some owner =>
        have hown := (howner _).2 (h id hid) owner howns
        simp only [hown, if_true]

theorem createApplication_of_not_valid (h : ¬ body.Valid c.bases) :
    createApplication uuid body c i = (.error (.invalid (body.refusals c.bases)), i) := by
  rw [createApplication, bind_context, body.read_of_not_valid h]
  rfl

/-- A valid payload creates an application if its client identifiers are free. -/
theorem endsWell_createApplication (hs : i.store.Consistent)
    (hnew : i.store.application? uuid = none) (hvalid : body.Valid c.bases)
    (hfree : body.IsFree i.store) : EndsWell c i (createApplication uuid body) := by
  rw [← ownerRefusals_eq_nil_iff hs hnew] at hfree
  obtain ⟨t, ht⟩ := Store.exists_createApplication hs
    (a := ⟨uuid, body.label, readClientIds body.clientIds, body.hasAllPermissions⟩) hnew hfree
  have hwritten : changingOr (·.createApplication
      ⟨uuid, body.label, readClientIds body.clientIds, body.hasAllPermissions⟩) c i =
        (.ok (), { i with store := t }) := by
    rw [changingOr, ht]
  refine endsWell_after (a := c) rfl ?_
  rw [ApplicationBody.read_of_valid hvalid]
  refine endsWell_after rfl (endsWell_bind (endsWell_transaction ?_) fun view j _ => ⟨_, _, rfl⟩)
  refine endsWell_after (checkClientIds_of_free hfree) (endsWell_after hwritten ?_)
  exact endsWell_after (createGrants_eq _ _ _ _) ⟨_, _, rfl⟩

theorem valid_of_createApplication {view : ApplicationView} (hs : i.store.Consistent)
    (hnew : i.store.application? uuid = none)
    (h : createApplication uuid body c i = (.ok view, j)) :
    body.Valid c.bases ∧ body.IsFree i.store := by
  have hvalid : body.Valid c.bases := by
    by_contra hnot
    rw [createApplication_of_not_valid hnot] at h
    cases h
  obtain ⟨input, t, hread, hfree, -⟩ := createApplication_ok h
  rw [ApplicationBody.read_of_valid hvalid] at hread
  cases hread
  exact ⟨hvalid, (ownerRefusals_eq_nil_iff hs hnew).1 hfree⟩

end Creating

/-- A payload creates an application just if it is valid and none of its client identifiers
belongs to another one. Otherwise, if it is not valid, everything that is wrong with it is
reported, in its order and once. The application that was created is what the payload says,
with its grants one for one. -/
theorem created_just_if_valid {i : Installation} (h : Reachable i) {uuid : String}
    (hnew : i.store.application? uuid = none) (c : Context) (body : ApplicationBody) :
    ((∃ view j, createApplication uuid body c i = (.ok view, j)) ↔
      body.Valid c.bases ∧ body.IsFree i.store) ∧
    (¬ body.Valid c.bases → ∃ e j, createApplication uuid body c i = (.error e, j) ∧
      e.kind = .invalidInput ∧ e.invalidParams ≠ [] ∧
        ListsAll (body.Violates c.bases) e.invalidParams) ∧
    ∀ view j, createApplication uuid body c i = (.ok view, j) →
      j.store.application? uuid = some ⟨uuid, body.label, readClientIds body.clientIds,
        body.hasAllPermissions⟩ ∧
      List.Forall₂ (GrantBody.Describes c.bases) body.grants (j.store.listGrants uuid) ∧
      j.store.listCatalogGrants uuid = [] := by
  have hs := h.consistent
  refine ⟨⟨fun ⟨_, _, hcreated⟩ => valid_of_createApplication hs hnew hcreated,
    fun ⟨hvalid, hfree⟩ => endsWell_createApplication hs hnew hvalid hfree⟩, fun hnot => ?_,
    fun view j hcreated => ?_⟩
  · refine ⟨_, _, createApplication_of_not_valid hnot, rfl, ?_, body.listsAll_refusals c.bases⟩
    exact fun hnil => hnot (ApplicationBody.valid_iff_refusals.2 hnil)
  · obtain ⟨hvalid, -⟩ := valid_of_createApplication hs hnew hcreated
    obtain ⟨input, t, hread, -, hstored, hchanges, -⟩ := createApplication_ok hcreated
    rw [ApplicationBody.read_of_valid hvalid] at hread
    cases hread
    obtain ⟨happlication, hexplicit, honCatalogs⟩ := Store.created_of_createApplication hs hstored
      (acceptedGrants (readGrants c.bases body.grants))
    have hnone := (List.append_eq_nil_iff.1 (ApplicationBody.valid_iff_refusals.1 hvalid)).2
    rw [hchanges.store]
    exact ⟨happlication, describes_of_unnumbered (describes_acceptedGrants hnone) hexplicit,
      honCatalogs⟩

/-- A payload with something wrong at most of its places. -/
def brokenBody : ApplicationBody where
  clientIds := [" "]
  grants := [{ component := "archive" }, { component := "zrc", ceiling := some "secret" }]

/-- The body of the bureau creates an application beside the desk; of the broken one all is
reported that is wrong with it. -/
theorem bureau_created_beside_desk :
    (∃ view j, createApplication "bureau" bureauBody .alone staffedOffice = (.ok view, j) ∧
      List.Forall₂ (GrantBody.Describes Context.alone.bases) bureauBody.grants
        (j.store.listGrants "bureau")) ∧
    ¬ brokenBody.Valid Context.alone.bases ∧
    ∃ e j, createApplication "bureau" brokenBody .alone staffedOffice = (.error e, j) ∧
      ListsAll (brokenBody.Violates Context.alone.bases) e.invalidParams ∧
      e.invalidParams.map (·.name) = ["clientIds", "label", "autorisaties.0.component",
        "autorisaties.1.scopes", "autorisaties.1.zaaktype",
        "autorisaties.1.maxVertrouwelijkheidaanduiding"] := by
  have hnew : staffedOffice.store.application? "bureau" = none := by decide +kernel
  have hok : (createApplication "bureau" bureauBody .alone staffedOffice).1.isOk = true := by
    decide +kernel
  have hbroken : ¬ brokenBody.Valid Context.alone.bases := fun h =>
    h.label (by decide +kernel)
  obtain ⟨-, -, hcreated⟩ :=
    created_just_if_valid reachable_staffedOffice hnew .alone bureauBody
  obtain ⟨-, hrefused, -⟩ :=
    created_just_if_valid reachable_staffedOffice hnew .alone brokenBody
  obtain ⟨e, j, herror, -, -, hlists⟩ := hrefused hbroken
  refine ⟨?_, hbroken, e, j, herror, hlists, ?_⟩
  · rcases hrun : createApplication "bureau" bureauBody .alone staffedOffice with ⟨answer, k⟩
    rw [hrun] at hok
    cases answer with
    | error e => cases hok
    | ok view => exact ⟨view, k, rfl, (hcreated view k hrun).2.1⟩
  · rw [createApplication_of_not_valid hbroken] at herror
    cases herror
    decide +kernel

end CaseAccess
