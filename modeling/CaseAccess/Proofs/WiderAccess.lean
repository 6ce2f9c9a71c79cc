import CaseAccess.Proofs.RemoteCatalog
import CaseAccess.Proofs.Rows
import Mathlib.Logic.Relation

/-!
# Wider access

Whoever is allowed something stays allowed it when another grant is stored, when other
applications join, when less is asked for, or when the level is lowered or dropped. In a
decision itself that is hard to see. One more grant can make a type be resolved that was
left alone before, and a level that is not given passes every grant, where a ceiling that
is not given passes no level.

Seen through what a request is entitled to, nothing of this is left. There is one order of
questions, `Within`, in which grants and applications only come and scopes and levels only
go. Along it whatever is provided stays provided. Each of the changes above is a step
along the order, so any number of them, one after another, is too.
-/

namespace CaseAccess

open Operation

/-- What is decided: a request, the applications that make it, and the store in which
their grants are. -/
structure AccessQuestion where
  request : AccessRequest
  applications : List Application
  store : Store

/-- A question is changed so that more speaks for it, or so that it asks for less. -/
inductive Widens : AccessQuestion → AccessQuestion → Prop where
  | grant {r : AccessRequest} {applications : List Application} {s : Store} (g : Grant) :
      Widens ⟨r, applications, s⟩ ⟨r, applications, (s.createGrant g).2⟩
  | catalogGrant {r : AccessRequest} {applications : List Application} {s t : Store}
      {g g' : CatalogGrant} (stored : s.createCatalogGrant g = .ok (g', t)) :
      Widens ⟨r, applications, s⟩ ⟨r, applications, t⟩
  /-- Applications are added, put in another order or named again. -/
  | applications {r : AccessRequest} {applications applications' : List Application} {s : Store}
      (kept : ∀ a ∈ applications, a ∈ applications') :
      Widens ⟨r, applications, s⟩ ⟨r, applications', s⟩
  | scopes {r : AccessRequest} {applications : List Application} {s : Store} (scopes : ScopeSet)
      (fewer : ∀ scope ∈ scopes, scope ∈ r.scopes) (asked : ∃ scope, scope ∈ scopes) :
      Widens ⟨r, applications, s⟩ ⟨{ r with scopes := scopes }, applications, s⟩
  | level {r : AccessRequest} {applications : List Application} {s : Store}
      {level level' : Confidentiality} (given : r.confidentiality = some level)
      (lower : level'.rank ≤ level.rank) :
      Widens ⟨r, applications, s⟩ ⟨{ r with confidentiality := some level' }, applications, s⟩
  | noLevel {r : AccessRequest} {applications : List Application} {s : Store} :
      Widens ⟨r, applications, s⟩ ⟨{ r with confidentiality := none }, applications, s⟩

/-- The second question has all that speaks for the first, and asks for no more. -/
structure AccessQuestion.Within (q q' : AccessQuestion) : Prop where
  component : q'.request.component = q.request.component
  typeRef : q'.request.typeRef = q.request.typeRef
  scopes : ∀ scope ∈ q'.request.scopes, scope ∈ q.request.scopes
  asked : (∃ scope, scope ∈ q.request.scopes) → ∃ scope, scope ∈ q'.request.scopes
  level : Admits q.request.confidentiality q'.request.confidentiality
  applications : ∀ a ∈ q.applications, a ∈ q'.applications
  types : q'.store.types = q.store.types
  grants : ∀ g ∈ q.store.grants.rows, g ∈ q'.store.grants.rows
  catalogGrants : ∀ g ∈ q.store.catalogGrants.rows, g ∈ q'.store.catalogGrants.rows

/-! ## The order of questions -/

theorem Admits.self (level : Option Confidentiality) : Admits level level :=
  fun l hl => ⟨l, hl, Nat.le_refl _⟩

theorem Admits.trans {a b c : Option Confidentiality} (hab : Admits a b) (hbc : Admits b c) :
    Admits a c := by
  intro l hl
  obtain ⟨m, hm, hlm⟩ := hbc l hl
  obtain ⟨n, hn, hmn⟩ := hab m hm
  exact ⟨n, hn, Nat.le_trans hlm hmn⟩

namespace AccessQuestion

theorem within_self (q : AccessQuestion) : q.Within q :=
  ⟨rfl, rfl, fun _ => id, id, .self _, fun _ => id, rfl, fun _ => id, fun _ => id⟩

theorem Within.trans {q₁ q₂ q₃ : AccessQuestion} (h₁ : q₁.Within q₂) (h₂ : q₂.Within q₃) :
    q₁.Within q₃ where
  component := h₂.component.trans h₁.component
  typeRef := h₂.typeRef.trans h₁.typeRef
  scopes scope hscope := h₁.scopes scope (h₂.scopes scope hscope)
  asked hsome := h₂.asked (h₁.asked hsome)
  level := h₁.level.trans h₂.level
  applications a ha := h₂.applications a (h₁.applications a ha)
  types := h₂.types.trans h₁.types
  grants g hg := h₂.grants g (h₁.grants g hg)
  catalogGrants g hg := h₂.catalogGrants g (h₁.catalogGrants g hg)

end AccessQuestion

theorem Widens.within {q q' : AccessQuestion} (h : Widens q q') : q.Within q' := by
  cases h with
  | grant g =>
      exact { AccessQuestion.within_self _ with grants := fun _ => List.mem_append_left _ }
  | catalogGrant stored =>
      obtain ⟨-, rfl⟩ := Store.createCatalogGrant_ok stored
      exact { AccessQuestion.within_self _ with catalogGrants := fun _ => List.mem_append_left _ }
  | applications kept => exact { AccessQuestion.within_self _ with applications := kept }
  | scopes _ fewer asked =>
      exact { AccessQuestion.within_self _ with scopes := fewer, asked := fun _ => asked }
  | level given lower =>
      refine { AccessQuestion.within_self _ with level := ?_ }
      rintro _ ⟨⟩
      exact ⟨_, given, lower⟩
  | noLevel =>
      refine { AccessQuestion.within_self _ with level := ?_ }
      rintro _ ⟨⟩

/-- However often a question is widened, nothing that speaks for it is lost. -/
theorem within_of_widens {q q' : AccessQuestion} (h : Relation.ReflTransGen Widens q q') :
    q.Within q' := by
  induction h with
  | refl => exact q.within_self
  | tail _ hstep ih => exact ih.trans hstep.within

/-! ## What is provided along the order -/

section Within

variable {r r' : AccessRequest} {applications applications' : List Application}
  {c c' : Context} {i i' : Installation}
  (hwithin : AccessQuestion.Within ⟨r, applications, i.store⟩ ⟨r', applications', i'.store⟩)

include hwithin

theorem HeldBy.of_within {uuid : String} (h : HeldBy applications uuid) :
    HeldBy applications' uuid := by
  obtain ⟨a, ha, huuid⟩ := h
  exact ⟨a, hwithin.applications a ha, huuid⟩

variable (hresolve : ∀ typeRef component, r.typeRef = some typeRef →
  r.component = some component →
    (resolveType typeRef component c' i').1 = (resolveType typeRef component c i).1)

include hresolve

theorem counts_of_within {component : Component} {catalog : TypeRef}
    (hcomponent : r.component = some component) (h : r.Counts c i component catalog) :
    r'.Counts c' i' component catalog := by
  have htype : r'.typeRef = r.typeRef := hwithin.typeRef
  have htypes : i'.store.types = i.store.types := hwithin.types
  rw [AccessRequest.Counts] at h ⊢
  rw [htype]
  cases hr : r.typeRef with
  | some typeRef =>
      simp only [hr] at h ⊢
      rw [hresolve typeRef component hr hcomponent]
      exact h
  | none =>
      simp only [hr] at h ⊢
      rw [htypes]
      exact h

theorem provided_of_within {component : Component} {scope : String}
    (hcomponent : r.component = some component)
    (h : r.Provided applications c i component scope) :
    r'.Provided applications' c' i' component scope := by
  have htype : r'.typeRef = r.typeRef := hwithin.typeRef
  cases h with
  | explicit g stored held onComponent admits onType gives =>
      refine .explicit g (hwithin.grants g stored) (held.of_within hwithin) onComponent
        (admits.trans hwithin.level) ?_ gives
      rw [htype]
      exact onType
  | catalog g stored held onComponent admits counts gives =>
      exact .catalog g (hwithin.catalogGrants g stored) (held.of_within hwithin) onComponent
        (admits.trans hwithin.level)
        (counts_of_within hwithin hresolve hcomponent counts) gives

theorem entitled_of_within (h : r.Entitled applications c i) :
    r'.Entitled applications' c' i' := by
  obtain ⟨hne, hcause⟩ := h
  obtain ⟨a, ha⟩ := List.exists_mem_of_ne_nil applications hne
  refine ⟨List.ne_nil_of_mem (hwithin.applications a ha), ?_⟩
  rcases hcause with ⟨b, hb, hsuper⟩ | ⟨hasked, component, hcomponent, hall⟩
  · exact .inl ⟨b, hwithin.applications b hb, hsuper⟩
  · refine .inr ⟨hwithin.asked hasked, component, hwithin.component.trans hcomponent, ?_⟩
    intro scope hscope
    exact provided_of_within hwithin hresolve hcomponent
      (hall scope (hwithin.scopes scope hscope))

end Within

/-- What is allowed stays allowed however the question is widened, in any context in which
the type resolves as it did. A type that is held here always does. -/
theorem allow_of_widens {i i' : Installation} (hi : i.grantCache.Agrees i.store)
    (hi' : i'.grantCache.Agrees i'.store) {r r' : AccessRequest}
    {applications applications' : List Application} {c c' : Context}
    (hwidens : Relation.ReflTransGen Widens ⟨r, applications, i.store⟩
      ⟨r', applications', i'.store⟩)
    (hremote : ∀ typeRef component, r.typeRef = some typeRef → r.component = some component →
      typeRef.isRemote = true →
        (resolveType typeRef component c' i').1 = (resolveType typeRef component c i).1)
    (h : (r.allow applications c i).1 = .ok true) :
    (r'.allow applications' c' i').1 = .ok true := by
  have hwithin := within_of_widens hwidens
  have hresolve : ∀ typeRef component, r.typeRef = some typeRef →
      r.component = some component →
        (resolveType typeRef component c' i').1 = (resolveType typeRef component c i).1 := by
    intro typeRef component htype hcomponent
    cases hfar : typeRef.isRemote with
    | true => exact hremote typeRef component htype hcomponent hfar
    | false =>
        have htypes : i'.store.types = i.store.types := hwithin.types
        rw [resolveType_eq_ok.2 rfl, resolveType_eq_ok.2 rfl, resolution_of_local hfar,
          resolution_of_local hfar, Store.type?, Store.type?, htypes]
  rw [allow_eq_verdict hi, Except.ok.injEq, AccessRequest.isAllowed_verdict] at h
  rw [allow_eq_verdict hi', Except.ok.injEq, AccessRequest.isAllowed_verdict]
  exact entitled_of_within hwithin hresolve h

/-- A request to read a book that is held elsewhere and to change it. -/
def lendFarBook : AccessRequest :=
  { readFarBook with scopes := SortedSet.ofList ["zaken.bijwerken", "zaken.lezen"] }

/-- The shelf, with the grant to change that book. -/
def lendingShelf : Installation where
  store := (shelf.store.createGrant ⟨0, "library", .zrc, ScopeSet.single "zaken.bijwerken",
    some ⟨"http://far.example/zaaktypen/1"⟩, some .intern⟩).2

/-- Another grant on the catalog of the book, below the level that is asked for. -/
def archiveGrant : CatalogGrant :=
  ⟨0, "archive", .zrc, ⟨"shelf"⟩, ScopeSet.single "zaken.lezen", some .openbaar⟩

def widerShelf : Installation where
  store := { lendingShelf.store with
    catalogGrants := lendingShelf.store.catalogGrants.add fun id => { archiveGrant with id } }

theorem lendFarBook_allowed :
    (lendFarBook.allow [reader] Context.withNeighbour lendingShelf).1 = .ok true := by
  rw [allow_eq_verdict .of_empty, Except.ok.injEq, AccessRequest.isAllowed_verdict]
  refine ⟨by decide, .inr ⟨⟨"zaken.lezen", by decide⟩, .zrc, rfl, ?_⟩⟩
  intro scope hscope
  obtain rfl | rfl : scope = "zaken.bijwerken" ∨ scope = "zaken.lezen" := by
    simpa [lendFarBook, SortedSet.mem_ofList] using hscope
  · refine .explicit _ (List.mem_singleton_self _) ⟨reader, by decide, rfl⟩ rfl
      (passes_iff.1 rfl) ?_ (by decide)
    rintro _ ⟨⟩
    rfl
  · refine .catalog shelfGrant (by decide) ⟨reader, by decide, rfl⟩ rfl (passes_iff.1 rfl) ?_
      (by decide)
    exact ⟨_, resolveType_eq_ok.2 resolution_farBook, rfl⟩

/-- Reading alone, without a level, is still allowed where another application joins and
its grant with it. -/
theorem lendFarBook_widened :
    (({ readFarBook with confidentiality := none } : AccessRequest).allow
      [⟨"archive", "Archive", {}, false⟩, reader, reader] Context.withNeighbour
        widerShelf).1 = .ok true := by
  have hwidens : Relation.ReflTransGen Widens ⟨lendFarBook, [reader], lendingShelf.store⟩
      ⟨{ readFarBook with confidentiality := none },
        [⟨"archive", "Archive", {}, false⟩, reader, reader], widerShelf.store⟩ :=
    .tail (.tail (.tail (.tail .refl
      (.catalogGrant (g := archiveGrant) rfl))
      (.applications (by decide)))
      (.scopes (ScopeSet.single "zaken.lezen") (by decide) ⟨"zaken.lezen", by decide⟩))
      .noLevel
  refine allow_of_widens .of_empty .of_empty hwidens ?_ lendFarBook_allowed
  intro typeRef component htype _ hfar
  exact AccessRequest.resolveType_remote hfar rfl

end CaseAccess
