import CaseAccess.Proofs.Lookup

/-!
# Decisions as functions

A decision is made by an operation, because grants come through a cache and types from
other catalogs. What it decides depends on less: on the store, and on what the type of
the object resolves to. This file writes that function down and shows that the
operation computes it, from any installation whose grant cache agrees with its store.

Resolving has a function of the same kind behind it. It depends on the store for types
that are held here, and for the others on the definitions that are remembered and on
what the other catalog answers.
-/

namespace CaseAccess

open Operation

/-! ## What a type resolves to -/

/-- What a reference resolves to, asked with a component or without. -/
def Context.anyResolution (c : Context) (s : Store) (types : TypeCache) (reference : TypeRef)
    (asked : Option Component) : Resolution :=
  if reference.isRemote then c.remoteResolution types reference (componentOf reference asked)
  else s.resolution reference

/-- What a reference resolves to as a type of a component. -/
def Context.resolution (c : Context) (s : Store) (types : TypeCache) (reference : TypeRef)
    (component : Component) : Resolution :=
  match c.anyResolution s types reference (some component) with
  | .ok d => d.asComponent component
  | .error why => .error why

/-- While things are looked up, every reference resolves as before. -/
theorem Installation.Steady.resolution_eq {c : Context} {i j : Installation} (h : Steady c i j) :
    c.resolution j.store j.typeCache = c.resolution i.store i.typeCache := by
  funext reference component
  rw [Context.resolution, Context.resolution, Context.anyResolution, Context.anyResolution,
    h.remote, h.store]

/-- Resolving ends with a resolution, whatever another catalog answers. -/
theorem resolve_ok (reference : TypeRef) (asked : Option Component) (c : Context)
    (i : Installation) :
    ∃ j, resolve reference asked c i =
      (.ok (c.anyResolution i.store i.typeCache reference asked), j) := by
  rw [resolve, Context.anyResolution]
  split
  · obtain ⟨j, -, hj⟩ := resolveRemote_ok reference (componentOf reference asked) c i
    exact ⟨j, hj⟩
  · exact ⟨i, rfl⟩

theorem resolveType_ok (reference : TypeRef) (component : Component) (c : Context)
    (i : Installation) :
    ∃ j, resolveType reference component c i =
      (.ok (c.resolution i.store i.typeCache reference component), j) := by
  obtain ⟨j, hj⟩ := resolve_ok reference (some component) c i
  rw [resolveType, bind_of_ok hj, Context.resolution]
  cases c.anyResolution i.store i.typeCache reference (some component) with
  | ok d => exact ⟨j, rfl⟩
  | error why => exact ⟨j, rfl⟩

theorem resolveType_eq_ok {reference : TypeRef} {component : Component} {c : Context}
    {i : Installation} {resolution : Resolution} :
    (resolveType reference component c i).1 = .ok resolution ↔
      c.resolution i.store i.typeCache reference component = resolution := by
  obtain ⟨j, hj⟩ := resolveType_ok reference component c i
  rw [hj, Except.ok.injEq]

/-- A type that is held here resolves to what the store has, in every context. -/
theorem resolution_of_local {reference : TypeRef} (h : reference.isRemote = false) (c : Context)
    (s : Store) (types : TypeCache) (component : Component) :
    c.resolution s types reference component =
      match s.type? reference with
      | some d => d.asComponent component
      | none => .error .notFound := by
  rw [Context.resolution, Context.anyResolution, h, if_neg Bool.false_ne_true, Store.resolution]
  cases s.type? reference with
  | some d => rfl
  | none => rfl

/-- A type that is held here resolves as one of a component just if it is held as one. -/
theorem resolution_eq_ok_of_local {reference : TypeRef} (h : reference.isRemote = false)
    {c : Context} {s : Store} {types : TypeCache} {component : Component} {d : TypeDefinition} :
    c.resolution s types reference component = .ok d ↔
      s.type? reference = some d ∧ d.component = component := by
  rw [resolution_of_local h]
  constructor
  · intro hresolved
    split at hresolved
    · next held hheld =>
      rw [TypeDefinition.asComponent] at hresolved
      split at hresolved
      · next hcomponent =>
        cases hresolved
        exact ⟨hheld, hcomponent⟩
      · cases hresolved
    · cases hresolved
  · rintro ⟨hheld, hcomponent⟩
    rw [hheld]
    exact if_pos hcomponent

/-! ## What a request comes to -/

/-- The decision on a request, from the store and from what types resolve to. -/
def AccessRequest.verdict (r : AccessRequest) (applications : List Application) (s : Store)
    (resolution : TypeRef → Component → Resolution) : Decision :=
  if applications = [] then .deny .noApplications
  else if applications.any (·.hasAllPermissions) then .allow
  else if r.scopes.isEmpty then .deny .noScopesRequired
  else
    match r.component with
    | none => .deny .noComponent
    | some component =>
        let snapshot := s.snapshot applications component r.typeRef
        match r.typeRef with
        | none => snapshot.decideComponent r.scopes r.confidentiality
        | some typeRef =>
            snapshot.decideObject (m := Id) r.scopes typeRef r.confidentiality
              (resolution typeRef component)

/-- Deciding on an object asks for the resolution at most once, and then uses it. -/
theorem decideObject_ok (s : Snapshot) (required : ScopeSet) (typeRef : TypeRef)
    (level : Option Confidentiality) {resolution : Operation Resolution} {answer : Resolution}
    {c : Context} {i j : Installation} (h : resolution c i = (.ok answer, j)) :
    (s.decideObject required typeRef level resolution c i).1 =
      .ok (s.decideObject (m := Id) required typeRef level answer) := by
  simp only [Snapshot.decideObject]
  split
  · rfl
  · split
    · rfl
    · rw [bind_of_ok h]
      rfl

/-- The resolution that a decision takes from its snapshot is that of the store. -/
theorem resolution_of_snapshot (applications : List Application) (typeRef : TypeRef)
    (component : Component) (c : Context) (i : Installation) :
    ∃ j, (i.store.snapshot applications component (some typeRef)).resolution typeRef component c i =
      (.ok (c.resolution i.store i.typeCache typeRef component), j) := by
  rw [Snapshot.resolution]
  cases h : typeRef.isRemote with
  | true => exact resolveType_ok typeRef component c i
  | false =>
      have hlocal : (i.store.snapshot applications component (some typeRef)).localType =
          i.store.type? typeRef := by
        simp [Store.snapshot, Store.snapshotOf, Option.filter, h]
      refine ⟨i, ?_⟩
      rw [if_neg Bool.false_ne_true, resolution_of_local h, Snapshot.localResolution, hlocal]
      rfl

/-- From a cache that agrees with the store, a decision is the verdict of the store. -/
theorem decide_eq_verdict {i : Installation} (h : i.grantCache.Agrees i.store)
    (r : AccessRequest) (applications : List Application) (c : Context) :
    (r.decide applications c i).1 =
      .ok (r.verdict applications i.store (c.resolution i.store i.typeCache)) := by
  rw [AccessRequest.decide, AccessRequest.verdict]
  split
  · rfl
  · split
    · rfl
    · split
      · rfl
      · cases r.component with
        | none => rfl
        | some component =>
            obtain ⟨g, -, hg⟩ := snapshot_eq (c := c) h applications component r.typeRef
            show ((CaseAccess.snapshot applications component r.typeRef >>= _) c i).1 = _
            rw [bind_of_ok hg]
            cases r.typeRef with
            | none => rfl
            | some typeRef =>
                obtain ⟨j, hj⟩ := resolution_of_snapshot applications typeRef component c
                  { i with grantCache := g }
                exact decideObject_ok _ _ _ _ hj

theorem allow_eq_verdict {i : Installation} (h : i.grantCache.Agrees i.store)
    (r : AccessRequest) (applications : List Application) (c : Context) :
    (r.allow applications c i).1 =
      .ok (r.verdict applications i.store (c.resolution i.store i.typeCache)).isAllowed := by
  have hverdict := decide_eq_verdict h r applications c
  rcases hd : r.decide applications c i with ⟨_ | d, j⟩
  · rw [hd] at hverdict
    cases hverdict
  · rw [hd, Except.ok.injEq] at hverdict
    rw [AccessRequest.allow, bind_of_ok hd, ← hverdict]
    rfl

end CaseAccess
