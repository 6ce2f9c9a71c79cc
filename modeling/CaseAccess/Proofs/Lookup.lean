import CaseAccess.Permission.Decision
import CaseAccess.Proofs.Effect

/-!
# Looking up

Reading grants fills the grant cache, and resolving a type asks another catalog and
remembers what it answered. None of this touches the store or announces anything, and
the grant cache never comes to hold what the store does not say. That is the relation
`LooksUp`. What was remembered of a type is what its catalog answers in the same
context, so a type also resolves as before; with that the relation is `Steady`, and
every operation up to a decision goes along it.

A cache agrees with the store when every entry is what the store would have answered.
Under such a cache the snapshot of a decision is the one of the store, and whether an
entry was there or had to be read makes no difference to the answer.
-/

namespace CaseAccess

/-- A cache that holds nothing but what the store says. -/
structure GrantCache.Agrees (g : GrantCache) (s : Store) : Prop where
  clients : ∀ e ∈ g.clients, e.2 = s.clientApplications e.1
  sets : ∀ e ∈ g.sets, e.2 = s.grantSet e.1.1 e.1.2

namespace GrantCache.Agrees

variable {g : GrantCache} {s : Store}

theorem of_empty {enabled : Bool} : Agrees { enabled := enabled } s where
  clients e he := by cases he
  sets e he := by cases he

theorem applications?_eq (h : g.Agrees s) {clientId : String} {applications : List Application}
    (hg : g.applications? clientId = some applications) :
    applications = s.clientApplications clientId := by
  obtain ⟨l₁, l₂, hl, -⟩ := List.lookup_eq_some_iff.1 hg
  refine h.clients (clientId, applications) ?_
  rw [hl]
  simp

theorem grantSet?_eq (h : g.Agrees s) {application : String} {component : Component}
    {set : GrantSet} (hg : g.grantSet? application component = some set) :
    set = s.grantSet application component := by
  simp only [grantSet?, Option.map_eq_some_iff] at hg
  obtain ⟨e, he, rfl⟩ := hg
  have hkey : e.1 = (application, component) := by simpa using List.find?_some he
  have heq := h.sets e (List.mem_of_find?_eq_some he)
  rw [hkey] at heq
  exact heq

theorem saveApplications (h : g.Agrees s) (clientId : String) :
    (g.saveApplications clientId (s.clientApplications clientId)).Agrees s := by
  simp only [GrantCache.saveApplications]
  split
  · refine ⟨fun e he => ?_, h.sets⟩
    rcases List.mem_cons.1 he with rfl | he
    · rfl
    · exact h.clients e he
  · exact h

theorem saveGrantSet (h : g.Agrees s) (application : String) (component : Component) :
    (g.saveGrantSet application component (s.grantSet application component)).Agrees s := by
  simp only [GrantCache.saveGrantSet]
  split
  · refine ⟨h.clients, fun e he => ?_⟩
    rcases List.mem_cons.1 he with rfl | he
    · rfl
    · exact h.sets e he
  · exact h

end GrantCache.Agrees

/-- What may have happened when something was only looked up. -/
structure Installation.LooksUp (i j : Installation) : Prop where
  store : j.store = i.store
  outbox : j.outbox = i.outbox
  agrees : i.grantCache.Agrees i.store → j.grantCache.Agrees j.store

open Installation (LooksUp)

instance : IsPreorder Installation LooksUp where
  refl _ := ⟨rfl, rfl, id⟩
  trans _ _ _ h₁ h₂ :=
    ⟨h₂.store.trans h₁.store, h₂.outbox.trans h₁.outbox, fun h => h₂.agrees (h₁.agrees h)⟩

/-! ## Types of other catalogs -/

/-- The definition that the catalog of a remote reference would give it now. -/
def Context.fetched (c : Context) (reference : TypeRef) (component : Component) : Resolution :=
  match c.services.find? reference.key with
  | none => .error .unknownService
  | some service => (c.answer service reference.key).resolution c.bases reference component

/-- What a remote reference resolves to, given the definitions that are remembered. -/
def Context.remoteResolution (c : Context) (types : TypeCache) (reference : TypeRef)
    (component : Component) : Resolution :=
  match types.get? c.typeTtl c.uptime reference.key component with
  | some d => .ok d
  | none => c.fetched reference component

/-- What may have happened when something was looked up in a context: in it, every
reference also resolves as before. -/
structure Installation.Steady (c : Context) (i j : Installation) : Prop extends
    Installation.LooksUp i j where
  remote : ∀ reference component,
    c.remoteResolution j.typeCache reference component =
      c.remoteResolution i.typeCache reference component

open Installation (Steady)

instance (c : Context) : IsPreorder Installation (Steady c) where
  refl i := ⟨refl_of LooksUp i, fun _ _ => rfl⟩
  trans _ _ _ h₁ h₂ :=
    ⟨trans_of LooksUp h₁.toLooksUp h₂.toLooksUp, fun reference component =>
      (h₂.remote reference component).trans (h₁.remote reference component)⟩

open Operation

theorem Operation.MovesIn.looksUp {α : Type} {m : Operation α} (h : MovesIn Steady m) :
    Moves LooksUp m :=
  fun c i => (h c i).toLooksUp

/-- A context in which no other catalog is known, so only what is held here resolves. -/
def Context.alone : Context where
  settings := ⟨"http://localhost/", {}, {}, {}⟩
  bases := ⟨[]⟩
  services := ⟨[]⟩
  typeTtl := 600
  answer := fun _ _ => .notFound
  now := Instant.epoch

/-! ## Grants through the cache -/

/-- A set of grants read through a cache that agrees is the one of the store. -/
theorem grantSet_eq {c : Context} {i : Installation} (h : i.grantCache.Agrees i.store)
    (application : String) (component : Component) :
    ∃ g : GrantCache, g.Agrees i.store ∧ grantSet application component c i =
      (.ok (i.store.grantSet application component), { i with grantCache := g }) := by
  have hcached : cachedGrants c i = (.ok i.grantCache, i) := rfl
  cases hg : i.grantCache.grantSet? application component with
  | some set =>
      refine ⟨i.grantCache, h, ?_⟩
      rw [← h.grantSet?_eq hg, grantSet, bind_of_ok hcached, hg]
      rfl
  | none =>
      refine ⟨_, h.saveGrantSet application component, ?_⟩
      rw [grantSet, bind_of_ok hcached, hg]
      rfl

/-- The applications of a client read through a cache that agrees are those of the
store. -/
theorem clientApplications_eq {c : Context} {i : Installation}
    (h : i.grantCache.Agrees i.store) (clientId : String) :
    ∃ g : GrantCache, g.Agrees i.store ∧ clientApplications clientId c i =
      (.ok (i.store.clientApplications clientId), { i with grantCache := g }) := by
  have hcached : cachedGrants c i = (.ok i.grantCache, i) := rfl
  cases hg : i.grantCache.applications? clientId with
  | some applications =>
      refine ⟨i.grantCache, h, ?_⟩
      rw [← h.applications?_eq hg, clientApplications, bind_of_ok hcached, hg]
      rfl
  | none =>
      refine ⟨_, h.saveApplications clientId, ?_⟩
      rw [clientApplications, bind_of_ok hcached, hg]
      rfl

/-- The grants of the applications for a component, as the store has them. -/
def Store.grantSets (s : Store) (applications : List Application) (component : Component) :
    List GrantSet :=
  applications.map fun a => s.grantSet a.uuid component

theorem grantSets_eq {c : Context} {i : Installation} (h : i.grantCache.Agrees i.store)
    (applications : List Application) (component : Component) :
    ∃ g : GrantCache, g.Agrees i.store ∧
      (applications.mapM fun a => grantSet a.uuid component) c i =
        (.ok (i.store.grantSets applications component), { i with grantCache := g }) := by
  induction applications generalizing i with
  | nil => exact ⟨i.grantCache, h, rfl⟩
  | cons a rest ih =>
      obtain ⟨g₁, hg₁, h₁⟩ := grantSet_eq (c := c) h a.uuid component
      obtain ⟨g₂, hg₂, h₂⟩ := ih (i := { i with grantCache := g₁ }) hg₁
      refine ⟨g₂, hg₂, ?_⟩
      rw [List.mapM_cons, bind_of_ok h₁, bind_of_ok h₂]
      rfl

/-- The snapshot of a decision, as the store has it. -/
def Store.snapshot (s : Store) (applications : List Application) (component : Component)
    (typeRef : Option TypeRef) : Snapshot :=
  s.snapshotOf (s.grantSets applications component) component typeRef

/-- A snapshot read through a cache that agrees is the one of the store. -/
theorem snapshot_eq {c : Context} {i : Installation} (h : i.grantCache.Agrees i.store)
    (applications : List Application) (component : Component) (typeRef : Option TypeRef) :
    ∃ g : GrantCache, g.Agrees i.store ∧ CaseAccess.snapshot applications component typeRef c i =
      (.ok (i.store.snapshot applications component typeRef), { i with grantCache := g }) := by
  obtain ⟨g, hg, h₁⟩ := grantSets_eq (c := c) h applications component
  refine ⟨g, hg, ?_⟩
  rw [CaseAccess.snapshot, bind_of_ok h₁]
  rfl

/-! ## Everything up to a decision looks up

A cache that does not agree is no concern here: only from one that agrees is there
anything to keep. -/

theorem steady_of_same {α : Type} {m : Operation α} (h : ∀ c i, (m c i).2 = i) :
    MovesIn Steady m :=
  .of_moves fun _ => moves_same h

theorem steady_pure {α : Type} (a : α) : MovesIn Steady (pure a) := movesIn_pure a

theorem steady_fail {α : Type} (e : ApiError) : MovesIn Steady (fail e : Operation α) :=
  steady_of_same fun _ _ => rfl

theorem steady_context : MovesIn Steady context := steady_of_same fun _ _ => rfl

theorem steady_reading {α : Type} (f : Store → α) : MovesIn Steady (reading f) :=
  steady_of_same fun _ _ => rfl

theorem grantSet_steady (application : String) (component : Component) :
    MovesIn Steady (grantSet application component) := by
  refine movesIn_bind (steady_of_same fun _ _ => rfl) fun g => ?_
  split
  · exact steady_pure _
  · intro c i
    exact ⟨⟨rfl, rfl, fun h => h.saveGrantSet application component⟩, fun _ _ => rfl⟩

theorem clientApplications_steady (clientId : String) :
    MovesIn Steady (clientApplications clientId) := by
  refine movesIn_bind (steady_of_same fun _ _ => rfl) fun g => ?_
  split
  · exact steady_pure _
  · intro c i
    exact ⟨⟨rfl, rfl, fun h => h.saveApplications clientId⟩, fun _ _ => rfl⟩

theorem snapshot_steady (applications : List Application) (component : Component)
    (typeRef : Option TypeRef) :
    MovesIn Steady (CaseAccess.snapshot applications component typeRef) :=
  movesIn_bind (movesIn_mapM (fun a => grantSet_steady a.uuid component) applications) fun _ =>
    steady_reading _

/-- A definition that was saved is found while it is remembered, and saving it leaves
every other entry alone. -/
theorem TypeCache.get?_save (types : TypeCache) (ttl uptime : Nat) (url url' : String)
    (component component' : Component) (d : TypeDefinition) :
    (types.save uptime url component d).get? ttl uptime url' component' =
      if (url', component') = (url, component) then (if 0 < ttl then some d else none)
      else types.get? ttl uptime url' component' := by
  rw [TypeCache.save, TypeCache.get?]
  by_cases hkey : (url', component') = (url, component)
  · obtain ⟨rfl, rfl⟩ := Prod.mk.inj hkey
    rw [if_pos rfl, List.find?_cons_of_pos (by simp)]
    show (if uptime - uptime < ttl * 1000000000 then some d else none) = _
    by_cases httl : 0 < ttl
    · rw [if_pos httl, if_pos (by omega)]
    · rw [if_neg httl, if_neg (by omega)]
  · have hrest : (types.entries.filter (·.1 ≠ (url, component))).find?
        (·.1 = (url', component')) = types.entries.find? (·.1 = (url', component')) := by
      rw [List.find?_filter]
      congr 1
      funext e
      by_cases he : e.1 = (url', component')
      · simp only [he, ne_eq, hkey, not_false_eq_true, and_self, decide_true]
      · simp [he]
    have hother : ¬ (url, component) = (url', component') := fun h => hkey h.symm
    rw [if_neg hkey, List.find?_cons_of_neg (by simpa using hother), hrest, TypeCache.get?]

/-- Fetching gives what the catalog answers and leaves its request behind. -/
theorem fetchType_ok (reference : TypeRef) (component : Component) (c : Context)
    (i : Installation) :
    ∃ fetches, fetchType reference component c i =
      (.ok (c.fetched reference component), { i with fetches := fetches }) := by
  have h : context c i = (.ok c, i) := rfl
  rw [fetchType, bind_of_ok h, Context.fetched]
  cases c.services.find? reference.key with
  | none => exact ⟨i.fetches, rfl⟩
  | some service => exact ⟨_, rfl⟩

theorem resolveRemote_ok (reference : TypeRef) (component : Component) (c : Context)
    (i : Installation) :
    ∃ j, Steady c i j ∧ resolveRemote reference component c i =
      (.ok (c.remoteResolution i.typeCache reference component), j) := by
  have h : rememberedType? reference.key component c i =
    (.ok (i.typeCache.get? c.typeTtl c.uptime reference.key component), i) := rfl
  rw [resolveRemote, bind_of_ok h, Context.remoteResolution]
  cases hget : i.typeCache.get? c.typeTtl c.uptime reference.key component with
  | some d => exact ⟨i, refl_of (Steady c) i, rfl⟩
  | none =>
      obtain ⟨fetches, hj⟩ := fetchType_ok reference component c i
      show ∃ j', Steady c i j' ∧ (fetchType reference component >>= _) c i = _
      rw [bind_of_ok hj]
      cases hfetched : c.fetched reference component with
      | error why => exact ⟨{ i with fetches := fetches }, ⟨⟨rfl, rfl, id⟩, fun _ _ => rfl⟩, rfl⟩
      | ok d =>
          refine ⟨{ i with
            fetches := fetches
            typeCache := i.typeCache.save c.uptime reference.key component d },
            ⟨⟨rfl, rfl, id⟩, fun reference' component' => ?_⟩, rfl⟩
          -- Only the entry of this very reference is new, and it is what would be fetched.
          rw [Context.remoteResolution, Context.remoteResolution, TypeCache.get?_save]
          by_cases hkey : (reference'.key, component') = (reference.key, component)
          · obtain ⟨href, rfl⟩ := Prod.mk.inj hkey
            obtain rfl : reference' = reference := congrArg TypeRef.mk href
            rw [if_pos rfl, hget]
            by_cases httl : 0 < c.typeTtl
            · rw [if_pos httl]
              exact hfetched.symm
            · rw [if_neg httl]
          · rw [if_neg hkey]

theorem resolveRemote_steady (reference : TypeRef) (component : Component) :
    MovesIn Steady (resolveRemote reference component) := by
  intro c i
  obtain ⟨j, hsteady, hj⟩ := resolveRemote_ok reference component c i
  rw [hj]
  exact hsteady

theorem resolve_steady (reference : TypeRef) (asked : Option Component) :
    MovesIn Steady (resolve reference asked) := by
  rw [resolve]
  split
  · exact resolveRemote_steady _ _
  · exact steady_reading _

theorem resolveType_steady (reference : TypeRef) (component : Component) :
    MovesIn Steady (resolveType reference component) := by
  refine movesIn_bind (resolve_steady _ _) fun resolution => ?_
  split
  · exact steady_pure _
  · exact steady_pure _

theorem relatedTypes_steady (reference : TypeRef) (relation : Relation) :
    MovesIn Steady (relatedTypes reference relation) := by
  refine movesIn_bind (resolve_steady _ _) fun resolution => ?_
  split
  · exact steady_pure _
  · exact steady_pure _

theorem resolution_steady (s : Snapshot) (typeRef : TypeRef) (component : Component) :
    MovesIn Steady (s.resolution typeRef component) := by
  rw [Snapshot.resolution]
  split
  · exact resolveType_steady _ _
  · exact steady_pure _

theorem decideObject_steady (s : Snapshot) (required : ScopeSet) (typeRef : TypeRef)
    (level : Option Confidentiality) {resolution : Operation Resolution}
    (h : MovesIn Steady resolution) :
    MovesIn Steady (s.decideObject required typeRef level resolution) := by
  rw [Snapshot.decideObject]
  split
  · exact steady_pure _
  · split
    · exact steady_pure _
    · exact movesIn_bind h fun _ => steady_pure _

theorem decide_steady (r : AccessRequest) (applications : List Application) :
    MovesIn Steady (r.decide applications) := by
  rw [AccessRequest.decide]
  split
  · exact steady_pure _
  · split
    · exact steady_pure _
    · split
      · exact steady_pure _
      · split
        · exact steady_pure _
        · next component hcomponent =>
            split
            · exact movesIn_bind (snapshot_steady _ _ _) fun _ => steady_pure _
            · exact movesIn_bind (snapshot_steady _ _ _) fun s =>
                decideObject_steady _ _ _ _ (resolution_steady _ _ _)

theorem allow_steady (r : AccessRequest) (applications : List Application) :
    MovesIn Steady (r.allow applications) :=
  movesIn_bind (decide_steady r applications) fun _ => steady_pure _

theorem check_steady (r : AccessRequest) (applications : List Application) :
    MovesIn Steady (r.check applications) :=
  movesIn_bind (decide_steady r applications) fun _ => .of_moves fun _ => moves_ofExcept _

end CaseAccess
