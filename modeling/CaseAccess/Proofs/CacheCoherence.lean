import CaseAccess.Proofs.AdministrationFrame
import CaseAccess.Proofs.CaseChange

/-!
# The grant cache never lags behind

A decision is about the store only if the grant cache agrees with it, and it always
does: an installation that begins with a cache that agrees has one after any commands.

An operation on cases, or on types, leaves applications and grants alone, so what is
remembered of them stays true. A change of an application is a transaction, in which
the store is written first and the cache is corrected after. On the way, the grants of
that one application differ and nothing is added to the cache. If the transaction ends
well, whatever is remembered of the application has been dropped; if it does not, the
store is the old one again, and an entry that was dropped does no harm.

That a grant which is revoked by its number belongs to the application whose entries
are dropped needs one thing more, that no two grants have the same number.
-/

namespace CaseAccess

/-- The cache agrees with the store, and the grants in it are told apart by their
numbers. -/
structure Installation.Coherent (i : Installation) : Prop where
  agrees : i.grantCache.Agrees i.store
  grants : i.store.grants.Ascending Grant.id
  catalogGrants : i.store.catalogGrants.Ascending CatalogGrant.id

def Installation.KeepsCoherence (i j : Installation) : Prop := i.Coherent → j.Coherent

open Installation (KeepsCoherence LooksUp Steady)

instance : IsPreorder Installation KeepsCoherence where
  refl _ := id
  trans _ _ _ h₁ h₂ := h₂ ∘ h₁

theorem Installation.LooksUp.keepsCoherence {i j : Installation} (h : LooksUp i j) :
    KeepsCoherence i j := by
  intro hi
  refine ⟨h.agrees hi.agrees, ?_, ?_⟩
  · rw [h.store]
    exact hi.grants
  · rw [h.store]
    exact hi.catalogGrants

/-! ## Smaller caches -/

namespace GrantCache

/-- What one cache remembers, the other does too. -/
structure Within (g h : GrantCache) : Prop where
  clients : ∀ e ∈ g.clients, e ∈ h.clients
  sets : ∀ e ∈ g.sets, e ∈ h.sets

theorem within_self (g : GrantCache) : g.Within g := ⟨fun _ he => he, fun _ he => he⟩

theorem Within.trans {g h k : GrantCache} (h₁ : g.Within h) (h₂ : h.Within k) : g.Within k :=
  ⟨fun e he => h₂.clients e (h₁.clients e he), fun e he => h₂.sets e (h₁.sets e he)⟩

theorem within_invalidate (g : GrantCache) (uuid : String) : (g.invalidate uuid).Within g where
  clients e he := by cases he
  sets e he := (List.mem_filter.1 he).1

theorem Agrees.of_within {g h : GrantCache} {s : Store} (hh : h.Agrees s) (hg : g.Within h) :
    g.Agrees s :=
  ⟨fun e he => hh.clients e (hg.clients e he), fun e he => hh.sets e (hg.sets e he)⟩

end GrantCache

/-! ## Changes beside the grants -/

/-- Applications and grants are the same in both stores. -/
structure Store.SameGrants (s t : Store) : Prop where
  applications : t.applications = s.applications
  clients : t.clients = s.clients
  grants : t.grants = s.grants
  catalogGrants : t.catalogGrants = s.catalogGrants

namespace Store

variable {s t u : Store}

theorem sameGrants_self (s : Store) : s.SameGrants s := ⟨rfl, rfl, rfl, rfl⟩

theorem SameGrants.trans (h₁ : s.SameGrants t) (h₂ : t.SameGrants u) : s.SameGrants u :=
  ⟨h₂.applications.trans h₁.applications, h₂.clients.trans h₁.clients,
    h₂.grants.trans h₁.grants, h₂.catalogGrants.trans h₁.catalogGrants⟩

theorem SameGrants.agrees (h : s.SameGrants t) {g : GrantCache} (hg : g.Agrees s) :
    g.Agrees t := by
  have hrow : t.ofRow = s.ofRow := by
    funext row
    rw [ofRow, ofRow, Store.clientIds, Store.clientIds, h.clients]
  have happlication : t.application? = s.application? := by
    funext uuid
    rw [application?, application?, h.applications, hrow]
  refine ⟨fun e he => ?_, fun e he => ?_⟩
  · rw [hg.clients e he, Store.clientApplications, Store.clientApplications, clientOwner?,
      clientOwner?, h.clients, happlication]
  · rw [hg.sets e he, Store.grantSet, Store.grantSet, listGrants, listGrants, listCatalogGrants,
      listCatalogGrants, h.grants, h.catalogGrants]

end Store

/-- Applications and grants are left alone, and nothing about them is newly remembered. -/
structure Installation.KeepsGrants (i j : Installation) : Prop where
  store : i.store.SameGrants j.store
  cache : j.grantCache.Within i.grantCache

open Installation (KeepsGrants)

instance : IsPreorder Installation KeepsGrants where
  refl i := ⟨i.store.sameGrants_self, i.grantCache.within_self⟩
  trans _ _ _ h₁ h₂ := ⟨h₁.store.trans h₂.store, h₂.cache.trans h₁.cache⟩

theorem Installation.KeepsGrants.keepsCoherence {i j : Installation} (h : KeepsGrants i j) :
    KeepsCoherence i j := by
  intro hi
  refine ⟨h.store.agrees (hi.agrees.of_within h.cache), ?_, ?_⟩
  · rw [h.store.grants]
    exact hi.grants
  · rw [h.store.catalogGrants]
    exact hi.catalogGrants

section Steps

open Operation

variable {α : Type} {m : Operation α}

theorem coherent_of_steady (h : MovesIn Steady m) : Moves KeepsCoherence m :=
  h.looksUp.mono fun _ _ => Installation.LooksUp.keepsCoherence

theorem coherent_of_keepsGrants (h : Moves KeepsGrants m) : Moves KeepsCoherence m :=
  h.mono fun _ _ => Installation.KeepsGrants.keepsCoherence

theorem keepsGrants_changing {f : Store → Store} (h : ∀ s, Store.SameGrants s (f s)) :
    Moves KeepsGrants (changing f) :=
  moves_changing fun i => ⟨h i.store, i.grantCache.within_self⟩

theorem keepsGrants_transaction (h : Moves KeepsGrants m) : Moves KeepsGrants (transaction m) :=
  moves_transaction h fun i _ hij => ⟨i.store.sameGrants_self, hij.cache⟩

end Steps

/-! ## Changes of one application -/

/-- Only the application with that uuid has other grants, and grants are still numbered
upwards. -/
structure Store.SparesGrants (uuid : String) (s t : Store) : Prop where
  explicit : ∀ a ≠ uuid, t.listGrants a = s.listGrants a
  onCatalogs : ∀ a ≠ uuid, t.listCatalogGrants a = s.listCatalogGrants a
  grants : s.grants.Ascending Grant.id → t.grants.Ascending Grant.id
  catalogGrants :
    s.catalogGrants.Ascending CatalogGrant.id → t.catalogGrants.Ascending CatalogGrant.id

namespace Store

variable {s t u : Store} {uuid : String}

theorem SparesGrants.of_eq (hgrants : t.grants = s.grants)
    (hcatalogGrants : t.catalogGrants = s.catalogGrants) : SparesGrants uuid s t where
  explicit a _ := by rw [listGrants, listGrants, hgrants]
  onCatalogs a _ := by rw [listCatalogGrants, listCatalogGrants, hcatalogGrants]
  grants h := by
    rw [hgrants]
    exact h
  catalogGrants h := by
    rw [hcatalogGrants]
    exact h

theorem SparesGrants.trans (h₁ : SparesGrants uuid s t) (h₂ : SparesGrants uuid t u) :
    SparesGrants uuid s u where
  explicit a ha := (h₂.explicit a ha).trans (h₁.explicit a ha)
  onCatalogs a ha := (h₂.onCatalogs a ha).trans (h₁.onCatalogs a ha)
  grants := h₂.grants ∘ h₁.grants
  catalogGrants := h₂.catalogGrants ∘ h₁.catalogGrants

theorem SparesGrants.grantSet (h : SparesGrants uuid s t) {a : String} (ha : a ≠ uuid)
    (component : Component) : t.grantSet a component = s.grantSet a component := by
  rw [Store.grantSet, Store.grantSet, h.explicit a ha, h.onCatalogs a ha]

/-- Rows are taken away that all belong to the application. -/
theorem filter_filter_of_ne {α : Type} {application : α → String} {p : α → Bool} {l : List α}
    {a : String} (h : ∀ g ∈ l, application g = a → p g = true) :
    (l.filter p).filter (application · = a) = l.filter (application · = a) := by
  rw [List.filter_filter]
  refine List.filter_congr fun g hg => ?_
  by_cases ha : application g = a
  · simp [ha, h g hg ha]
  · simp [ha]

theorem spares_filterGrants {p : Grant → Bool}
    (h : ∀ g ∈ s.grants.rows, g.application ≠ uuid → p g = true) :
    SparesGrants uuid s { s with grants := s.grants.filter p } where
  explicit _ ha := filter_filter_of_ne fun g hg hga => h g hg (hga ▸ ha)
  onCatalogs _ _ := rfl
  grants h := h.filter p
  catalogGrants := id

theorem spares_filterCatalogGrants {p : CatalogGrant → Bool}
    (h : ∀ g ∈ s.catalogGrants.rows, g.application ≠ uuid → p g = true) :
    SparesGrants uuid s { s with catalogGrants := s.catalogGrants.filter p } where
  explicit _ _ := rfl
  onCatalogs _ ha := filter_filter_of_ne fun g hg hga => h g hg (hga ▸ ha)
  grants := id
  catalogGrants h := h.filter p

theorem spares_createGrant {g : Grant} (hg : g.application = uuid) :
    SparesGrants uuid s (s.createGrant g).2 where
  explicit a ha := by
    have hne : ¬ g.application = a := fun h => ha (h ▸ hg)
    simp [createGrant, listGrants, Numbered.add, hne]
  onCatalogs _ _ := rfl
  grants h := by
    have hadd : (s.grants.add fun n => { g with id := n }).Ascending Grant.id := h.add rfl
    exact hadd
  catalogGrants := id

theorem spares_createCatalogGrant {g g' : CatalogGrant} (hg : g.application = uuid)
    (h : s.createCatalogGrant g = .ok (g', t)) : SparesGrants uuid s t := by
  obtain ⟨rfl, rfl⟩ := createCatalogGrant_ok h
  refine ⟨fun _ _ => rfl, fun a ha => ?_, id, fun h => ?_⟩
  · have hne : ¬ g.application = a := fun h => ha (h ▸ hg)
    simp [listCatalogGrants, Numbered.add, hne]
  · have hadd : (s.catalogGrants.add fun n => { g with id := n }).Ascending CatalogGrant.id :=
      h.add rfl
    exact hadd

theorem spares_deleteGrants (s : Store) (uuid : String) :
    SparesGrants uuid s (s.deleteApplicationGrants uuid) :=
  spares_filterGrants fun _ _ h => decide_eq_true h

theorem spares_deleteCatalogGrants (s : Store) (uuid : String) :
    SparesGrants uuid s (s.deleteApplicationCatalogGrants uuid) :=
  spares_filterCatalogGrants fun _ _ h => decide_eq_true h

theorem spares_createApplication {a : Application} (h : s.createApplication a = .ok t) :
    SparesGrants uuid s t := by
  obtain ⟨applications, clients, -, -, rfl⟩ := createApplication_ok h
  exact .of_eq rfl rfl

theorem spares_updateApplication {a : Application} (h : s.updateApplication a = .ok t) :
    SparesGrants uuid s t := by
  obtain ⟨clients, -, rfl⟩ := updateApplication_ok h
  exact .of_eq rfl rfl

theorem spares_deleteApplication (s : Store) (uuid : String) :
    SparesGrants uuid s (s.deleteApplication uuid) := by
  have hrest : SparesGrants uuid
      ((s.deleteApplicationGrants uuid).deleteApplicationCatalogGrants uuid)
      (s.deleteApplication uuid) := .of_eq rfl rfl
  exact ((spares_deleteGrants s uuid).trans (spares_deleteCatalogGrants _ uuid)).trans hrest

/-- The grant of a number is the only one that is deleted by it. -/
theorem spares_deleteGrant {g : Grant} {id : Nat} (hs : s.grants.Ascending Grant.id)
    (hg : s.grant? id = some g) : SparesGrants g.application s (s.deleteGrant id) := by
  have hid : g.id = id := by simpa using List.find?_some hg
  refine spares_filterGrants fun g' hg' hne => decide_eq_true fun hid' => hne ?_
  rw [hs.eq_of_id hg' (List.mem_of_find?_eq_some hg) (hid'.trans hid.symm)]

theorem spares_deleteCatalogGrant {g : CatalogGrant} {id : Nat}
    (hs : s.catalogGrants.Ascending CatalogGrant.id) (hg : s.catalogGrant? id = some g) :
    SparesGrants g.application s (s.deleteCatalogGrant id) := by
  have hid : g.id = id := by simpa using List.find?_some hg
  refine spares_filterCatalogGrants fun g' hg' hne => decide_eq_true fun hid' => hne ?_
  rw [hs.eq_of_id hg' (List.mem_of_find?_eq_some hg) (hid'.trans hid.symm)]

end Store

open Operation

namespace Administration

variable {α β : Type} {uuid : String}

/-- Only one application has other grants, and nothing is newly remembered of any. -/
structure Narrows (uuid : String) (i j : Installation) : Prop where
  store : i.store.SparesGrants uuid j.store
  cache : j.grantCache.Within i.grantCache

instance : IsPreorder Installation (Narrows uuid) where
  refl i := ⟨.of_eq rfl rfl, i.grantCache.within_self⟩
  trans _ _ _ h₁ h₂ := ⟨h₁.store.trans h₂.store, h₂.cache.trans h₁.cache⟩

/-- When the operation has ended well, nothing is remembered of the application, nor of
any client. -/
def Forgets (uuid : String) (m : Operation α) : Prop :=
  ∀ c i a j, m c i = (.ok a, j) →
    j.grantCache.clients = [] ∧ ∀ e ∈ j.grantCache.sets, e.1.1 ≠ uuid

theorem Forgets.after {m : Operation α} {f : α → Operation β} (hf : ∀ a, Forgets uuid (f a)) :
    Forgets uuid (m >>= f) := by
  intro c i b k h
  obtain ⟨a, j, _, h⟩ := of_bind_ok h
  exact hf a c j b k h

theorem Forgets.refusal {p : Prop} [Decidable p] {e : ApiError} {m : Operation α}
    (h : Forgets uuid m) : Forgets uuid (if p then (do fail e; m) else m) := by
  split
  · exact Forgets.after fun _ => h
  · exact h

theorem Forgets.before {m : Operation α} {f : α → Operation β} (hm : Forgets uuid m)
    (hf : ∀ a, Moves KeepsGrants (f a)) : Forgets uuid (m >>= f) := by
  intro c i b k h
  obtain ⟨a, j, hj, h⟩ := of_bind_ok h
  obtain ⟨hclients, hsets⟩ := hm c i a j hj
  have hjk := hf a c j
  rw [h] at hjk
  refine ⟨?_, fun e he => hsets e (hjk.cache.sets e he)⟩
  rw [List.eq_nil_iff_forall_not_mem]
  intro e he
  have hmem := hjk.cache.clients e he
  rw [hclients] at hmem
  cases hmem

theorem forgets_invalidate (uuid : String) : Forgets uuid (changingCache (·.invalidate uuid)) := by
  intro c i a j h
  cases h
  refine ⟨rfl, fun e he => ?_⟩
  simpa using (List.mem_filter.1 he).2

/-- A change of one application in a transaction keeps the cache in agreement. -/
theorem coherent_transaction (uuid : String) {m : Operation α} (hm : Moves (Narrows uuid) m)
    (hforgets : Forgets uuid m) : Moves KeepsCoherence (transaction m) := by
  intro c i hi
  have hij := hm c i
  rw [transaction]
  split
  · next a j hj =>
      rw [hj] at hij
      obtain ⟨hclients, hsets⟩ := hforgets c i a j hj
      refine ⟨⟨fun e he => ?_, fun e he => ?_⟩, hij.store.grants hi.grants,
        hij.store.catalogGrants hi.catalogGrants⟩
      · rw [hclients] at he
        cases he
      · rw [hij.store.grantSet (hsets e he)]
        exact hi.agrees.sets e (hij.cache.sets e he)
  · next e j hj =>
      rw [hj] at hij
      exact ⟨hi.agrees.of_within hij.cache, hi.grants, hi.catalogGrants⟩

/-! ## In operations -/

theorem narrows_changing {f : Store → Store} (h : ∀ s, Store.SparesGrants uuid s (f s)) :
    Moves (Narrows uuid) (changing f) :=
  moves_changing fun i => ⟨h i.store, i.grantCache.within_self⟩

theorem narrows_changingOr {f : Store → Except StoreFault Store}
    (h : ∀ s t, f s = .ok t → Store.SparesGrants uuid s t) : Moves (Narrows uuid) (changingOr f) :=
  moves_changingOr fun i t ht => ⟨h i.store t ht, i.grantCache.within_self⟩

theorem narrows_invalidate (uuid : String) :
    Moves (Narrows uuid) (changingCache (·.invalidate uuid)) :=
  moves_changingCache fun i => ⟨.of_eq rfl rfl, i.grantCache.within_invalidate uuid⟩

theorem coherent_announce (changes : PermissionChanges) :
    Moves KeepsCoherence (announce changes) := by
  refine coherent_of_keepsGrants (moves_bind moves_context fun _ => ?_)
  exact moves_publish fun i => ⟨i.store.sameGrants_self, i.grantCache.within_self⟩

theorem narrows_createGrants (uuid : String) (grants : List Grant) :
    Moves (Narrows uuid) (createGrants uuid grants) :=
  moves_forM (fun g => narrows_changing fun _ =>
    Store.spares_createGrant (g := { g with application := uuid }) rfl) grants

theorem narrows_replaceGrants (uuid : String) (grants : List Grant) :
    Moves (Narrows uuid) (replaceGrants uuid grants) := by
  refine moves_bind (narrows_changing fun s => s.spares_deleteGrants uuid) fun _ => ?_
  refine moves_bind (narrows_changing fun s => s.spares_deleteCatalogGrants uuid) fun _ => ?_
  exact narrows_createGrants uuid grants

theorem coherent_createApplication (uuid : String) (body : ApplicationBody) :
    Moves KeepsCoherence (createApplication uuid body) := by
  refine moves_bind moves_context fun c => moves_bind (moves_ofExcept _) fun input => ?_
  refine moves_bind (coherent_transaction uuid ?_ ?_) fun view => ?_
  · refine moves_bind (moves_checkClientIds _ _) fun _ => ?_
    refine moves_bind (narrows_changingOr fun _ _ => Store.spares_createApplication) fun _ => ?_
    refine moves_bind (narrows_createGrants _ _) fun _ => ?_
    exact moves_bind (narrows_invalidate _) fun _ => moves_shown _
  · refine Forgets.after fun _ => Forgets.after fun _ => Forgets.after fun _ => ?_
    exact (forgets_invalidate uuid).before fun _ => moves_shown _
  · exact moves_bind (coherent_announce _) fun _ => moves_pure _

theorem coherent_update (uuid : String) (input : ApplicationInput) :
    Moves KeepsCoherence (update uuid input) := by
  refine moves_bind (coherent_transaction uuid ?_ ?_) fun view => ?_
  · refine moves_bind (moves_application _) fun _ => ?_
    refine moves_bind (moves_checkClientIds _ _) fun _ => ?_
    have hrest : Moves (Narrows uuid) (do
        changingOr (·.updateApplication
          ⟨uuid, input.label, input.clientIds, input.hasAllPermissions⟩)
        changingCache (·.invalidate uuid)
        shown ⟨uuid, input.label, input.clientIds, input.hasAllPermissions⟩) := by
      refine moves_bind (narrows_changingOr fun _ _ => Store.spares_updateApplication) fun _ => ?_
      exact moves_bind (narrows_invalidate _) fun _ => moves_shown _
    split
    · exact moves_bind (narrows_replaceGrants _ _) fun _ => hrest
    · exact moves_bind (moves_checkKeptGrants _ _) fun _ => hrest
  · refine Forgets.after fun _ => Forgets.after fun _ => ?_
    have hrest : Forgets uuid (do
        changingOr (·.updateApplication
          ⟨uuid, input.label, input.clientIds, input.hasAllPermissions⟩)
        changingCache (·.invalidate uuid)
        shown ⟨uuid, input.label, input.clientIds, input.hasAllPermissions⟩) :=
      Forgets.after fun _ => (forgets_invalidate uuid).before fun _ => moves_shown _
    split
    · exact Forgets.after fun _ => hrest
    · exact Forgets.after fun _ => hrest
  · exact moves_bind (coherent_announce _) fun _ => moves_pure _

theorem coherent_replaceApplication (uuid : String) (body : ApplicationBody) :
    Moves KeepsCoherence (replaceApplication uuid body) :=
  moves_bind moves_context fun _ => moves_bind (moves_ofExcept _) fun _ => coherent_update _ _

theorem coherent_patchApplication (uuid : String) (change : ApplicationPatch) :
    Moves KeepsCoherence (patchApplication uuid change) := by
  refine moves_bind moves_context fun c => moves_bind (moves_application _) fun _ => ?_
  exact moves_bind (moves_ofExcept _) fun _ => coherent_update _ _

theorem coherent_deleteApplication (uuid : String) :
    Moves KeepsCoherence (deleteApplication uuid) := by
  refine moves_bind (coherent_transaction uuid ?_ ?_) fun _ => coherent_announce _
  · refine moves_bind (moves_application _) fun _ => ?_
    refine moves_bind (narrows_changing fun s => s.spares_deleteApplication uuid) fun _ => ?_
    exact narrows_invalidate uuid
  · exact Forgets.after fun _ => Forgets.after fun _ => forgets_invalidate uuid

theorem coherent_addGrant (g : Grant) : Moves KeepsCoherence (addGrant g) := by
  refine moves_bind (coherent_transaction g.application ?_ ?_) fun _ => ?_
  · refine moves_bind (moves_application _) fun _ => ?_
    have hcreate : Moves (Narrows g.application) (changingWith (·.createGrant g)) :=
      moves_changingWith fun i => ⟨Store.spares_createGrant rfl, i.grantCache.within_self⟩
    exact moves_bind hcreate fun _ => moves_bind (narrows_invalidate _) fun _ => moves_pure _
  · refine Forgets.after fun _ => Forgets.after fun _ => ?_
    exact (forgets_invalidate g.application).before fun _ => moves_pure _
  · exact moves_bind (coherent_announce _) fun _ => moves_pure _

theorem coherent_addCatalogGrant (g : CatalogGrant) : Moves KeepsCoherence (addCatalogGrant g) := by
  refine moves_bind (coherent_transaction g.application ?_ ?_) fun _ => ?_
  · refine moves_bind (moves_application _) fun _ => ?_
    refine moves_bind (moves_reading _) fun taken => moves_refusal ?_
    refine moves_bind (moves_changingWithOr fun i _ _ h => ?_) fun _ => ?_
    · exact ⟨Store.spares_createCatalogGrant rfl h, i.grantCache.within_self⟩
    · exact moves_bind (narrows_invalidate _) fun _ => moves_pure _
  · refine Forgets.after fun _ => Forgets.after fun taken => Forgets.refusal ?_
    exact Forgets.after fun _ =>
      (forgets_invalidate g.application).before fun _ => moves_pure _
  · exact moves_bind (coherent_announce _) fun _ => moves_pure _

/-- What is left when a change of one application was written and its entries dropped. -/
theorem coherent_of_spares {i : Installation} {s : Store} (hi : i.Coherent)
    (h : Store.SparesGrants uuid i.store s) :
    Installation.Coherent { i with store := s, grantCache := i.grantCache.invalidate uuid } := by
  refine ⟨⟨fun e he => ?_, fun e he => ?_⟩, h.grants hi.grants, h.catalogGrants hi.catalogGrants⟩
  · cases he
  · obtain ⟨he, hne⟩ := List.mem_filter.1 he
    rw [h.grantSet (by simpa using hne)]
    exact hi.agrees.sets e he

theorem transaction_reading (f : Store → α) (k : α → Operation β) (c : Context)
    (i : Installation) :
    transaction (reading f >>= k) c i = transaction (k (f i.store)) c i := rfl

-- The application that a revoked grant belongs to is known only once the grant is read,
-- so these transactions are opened at the installation in which they start.

theorem coherent_revokeGrant (id : Nat) : Moves KeepsCoherence (revokeGrant id) := by
  refine moves_bind (fun c i hi => ?_) fun _ => moves_bind (coherent_announce _) fun _ =>
    moves_pure _
  rw [transaction_reading]
  split
  · exact hi
  · next g hg =>
      have hspares := Store.spares_deleteGrant hi.grants hg
      have hrevoked := coherent_of_spares hi hspares
      exact hrevoked

theorem coherent_revokeCatalogGrant (id : Nat) :
    Moves KeepsCoherence (revokeCatalogGrant id) := by
  refine moves_bind (fun c i hi => ?_) fun _ => moves_bind (coherent_announce _) fun _ =>
    moves_pure _
  rw [transaction_reading]
  split
  · exact hi
  · next g hg =>
      have hspares := Store.spares_deleteCatalogGrant hi.catalogGrants hg
      have hrevoked := coherent_of_spares hi hspares
      exact hrevoked

theorem keepsGrants_registerType (d : TypeDefinition) : Moves KeepsGrants (registerType d) := by
  refine moves_refusal (moves_bind (moves_reading _) fun taken => moves_refusal ?_)
  refine moves_bind (moves_changingOr fun i t ht => ?_) fun _ => ?_
  · obtain ⟨types, -, rfl⟩ := Store.createType_ok ht
    exact ⟨⟨rfl, rfl, rfl, rfl⟩, i.grantCache.within_self⟩
  refine moves_bind (moves_reading _) fun applications => ?_
  have hinvalidate : ∀ uuid, Moves KeepsGrants (changingCache (·.invalidate uuid)) :=
    fun uuid => moves_changingCache fun i =>
      ⟨i.store.sameGrants_self, i.grantCache.within_invalidate uuid⟩
  exact moves_bind (moves_forM hinvalidate _) fun _ => moves_pure _

theorem coherent_registerTypes (definitions : List TypeDefinition) :
    Moves KeepsCoherence (registerTypes definitions) := by
  refine moves_bind (coherent_of_keepsGrants ?_) fun _ => coherent_announce _
  exact keepsGrants_transaction (moves_mapM keepsGrants_registerType definitions)

end Administration

theorem administration_keepsCoherence (command : AdministrationCommand) :
    Moves KeepsCoherence command.run := by
  cases command with
  | create uuid body => exact moves_forget (Administration.coherent_createApplication uuid body)
  | replace uuid body => exact moves_forget (Administration.coherent_replaceApplication uuid body)
  | patch uuid change => exact moves_forget (Administration.coherent_patchApplication uuid change)
  | delete uuid => exact Administration.coherent_deleteApplication uuid
  | addGrant g => exact moves_forget (Administration.coherent_addGrant g)
  | revokeGrant id => exact moves_forget (Administration.coherent_revokeGrant id)
  | addCatalogGrant g => exact moves_forget (Administration.coherent_addCatalogGrant g)
  | revokeCatalogGrant id => exact moves_forget (Administration.coherent_revokeCatalogGrant id)
  | registerTypes definitions => exact Administration.coherent_registerTypes definitions

/-! ## Operations on cases

They write cases, statuses and results, and otherwise only look things up. -/

theorem coherent_announceCase (z : CaseRecord) (sub : Option Notification.SubResource)
    (action : Action) : Moves KeepsCoherence (announceCase z sub action) :=
  coherent_of_keepsGrants fun _ i => ⟨i.store.sameGrants_self, i.grantCache.within_self⟩

theorem coherent_storeCase (z : CaseRecord) : Moves KeepsCoherence (storeCase z) := by
  refine coherent_of_keepsGrants (keepsGrants_transaction ?_)
  refine moves_bind (moves_reading _) fun found => moves_refusal ?_
  refine moves_changingOr fun i t ht => ?_
  obtain ⟨cases, -, rfl⟩ := Store.createCase_ok ht
  exact ⟨⟨rfl, rfl, rfl, rfl⟩, i.grantCache.within_self⟩

theorem coherent_store (plan : TransitionPlan) : Moves KeepsCoherence plan.store := by
  refine coherent_of_keepsGrants (keepsGrants_transaction ?_)
  refine moves_bind (moves_changingWithOr fun i r t ht => ?_) fun created => ?_
  · obtain ⟨rfl, -⟩ := Store.createStatus_ok ht
    exact ⟨⟨rfl, rfl, rfl, rfl⟩, i.grantCache.within_self⟩
  · have hupdate : ∀ z, Moves KeepsGrants (changing (·.updateCase z)) :=
      fun _ => keepsGrants_changing fun _ => ⟨rfl, rfl, rfl, rfl⟩
    refine moves_bind (hupdate _) fun _ => ?_
    exact moves_bind (moves_forM hupdate _) fun _ => moves_pure _

variable (applications : List Application)

theorem coherent_createCase (freshId : String) (input : NewCase) :
    Moves KeepsCoherence (createCase applications freshId input) := by
  refine moves_bind moves_context fun c => ?_
  refine moves_bind (coherent_of_steady (readReference_steady _ _)) fun caseType => ?_
  refine moves_bind (coherent_of_steady (authorize_steady applications _ _ _)) fun _ => ?_
  refine moves_bind (coherent_of_steady (resolveCaseType_steady _)) fun _ => ?_
  refine moves_bind (coherent_of_steady (checkMainCases_steady applications _ _ _)) fun main => ?_
  refine moves_bind (coherent_storeCase _) fun _ => ?_
  exact moves_bind (coherent_announceCase _ _ _) fun _ => moves_pure _

theorem coherent_updateCase (id : String) (u : CaseUpdate) :
    Moves KeepsCoherence (updateCase applications id u) := by
  refine moves_bind (coherent_of_steady (openCase_steady applications id _)) fun z => ?_
  refine moves_bind (coherent_of_steady (checkLevel_steady applications u z)) fun _ => ?_
  refine moves_bind (coherent_of_keepsGrants (keepsGrants_changing fun _ => ?_)) fun _ => ?_
  · exact ⟨rfl, rfl, rfl, rfl⟩
  · exact moves_bind (coherent_announceCase _ _ _) fun _ => moves_pure _

theorem coherent_recordStatus (id statusType : String) (setAt : Instant) :
    Moves KeepsCoherence (recordStatus applications id statusType setAt) := by
  refine moves_bind moves_context fun c => ?_
  refine moves_bind (coherent_of_steady (loadCase_steady applications id _)) fun z => ?_
  refine moves_bind (coherent_of_steady (authorizeAny_steady applications z _)) fun required => ?_
  refine moves_bind (coherent_of_steady (readReference_steady _ _)) fun statusType => ?_
  refine moves_bind (coherent_of_steady (resolveCaseType_steady _)) fun caseType => ?_
  have hread := readTransition_steady z required caseType statusType setAt
  refine moves_bind (coherent_of_steady hread) fun t => ?_
  refine moves_bind (coherent_of_steady (decideStatus_steady (holds_steady applications z) t _))
    fun plan => ?_
  split
  · exact moves_fail _
  · refine moves_bind (coherent_store _) fun created => ?_
    refine moves_bind (coherent_announceCase _ _ _) fun _ => ?_
    refine moves_bind (coherent_announceCase _ _ _) fun _ => ?_
    exact moves_bind (moves_forM (fun _ => coherent_announceCase _ _ _) _) fun _ => moves_pure _

theorem coherent_setResult (id resultType : String) :
    Moves KeepsCoherence (setResult applications id resultType) := by
  refine moves_bind (coherent_of_steady (openCase_steady applications id _)) fun z => ?_
  refine moves_bind (coherent_of_steady (readReference_steady _ _)) fun resultType => ?_
  refine moves_bind (coherent_of_steady (resolveCaseType_steady _)) fun caseType => ?_
  refine moves_refusal ?_
  refine moves_bind (coherent_of_keepsGrants (keepsGrants_changing fun _ => ?_)) fun _ => ?_
  · exact ⟨rfl, rfl, rfl, rfl⟩
  · exact moves_bind (coherent_announceCase _ _ _) fun _ => moves_pure _

theorem caseCommand_keepsCoherence (command : CaseCommand) : Moves KeepsCoherence command.run := by
  cases command with
  | create applications freshId input =>
      exact moves_forget (coherent_createCase applications freshId input)
  | update applications id change =>
      exact moves_forget (coherent_updateCase applications id change)
  | recordStatus applications id statusType setAt =>
      exact moves_forget (coherent_recordStatus applications id statusType setAt)
  | setResult applications id resultType =>
      exact moves_forget (coherent_setResult applications id resultType)
  | attach applications id attachment =>
      exact coherent_of_steady (authorizeAttachment_steady applications id attachment)

/-! ## Runs -/

theorem step_keepsCoherence {i j : Installation} (h : Step i j) : KeepsCoherence i j := by
  cases h with
  | onCases command c => exact caseCommand_keepsCoherence command c i
  | administration command c => exact administration_keepsCoherence command c i

/-- After any commands the grant cache agrees with the store, if it did before them. -/
theorem reaches_keepsCoherence {i j : Installation} (h : Reaches i j) : KeepsCoherence i j := by
  induction h with
  | refl => exact refl_of KeepsCoherence i
  | tail _ hstep ih => exact trans_of KeepsCoherence ih (step_keepsCoherence hstep)

/-- An installation remembers nothing at its start. -/
theorem coherent_start (config : ServerConfig) {s : Store}
    (hgrants : s.grants.Ascending Grant.id)
    (hcatalogGrants : s.catalogGrants.Ascending CatalogGrant.id) :
    (Installation.start config s).Coherent := by
  obtain ⟨kept, hkept⟩ := seed_eq s config.authn.secrets
  refine ⟨.of_empty, ?_, ?_⟩
  · rw [Installation.start, hkept]
    exact hgrants
  · rw [Installation.start, hkept]
    exact hcatalogGrants

theorem Reachable.coherent {i : Installation} (h : Reachable i) : i.Coherent := by
  induction h with
  | start config => exact coherent_start config (.of_empty rfl) (.of_empty rfl)
  | restart config _ ih => exact coherent_start config ih.grants ih.catalogGrants
  | step _ hstep ih => exact step_keepsCoherence hstep ih
  | lookup _ hm c ih => exact coherent_of_steady hm c _ ih

end CaseAccess
