import CaseAccess.Proofs.Rows
import CaseAccess.Proofs.Run

/-!
# The administration leaves cases alone

The administration changes applications, grants and types, and nothing that is kept of
cases. Each of its operations is put together from steps that change one table or drop
entries of a cache, so it is enough to see that for the steps.
-/

namespace CaseAccess

/-- What is kept of cases is the same in both stores. -/
structure Store.SameCases (s t : Store) : Prop where
  cases : t.cases = s.cases
  statuses : t.statuses = s.statuses
  results : t.results = s.results

theorem Store.sameCases_self (s : Store) : s.SameCases s := ⟨rfl, rfl, rfl⟩

theorem Store.SameCases.trans {s t u : Store} (h₁ : s.SameCases t) (h₂ : t.SameCases u) :
    s.SameCases u :=
  ⟨h₂.cases.trans h₁.cases, h₂.statuses.trans h₁.statuses, h₂.results.trans h₁.results⟩

/-- What is kept of cases is the same before and after. -/
def Installation.KeepsCases (i j : Installation) : Prop := i.store.SameCases j.store

open Installation (KeepsCases)

instance : IsPreorder Installation KeepsCases where
  refl i := i.store.sameCases_self
  trans _ _ _ h₁ h₂ := Store.SameCases.trans h₁ h₂

/-! ## In the store -/

namespace Store

variable {s t : Store}

theorem createApplication_sameCases {a : Application} (h : s.createApplication a = .ok t) :
    s.SameCases t := by
  obtain ⟨applications, clients, -, -, rfl⟩ := createApplication_ok h
  exact ⟨rfl, rfl, rfl⟩

theorem updateApplication_sameCases {a : Application} (h : s.updateApplication a = .ok t) :
    s.SameCases t := by
  obtain ⟨clients, -, rfl⟩ := updateApplication_ok h
  exact ⟨rfl, rfl, rfl⟩

theorem createType_sameCases {d : TypeDefinition} (h : s.createType d = .ok t) :
    s.SameCases t := by
  obtain ⟨types, -, rfl⟩ := createType_ok h
  exact ⟨rfl, rfl, rfl⟩

theorem createCatalogGrant_sameCases {g g' : CatalogGrant}
    (h : s.createCatalogGrant g = .ok (g', t)) : s.SameCases t := by
  obtain ⟨-, rfl⟩ := createCatalogGrant_ok h
  exact ⟨rfl, rfl, rfl⟩

end Store

/-! ## In operations -/

namespace Administration

open Operation

section Reading

variable {R : Installation → Installation → Prop} [IsPreorder Installation R]

theorem moves_application (uuid : String) : Moves R (application uuid) := by
  refine moves_bind (moves_reading _) fun a => ?_
  split
  · exact moves_pure _
  · exact moves_fail _

theorem moves_shown (a : Application) : Moves R (shown a) :=
  moves_bind moves_context fun _ => moves_reading _

theorem moves_checkClientIds (uuid : String) (clientIds : SortedSet String) :
    Moves R (checkClientIds uuid clientIds) :=
  moves_bind (moves_reading _) fun _ => moves_ofExcept _

theorem moves_checkKeptGrants (uuid : String) (hasAllPermissions : Bool) :
    Moves R (checkKeptGrants uuid hasAllPermissions) :=
  moves_bind (moves_reading _) fun _ => moves_ofExcept _

end Reading

theorem keepsCases_transaction {α : Type} {m : Operation α} (h : Moves KeepsCases m) :
    Moves KeepsCases (transaction m) :=
  moves_transaction h fun i _ _ => i.store.sameCases_self

theorem keepsCases_cache (f : GrantCache → GrantCache) : Moves KeepsCases (changingCache f) :=
  moves_changingCache fun i => i.store.sameCases_self

theorem keepsCases_announce (changes : PermissionChanges) : Moves KeepsCases (announce changes) :=
  moves_bind moves_context fun _ => moves_publish fun i => i.store.sameCases_self

theorem keepsCases_createGrants (uuid : String) (grants : List Grant) :
    Moves KeepsCases (createGrants uuid grants) :=
  moves_forM (fun _ => moves_changing fun _ => ⟨rfl, rfl, rfl⟩) grants

theorem keepsCases_replaceGrants (uuid : String) (grants : List Grant) :
    Moves KeepsCases (replaceGrants uuid grants) := by
  refine moves_bind (moves_changing fun _ => ⟨rfl, rfl, rfl⟩) fun _ => ?_
  refine moves_bind (moves_changing fun _ => ⟨rfl, rfl, rfl⟩) fun _ => ?_
  exact keepsCases_createGrants uuid grants

theorem keepsCases_createApplication (uuid : String) (body : ApplicationBody) :
    Moves KeepsCases (createApplication uuid body) := by
  refine moves_bind moves_context fun c => moves_bind (moves_ofExcept _) fun input => ?_
  refine moves_bind (keepsCases_transaction ?_) fun view => ?_
  · refine moves_bind (moves_checkClientIds _ _) fun _ => ?_
    refine moves_bind (moves_changingOr fun _ _ => Store.createApplication_sameCases) fun _ => ?_
    refine moves_bind (keepsCases_createGrants _ _) fun _ => ?_
    exact moves_bind (keepsCases_cache _) fun _ => moves_shown _
  · exact moves_bind (keepsCases_announce _) fun _ => moves_pure _

theorem keepsCases_update (uuid : String) (input : ApplicationInput) :
    Moves KeepsCases (update uuid input) := by
  refine moves_bind (keepsCases_transaction ?_) fun view => ?_
  · refine moves_bind (moves_application _) fun _ => ?_
    refine moves_bind (moves_checkClientIds _ _) fun _ => ?_
    have hrest : Moves KeepsCases (do
        changingOr (·.updateApplication
          ⟨uuid, input.label, input.clientIds, input.hasAllPermissions⟩)
        changingCache (·.invalidate uuid)
        shown ⟨uuid, input.label, input.clientIds, input.hasAllPermissions⟩) := by
      refine moves_bind (moves_changingOr fun _ _ => Store.updateApplication_sameCases) fun _ => ?_
      exact moves_bind (keepsCases_cache _) fun _ => moves_shown _
    split
    · exact moves_bind (keepsCases_replaceGrants _ _) fun _ => hrest
    · exact moves_bind (moves_checkKeptGrants _ _) fun _ => hrest
  · exact moves_bind (keepsCases_announce _) fun _ => moves_pure _

theorem keepsCases_replaceApplication (uuid : String) (body : ApplicationBody) :
    Moves KeepsCases (replaceApplication uuid body) :=
  moves_bind moves_context fun _ => moves_bind (moves_ofExcept _) fun _ => keepsCases_update _ _

theorem keepsCases_patchApplication (uuid : String) (change : ApplicationPatch) :
    Moves KeepsCases (patchApplication uuid change) := by
  refine moves_bind moves_context fun c => moves_bind (moves_application _) fun _ => ?_
  exact moves_bind (moves_ofExcept _) fun _ => keepsCases_update _ _

theorem keepsCases_deleteApplication (uuid : String) :
    Moves KeepsCases (deleteApplication uuid) := by
  refine moves_bind (keepsCases_transaction ?_) fun _ => keepsCases_announce _
  refine moves_bind (moves_application _) fun _ => ?_
  exact moves_bind (moves_changing fun _ => ⟨rfl, rfl, rfl⟩) fun _ => keepsCases_cache _

theorem keepsCases_addGrant (g : Grant) : Moves KeepsCases (addGrant g) := by
  refine moves_bind (keepsCases_transaction ?_) fun _ => ?_
  · refine moves_bind (moves_application _) fun _ => ?_
    refine moves_bind (moves_changingWith fun _ => ⟨rfl, rfl, rfl⟩) fun _ => ?_
    exact moves_bind (keepsCases_cache _) fun _ => moves_pure _
  · exact moves_bind (keepsCases_announce _) fun _ => moves_pure _

theorem keepsCases_revokeGrant (id : Nat) : Moves KeepsCases (revokeGrant id) := by
  refine moves_bind (keepsCases_transaction ?_) fun _ => ?_
  · refine moves_bind (moves_reading _) fun g => ?_
    split
    · exact moves_fail _
    · refine moves_bind (moves_changing fun _ => ⟨rfl, rfl, rfl⟩) fun _ => ?_
      exact moves_bind (keepsCases_cache _) fun _ => moves_pure _
  · exact moves_bind (keepsCases_announce _) fun _ => moves_pure _

theorem keepsCases_addCatalogGrant (g : CatalogGrant) : Moves KeepsCases (addCatalogGrant g) := by
  refine moves_bind (keepsCases_transaction ?_) fun _ => ?_
  · refine moves_bind (moves_application _) fun _ => ?_
    refine moves_bind (moves_reading _) fun taken => moves_refusal ?_
    refine moves_bind (moves_changingWithOr fun _ _ _ => Store.createCatalogGrant_sameCases)
      fun _ => ?_
    exact moves_bind (keepsCases_cache _) fun _ => moves_pure _
  · exact moves_bind (keepsCases_announce _) fun _ => moves_pure _

theorem keepsCases_revokeCatalogGrant (id : Nat) : Moves KeepsCases (revokeCatalogGrant id) := by
  refine moves_bind (keepsCases_transaction ?_) fun _ => ?_
  · refine moves_bind (moves_reading _) fun g => ?_
    split
    · exact moves_fail _
    · refine moves_bind (moves_changing fun _ => ⟨rfl, rfl, rfl⟩) fun _ => ?_
      exact moves_bind (keepsCases_cache _) fun _ => moves_pure _
  · exact moves_bind (keepsCases_announce _) fun _ => moves_pure _

theorem keepsCases_registerType (d : TypeDefinition) : Moves KeepsCases (registerType d) := by
  refine moves_refusal (moves_bind (moves_reading _) fun taken => moves_refusal ?_)
  refine moves_bind (moves_changingOr fun _ _ => Store.createType_sameCases) fun _ => ?_
  refine moves_bind (moves_reading _) fun applications => ?_
  exact moves_bind (moves_forM (fun _ => keepsCases_cache _) _) fun _ => moves_pure _

theorem keepsCases_registerTypes (definitions : List TypeDefinition) :
    Moves KeepsCases (registerTypes definitions) :=
  moves_bind (keepsCases_transaction (moves_mapM keepsCases_registerType definitions)) fun _ =>
    keepsCases_announce _

end Administration

/-- No command of the administration touches what is kept of cases. -/
theorem administration_keepsCases (command : AdministrationCommand) :
    Operation.Moves KeepsCases command.run := by
  cases command with
  | create uuid body => exact moves_forget (Administration.keepsCases_createApplication uuid body)
  | replace uuid body => exact moves_forget (Administration.keepsCases_replaceApplication uuid body)
  | patch uuid change => exact moves_forget (Administration.keepsCases_patchApplication uuid change)
  | delete uuid => exact Administration.keepsCases_deleteApplication uuid
  | addGrant g => exact moves_forget (Administration.keepsCases_addGrant g)
  | revokeGrant id => exact moves_forget (Administration.keepsCases_revokeGrant id)
  | addCatalogGrant g => exact moves_forget (Administration.keepsCases_addCatalogGrant g)
  | revokeCatalogGrant id => exact moves_forget (Administration.keepsCases_revokeCatalogGrant id)
  | registerTypes definitions => exact Administration.keepsCases_registerTypes definitions

end CaseAccess
