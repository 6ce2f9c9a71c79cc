import CaseAccess.Proofs.AdministrationFrame

/-!
# What the administration writes

A command of the administration that ends well has made one change of the store, and has
announced the applications that the change is about. `Writes` lists these changes, one
for each command, together with what was checked before; `writes_of` says that there is
no other way to end well. Whatever is to be shown of a successful command is a case
analysis over that list.

The announcement is given as it is recorded, before the records of one application are
put together.
-/

namespace CaseAccess

open Operation Administration

/-- The application that an input describes. -/
def ApplicationInput.application (input : ApplicationInput) (uuid : String) : Application :=
  ⟨uuid, input.label, input.clientIds, input.hasAllPermissions⟩

namespace Store

/-- The store with more grants of an application. -/
def addGrants (s : Store) (uuid : String) (grants : List Grant) : Store :=
  grants.foldl (fun s g => (s.createGrant { g with application := uuid }).2) s

/-- The store with these grants of an application instead of all that it has, or with
those that it has. -/
def regrant (s : Store) (uuid : String) : Option (List Grant) → Store
  | some grants =>
      ((s.deleteApplicationGrants uuid).deleteApplicationCatalogGrants uuid).addGrants uuid grants
  | none => s

/-- Whether an application holds a grant of either kind. -/
def hasGrants (s : Store) (uuid : String) : Bool :=
  !(s.listGrants uuid).isEmpty || !(s.listCatalogGrants uuid).isEmpty

/-- An application is made what an input says, and its grants are replaced by those of
the input or, if it has none, still fit. -/
structure Updates (s : Store) (uuid : String) (input : ApplicationInput) (t : Store) : Prop where
  found : (s.application? uuid).isSome = true
  free : ownerRefusals s uuid input.clientIds = []
  kept : input.grants = none →
    exclusivityRefusals input.hasAllPermissions (s.hasGrants uuid) = []
  stored : (s.regrant uuid input.grants).updateApplication (input.application uuid) = .ok t

/-- Types that are held here are stored one after another. -/
inductive Registers : Store → List TypeDefinition → Store → Prop where
  | nil (s : Store) : Registers s [] s
  | cons {s t u : Store} {d : TypeDefinition} {rest : List TypeDefinition}
      (held : d.reference.isRemote = false) (first : s.createType d = .ok t)
      (others : Registers t rest u) : Registers s (d :: rest) u

/-! ### What they leave alone -/

section Frame

variable {s t : Store} {uuid : String}

theorem uuid_of_application? {a : Application} (h : s.application? uuid = some a) :
    a.uuid = uuid := by
  obtain ⟨row, hrow, rfl⟩ := Option.map_eq_some_iff.1 h
  have hkey : row.uuid = uuid := Table.key_of_get? hrow
  exact hkey

theorem isSome_application? :
    (s.application? uuid).isSome = (s.applications.get? uuid).isSome := Option.isSome_map

/-- Grants that are added change nothing about applications or types. -/
theorem addGrants_eq (s : Store) (uuid : String) (grants : List Grant) :
    ∃ kept, s.addGrants uuid grants = { s with grants := kept } := by
  induction grants generalizing s with
  | nil => exact ⟨s.grants, rfl⟩
  | cons g rest ih =>
      obtain ⟨kept, h⟩ := ih (s.createGrant { g with application := uuid }).2
      exact ⟨kept, h⟩

theorem regrant_eq (s : Store) (uuid : String) (grants : Option (List Grant)) :
    ∃ kept keptOnCatalogs,
      s.regrant uuid grants = { s with grants := kept, catalogGrants := keptOnCatalogs } := by
  cases grants with
  | none => exact ⟨s.grants, s.catalogGrants, rfl⟩
  | some grants =>
      obtain ⟨kept, h⟩ := addGrants_eq
        ((s.deleteApplicationGrants uuid).deleteApplicationCatalogGrants uuid) uuid grants
      exact ⟨kept, _, h⟩

theorem Registers.eq {definitions : List TypeDefinition} (h : s.Registers definitions t) :
    ∃ types, t = { s with types := types } := by
  induction h with
  | nil s => exact ⟨s.types, rfl⟩
  | cons _ first _ ih =>
      obtain ⟨types, -, rfl⟩ := createType_ok first
      obtain ⟨types', rfl⟩ := ih
      exact ⟨types', rfl⟩

end Frame

end Store

/-- What a command writes when it ends well in a context, and the applications that it
announces. -/
inductive AdministrationCommand.Writes (c : Context) (s : Store) :
    AdministrationCommand → Store → List (String × Action) → Prop where
  | create {uuid : String} {body : ApplicationBody} {input : ApplicationInput} {t : Store}
      (read : body.read c.bases = .ok input)
      (free : ownerRefusals s uuid input.clientIds = [])
      (stored : s.createApplication (input.application uuid) = .ok t) :
      Writes c s (.create uuid body) (t.addGrants uuid (input.grants.getD [])) [(uuid, .create)]
  | replace {uuid : String} {body : ApplicationBody} {input : ApplicationInput} {t : Store}
      (read : body.read c.bases = .ok input) (stored : s.Updates uuid input t) :
      Writes c s (.replace uuid body) t [(uuid, .update)]
  | patch {uuid : String} {change : ApplicationPatch} {current : Application}
      {input : ApplicationInput} {t : Store} (found : s.application? uuid = some current)
      (read : change.read c.bases current = .ok input) (stored : s.Updates uuid input t) :
      Writes c s (.patch uuid change) t [(uuid, .update)]
  | delete {uuid : String} (found : (s.application? uuid).isSome = true) :
      Writes c s (.delete uuid) (s.deleteApplication uuid) [(uuid, .destroy)]
  | addGrant {g : Grant} (found : (s.application? g.application).isSome = true) :
      Writes c s (.addGrant g) (s.createGrant g).2 [(g.application, .update)]
  | revokeGrant {id : Nat} {g : Grant} (found : s.grant? id = some g) :
      Writes c s (.revokeGrant id) (s.deleteGrant id) [(g.application, .update)]
  | addCatalogGrant {g g' : CatalogGrant} {t : Store}
      (found : (s.application? g.application).isSome = true)
      (stored : s.createCatalogGrant g = .ok (g', t)) :
      Writes c s (.addCatalogGrant g) t [(g.application, .update)]
  | revokeCatalogGrant {id : Nat} {g : CatalogGrant} (found : s.catalogGrant? id = some g) :
      Writes c s (.revokeCatalogGrant id) (s.deleteCatalogGrant id) [(g.application, .update)]
  | registerTypes {definitions : List TypeDefinition} {t : Store}
      (stored : s.Registers definitions t) :
      Writes c s (.registerTypes definitions) t
        ((definitions.flatMap (holders · s)).map (·, .update))

/-! ## In operations -/

/-- The store was changed and something was announced; of the rest nothing is said. -/
structure Installation.Changes (c : Context) (i : Installation) (t : Store)
    (named : List (String × Action)) (j : Installation) : Prop where
  store : j.store = t
  outbox : j.outbox = i.outbox ++
    (PermissionChanges.ofList named).notifications c.settings.publicBaseUrl c.now

open Installation (Changes)

namespace Administration

variable {c : Context} {i j : Installation} {uuid : String}

theorem application_ok {a : Application} (h : application uuid c i = (.ok a, j)) :
    i.store.application? uuid = some a ∧ i = j := by
  obtain ⟨found, i₁, hread, h⟩ := of_bind_ok h
  obtain ⟨hfound, rfl⟩ := of_reading_ok hread
  cases found with
  | none => cases h
  | some a' =>
      cases h
      exact ⟨hfound, rfl⟩

theorem checkClientIds_ok {clientIds : SortedSet String}
    (h : checkClientIds uuid clientIds c i = (.ok (), j)) :
    ownerRefusals i.store uuid clientIds = [] ∧ i = j := by
  obtain ⟨refusals, i₁, hread, h⟩ := of_bind_ok h
  obtain ⟨rfl, rfl⟩ := of_reading_ok hread
  obtain ⟨hparams, rfl⟩ := of_ofExcept_ok h
  exact ⟨ApiError.ofParams_eq_ok.1 hparams, rfl⟩

theorem checkKeptGrants_ok {hasAllPermissions : Bool}
    (h : checkKeptGrants uuid hasAllPermissions c i = (.ok (), j)) :
    exclusivityRefusals hasAllPermissions (i.store.hasGrants uuid) = [] ∧ i = j := by
  obtain ⟨hasGrants, i₁, hread, h⟩ := of_bind_ok h
  obtain ⟨rfl, rfl⟩ := of_reading_ok hread
  obtain ⟨hparams, rfl⟩ := of_ofExcept_ok h
  exact ⟨ApiError.ofParams_eq_ok.1 hparams, rfl⟩

theorem createGrants_eq (uuid : String) (grants : List Grant) (c : Context) (i : Installation) :
    createGrants uuid grants c i =
      (.ok (), { i with store := i.store.addGrants uuid grants }) :=
  forM_changing (fun (g : Grant) (s : Store) => (s.createGrant { g with application := uuid }).2)
    grants c i

theorem replaceGrants_eq (uuid : String) (grants : List Grant) (c : Context) (i : Installation) :
    replaceGrants uuid grants c i =
      (.ok (), { i with store := i.store.regrant uuid (some grants) }) :=
  createGrants_eq uuid grants c _

theorem createApplication_ok {body : ApplicationBody} {view : ApplicationView}
    (h : createApplication uuid body c i = (.ok view, j)) :
    ∃ input t, body.read c.bases = .ok input ∧
      ownerRefusals i.store uuid input.clientIds = [] ∧
      i.store.createApplication (input.application uuid) = .ok t ∧
      i.Changes c (t.addGrants uuid (input.grants.getD [])) [(uuid, .create)] j ∧
      view = j.store.view c.settings.publicBaseUrl (input.application uuid) := by
  obtain ⟨ctx, i₀, hctx, h⟩ := of_bind_ok h
  cases hctx
  obtain ⟨input, i₁, hinput, h⟩ := of_bind_ok h
  obtain ⟨hread, rfl⟩ := of_ofExcept_ok hinput
  obtain ⟨shown, i₂, hwrite, h⟩ := of_bind_ok h
  obtain ⟨_, i₃, hcheck, hwrite⟩ := of_bind_ok (of_transaction_ok hwrite)
  obtain ⟨hfree, rfl⟩ := checkClientIds_ok hcheck
  obtain ⟨_, i₄, hstore, hwrite⟩ := of_bind_ok hwrite
  obtain ⟨t, hstored, rfl⟩ := of_changingOr_ok hstore
  rw [bind_of_ok (createGrants_eq _ _ _ _)] at hwrite
  cases hwrite
  cases h
  exact ⟨input, t, hread, hfree, hstored, ⟨rfl, rfl⟩, rfl⟩

theorem update_ok {input : ApplicationInput} {view : ApplicationView}
    (h : update uuid input c i = (.ok view, j)) :
    ∃ t, i.store.Updates uuid input t ∧ i.Changes c t [(uuid, .update)] j ∧
      view = t.view c.settings.publicBaseUrl (input.application uuid) := by
  obtain ⟨shown, i₁, hwrite, h⟩ := of_bind_ok h
  obtain ⟨a, i₂, hload, hwrite⟩ := of_bind_ok (of_transaction_ok hwrite)
  obtain ⟨hfound, rfl⟩ := application_ok hload
  obtain ⟨_, i₃, hcheck, hwrite⟩ := of_bind_ok hwrite
  obtain ⟨hfree, rfl⟩ := checkClientIds_ok hcheck
  have hsome : (i.store.application? uuid).isSome = true := by rw [hfound]; rfl
  split at hwrite
  · next grants hgrants =>
      rw [bind_of_ok (replaceGrants_eq _ _ _ _)] at hwrite
      obtain ⟨_, i₄, hstore, hwrite⟩ := of_bind_ok hwrite
      obtain ⟨t, hstored, rfl⟩ := of_changingOr_ok hstore
      cases hwrite
      cases h
      refine ⟨t, ⟨hsome, hfree, fun hnone => ?_, ?_⟩, ⟨rfl, rfl⟩, rfl⟩
      · rw [hgrants] at hnone
        cases hnone
      · rw [hgrants]
        exact hstored
  · next hgrants =>
      obtain ⟨_, i₄, hcheck, hwrite⟩ := of_bind_ok hwrite
      obtain ⟨hkept, rfl⟩ := checkKeptGrants_ok hcheck
      obtain ⟨_, i₅, hstore, hwrite⟩ := of_bind_ok hwrite
      obtain ⟨t, hstored, rfl⟩ := of_changingOr_ok hstore
      cases hwrite
      cases h
      refine ⟨t, ⟨hsome, hfree, fun _ => hkept, ?_⟩, ⟨rfl, rfl⟩, rfl⟩
      rw [hgrants]
      exact hstored

theorem replaceApplication_ok {body : ApplicationBody} {view : ApplicationView} :
    replaceApplication uuid body c i = (.ok view, j) ↔
      ∃ input, body.read c.bases = .ok input ∧ update uuid input c i = (.ok view, j) := by
  rw [replaceApplication, bind_context]
  cases body.read c.bases with
  | ok input =>
      have hread : ofExcept (.ok input) c i = (.ok input, i) := rfl
      simp [bind_of_ok hread]
  | error e =>
      refine iff_of_false (fun h => ?_) ?_
      · cases h
      · rintro ⟨input, hinput, -⟩
        cases hinput

theorem patchApplication_ok {change : ApplicationPatch} {view : ApplicationView}
    (h : patchApplication uuid change c i = (.ok view, j)) :
    ∃ current input, i.store.application? uuid = some current ∧
      change.read c.bases current = .ok input ∧ update uuid input c i = (.ok view, j) := by
  obtain ⟨ctx, i₀, hctx, h⟩ := of_bind_ok h
  cases hctx
  obtain ⟨current, i₁, hcurrent, h⟩ := of_bind_ok h
  obtain ⟨hfound, rfl⟩ := application_ok hcurrent
  obtain ⟨input, i₂, hinput, h⟩ := of_bind_ok h
  obtain ⟨hread, rfl⟩ := of_ofExcept_ok hinput
  exact ⟨current, input, hfound, hread, h⟩

theorem deleteApplication_ok (h : deleteApplication uuid c i = (.ok (), j)) :
    (i.store.application? uuid).isSome = true ∧
      i.Changes c (i.store.deleteApplication uuid) [(uuid, .destroy)] j := by
  obtain ⟨_, i₁, hwrite, h⟩ := of_bind_ok h
  obtain ⟨a, i₂, hload, hwrite⟩ := of_bind_ok (of_transaction_ok hwrite)
  obtain ⟨hfound, rfl⟩ := application_ok hload
  cases hwrite
  cases h
  exact ⟨by rw [hfound]; rfl, rfl, rfl⟩

theorem addGrant_ok {g g' : Grant} (h : addGrant g c i = (.ok g', j)) :
    (i.store.application? g.application).isSome = true ∧ g' = (i.store.createGrant g).1 ∧
      i.Changes c (i.store.createGrant g).2 [(g.application, .update)] j := by
  obtain ⟨created, i₁, hwrite, h⟩ := of_bind_ok h
  obtain ⟨a, i₂, hload, hwrite⟩ := of_bind_ok (of_transaction_ok hwrite)
  obtain ⟨hfound, rfl⟩ := application_ok hload
  cases hwrite
  cases h
  exact ⟨by rw [hfound]; rfl, rfl, rfl, rfl⟩

theorem revokeGrant_ok {id : Nat} {g : Grant} (h : revokeGrant id c i = (.ok g, j)) :
    i.store.grant? id = some g ∧
      i.Changes c (i.store.deleteGrant id) [(g.application, .update)] j := by
  obtain ⟨revoked, i₁, hwrite, h⟩ := of_bind_ok h
  obtain ⟨found, i₂, hread, hwrite⟩ := of_bind_ok (of_transaction_ok hwrite)
  obtain ⟨hfound, rfl⟩ := of_reading_ok hread
  cases found with
  | none => cases hwrite
  | some g' =>
      cases hwrite
      cases h
      exact ⟨hfound, rfl, rfl⟩

theorem addCatalogGrant_ok {g g' : CatalogGrant} (h : addCatalogGrant g c i = (.ok g', j)) :
    (i.store.application? g.application).isSome = true ∧
      ∃ t, i.store.createCatalogGrant g = .ok (g', t) ∧
        i.Changes c t [(g.application, .update)] j := by
  obtain ⟨created, i₁, hwrite, h⟩ := of_bind_ok h
  obtain ⟨a, i₂, hload, hwrite⟩ := of_bind_ok (of_transaction_ok hwrite)
  obtain ⟨hfound, rfl⟩ := application_ok hload
  obtain ⟨taken, i₃, hread, hwrite⟩ := of_bind_ok hwrite
  obtain ⟨-, rfl⟩ := of_reading_ok hread
  obtain ⟨-, hwrite⟩ := of_refusal_ok hwrite
  obtain ⟨_, i₄, hstore, hwrite⟩ := of_bind_ok hwrite
  obtain ⟨t, hstored, rfl⟩ := of_changingWithOr_ok hstore
  cases hwrite
  cases h
  exact ⟨by rw [hfound]; rfl, t, hstored, rfl, rfl⟩

theorem revokeCatalogGrant_ok {id : Nat} {g : CatalogGrant}
    (h : revokeCatalogGrant id c i = (.ok g, j)) :
    i.store.catalogGrant? id = some g ∧
      i.Changes c (i.store.deleteCatalogGrant id) [(g.application, .update)] j := by
  obtain ⟨revoked, i₁, hwrite, h⟩ := of_bind_ok h
  obtain ⟨found, i₂, hread, hwrite⟩ := of_bind_ok (of_transaction_ok hwrite)
  obtain ⟨hfound, rfl⟩ := of_reading_ok hread
  cases found with
  | none => cases hwrite
  | some g' =>
      cases hwrite
      cases h
      exact ⟨hfound, rfl, rfl⟩

/-! ## Types

Whose permissions a type adds to is read after it is stored, but a type changes nothing
about grants, so it can be said of the store before the batch. -/

theorem holders_createType {s t : Store} {d : TypeDefinition} (h : s.createType d = .ok t)
    (d' : TypeDefinition) : holders d' t = holders d' s := by
  obtain ⟨types, -, rfl⟩ := Store.createType_ok h
  rfl

theorem forM_invalidate (applications : List String) (c : Context) (i : Installation) :
    (applications.forM fun uuid => changingCache (·.invalidate uuid)) c i =
      (.ok (), { i with grantCache := applications.foldl GrantCache.invalidate i.grantCache }) := by
  induction applications generalizing i with
  | nil => rfl
  | cons uuid rest ih =>
      exact ih { i with grantCache := i.grantCache.invalidate uuid }

theorem registerType_ok {d : TypeDefinition} {applications : List String}
    (h : registerType d c i = (.ok applications, j)) :
    d.reference.isRemote = false ∧ applications = holders d i.store ∧
      i.store.createType d = .ok j.store ∧ j.outbox = i.outbox := by
  obtain ⟨hlocal, h⟩ := of_refusal_ok h
  obtain ⟨taken, i₁, hread, h⟩ := of_bind_ok h
  obtain ⟨-, rfl⟩ := of_reading_ok hread
  obtain ⟨-, h⟩ := of_refusal_ok h
  obtain ⟨_, i₂, hstore, h⟩ := of_bind_ok h
  obtain ⟨t, hstored, rfl⟩ := of_changingOr_ok hstore
  obtain ⟨found, i₃, hholders, h⟩ := of_bind_ok h
  obtain ⟨rfl, rfl⟩ := of_reading_ok hholders
  rw [bind_of_ok (forM_invalidate _ c _)] at h
  cases h
  exact ⟨by simpa using hlocal, holders_createType hstored d, hstored, rfl⟩

theorem registers_of_mapM {definitions : List TypeDefinition} {changed : List (List String)}
    (h : definitions.mapM registerType c i = (.ok changed, j)) :
    i.store.Registers definitions j.store ∧
      changed.flatten = definitions.flatMap (holders · i.store) ∧ j.outbox = i.outbox := by
  induction definitions generalizing i changed with
  | nil =>
      cases h
      exact ⟨.nil _, rfl, rfl⟩
  | cons d rest ih =>
      rw [List.mapM_cons] at h
      obtain ⟨first, i₁, hfirst, h⟩ := of_bind_ok h
      obtain ⟨others, i₂, hothers, h⟩ := of_bind_ok h
      cases h
      obtain ⟨hheld, rfl, hstored, houtbox⟩ := registerType_ok hfirst
      obtain ⟨hregisters, hflat, houtbox'⟩ := ih hothers
      refine ⟨.cons hheld hstored hregisters, ?_, houtbox'.trans houtbox⟩
      rw [List.flatten_cons, List.flatMap_cons, hflat]
      simp only [holders_createType hstored]

theorem registerTypes_ok {definitions : List TypeDefinition}
    (h : registerTypes definitions c i = (.ok (), j)) :
    ∃ t, i.store.Registers definitions t ∧
      i.Changes c t ((definitions.flatMap (holders · i.store)).map (·, .update)) j := by
  obtain ⟨changed, i₁, hwrite, h⟩ := of_bind_ok h
  obtain ⟨hregisters, hflat, houtbox⟩ := registers_of_mapM (of_transaction_ok hwrite)
  cases h
  refine ⟨i₁.store, hregisters, rfl, ?_⟩
  show i₁.outbox ++ _ = _
  rw [houtbox, hflat]

end Administration

/-- A command that ends well has written what is listed for it. -/
theorem AdministrationCommand.writes_of {command : AdministrationCommand} {c : Context}
    {i j : Installation} (h : command.run c i = (.ok (), j)) :
    ∃ t named, command.Writes c i.store t named ∧ i.Changes c t named j := by
  cases command with
  | create uuid body =>
      obtain ⟨view, j', hcreate, h⟩ := of_bind_ok h
      cases h
      obtain ⟨input, t, hread, hfree, hstored, hchanges, -⟩ := createApplication_ok hcreate
      exact ⟨_, _, .create hread hfree hstored, hchanges⟩
  | replace uuid body =>
      obtain ⟨view, j', hreplace, h⟩ := of_bind_ok h
      cases h
      obtain ⟨input, hread, hupdate⟩ := replaceApplication_ok.1 hreplace
      obtain ⟨t, hupdates, hchanges, -⟩ := update_ok hupdate
      exact ⟨t, _, .replace hread hupdates, hchanges⟩
  | patch uuid change =>
      obtain ⟨view, j', hpatch, h⟩ := of_bind_ok h
      cases h
      obtain ⟨current, input, hfound, hread, hupdate⟩ := patchApplication_ok hpatch
      obtain ⟨t, hupdates, hchanges, -⟩ := update_ok hupdate
      exact ⟨t, _, .patch hfound hread hupdates, hchanges⟩
  | delete uuid =>
      obtain ⟨hfound, hchanges⟩ := deleteApplication_ok h
      exact ⟨_, _, .delete hfound, hchanges⟩
  | addGrant g =>
      obtain ⟨created, j', hadd, h⟩ := of_bind_ok h
      cases h
      obtain ⟨hfound, -, hchanges⟩ := addGrant_ok hadd
      exact ⟨_, _, .addGrant hfound, hchanges⟩
  | revokeGrant id =>
      obtain ⟨revoked, j', hrevoke, h⟩ := of_bind_ok h
      cases h
      obtain ⟨hfound, hchanges⟩ := revokeGrant_ok hrevoke
      exact ⟨_, _, .revokeGrant hfound, hchanges⟩
  | addCatalogGrant g =>
      obtain ⟨created, j', hadd, h⟩ := of_bind_ok h
      cases h
      obtain ⟨hfound, t, hstored, hchanges⟩ := addCatalogGrant_ok hadd
      exact ⟨t, _, .addCatalogGrant hfound hstored, hchanges⟩
  | revokeCatalogGrant id =>
      obtain ⟨revoked, j', hrevoke, h⟩ := of_bind_ok h
      cases h
      obtain ⟨hfound, hchanges⟩ := revokeCatalogGrant_ok hrevoke
      exact ⟨_, _, .revokeCatalogGrant hfound, hchanges⟩
  | registerTypes definitions =>
      obtain ⟨t, hregisters, hchanges⟩ := registerTypes_ok h
      exact ⟨t, _, .registerTypes hregisters, hchanges⟩

end CaseAccess
