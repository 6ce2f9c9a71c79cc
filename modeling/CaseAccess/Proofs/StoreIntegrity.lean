import CaseAccess.Proofs.AdministrationChange
import CaseAccess.Proofs.Atomicity
import CaseAccess.Proofs.CacheCoherence

/-!
# The rows of the store belong together

The tables of applications, client identifiers and grants refer to each other by the
uuids of applications, and nothing in the tables themselves keeps such a reference from
pointing nowhere. The administration does. In every installation that can be found
running the applications have client identifiers, the identifiers are written without
blanks around them, and clients and grants belong to applications that are there.

`Consistent` says this of the rows, where it is kept by one function of the store after
another; a command is a case analysis over what it may write. That an identifier is
owned by at most one application needs no invariant: it is the key of its table.
-/

namespace CaseAccess

/-- A text that a client may be known by. -/
structure IsClientId (text : String) : Prop where
  trimmed : trimmed text = text
  notEmpty : text ≠ ""

/-- Client identifiers that an application may have. -/
structure AreClientIds (ids : SortedSet String) : Prop where
  some : ∃ clientId, clientId ∈ ids
  all : ∀ clientId ∈ ids, IsClientId clientId

namespace Store

/-- There is an application of that uuid. -/
def HasApplication (s : Store) (uuid : String) : Prop :=
  uuid ∈ s.applications.rows.map (·.uuid)

/-- The rows of the store belong together. -/
structure Consistent (s : Store) : Prop where
  identified : ∀ uuid, s.HasApplication uuid → ∃ row ∈ s.clients.rows, row.application = uuid
  proper : ∀ row ∈ s.clients.rows, IsClientId row.clientId
  clients : ∀ row ∈ s.clients.rows, s.HasApplication row.application
  grants : ∀ g ∈ s.grants.rows, s.HasApplication g.application
  catalogGrants : ∀ g ∈ s.catalogGrants.rows, s.HasApplication g.application
  targets : s.catalogGrants.rows.Pairwise fun g h => sameTarget g h = false

variable {s t : Store} {uuid clientId : String}

theorem hasApplication_iff : s.HasApplication uuid ↔ (s.application? uuid).isSome = true := by
  rw [isSome_application?, Option.isSome_iff_ne_none, Ne, Table.get?_eq_none, not_not]
  rfl

theorem clientIds_of_application? {a : Application} (h : s.application? uuid = some a) :
    a.clientIds = s.clientIds uuid := by
  obtain ⟨row, hrow, rfl⟩ := Option.map_eq_some_iff.1 h
  have hkey : row.uuid = uuid := Table.key_of_get? hrow
  rw [ofRow, hkey]

theorem mem_clientIds : clientId ∈ s.clientIds uuid ↔ ⟨clientId, uuid⟩ ∈ s.clients.rows := by
  rw [clientIds, SortedSet.mem_ofList, List.mem_map]
  constructor
  · rintro ⟨row, hrow, rfl⟩
    obtain ⟨hrow, happlication⟩ := List.mem_filter.1 hrow
    rwa [← of_decide_eq_true happlication]
  · intro hrow
    exact ⟨_, List.mem_filter.2 ⟨hrow, decide_eq_true rfl⟩, rfl⟩

theorem clientOwner?_eq_some :
    s.clientOwner? clientId = some uuid ↔ ⟨clientId, uuid⟩ ∈ s.clients.rows := by
  rw [clientOwner?, Option.map_eq_some_iff]
  constructor
  · rintro ⟨row, hrow, rfl⟩
    obtain ⟨hmem, rfl⟩ := Table.get?_eq_some.1 hrow
    exact hmem
  · intro hrow
    exact ⟨_, Table.get?_eq_some.2 ⟨hrow, rfl⟩, rfl⟩

/-! ## What is known of an application -/

namespace Consistent

/-- An identifier leads to the application that lists it, and to no other. -/
theorem clientOwner?_eq_some_iff (h : s.Consistent) :
    s.clientOwner? clientId = some uuid ↔
      ∃ a, s.application? uuid = some a ∧ clientId ∈ a.clientIds := by
  rw [clientOwner?_eq_some, ← mem_clientIds]
  constructor
  · intro hmem
    have hhas := h.clients _ (mem_clientIds.1 hmem)
    obtain ⟨a, ha⟩ := Option.isSome_iff_exists.1 (hasApplication_iff.1 hhas)
    exact ⟨a, ha, by rwa [clientIds_of_application? ha]⟩
  · rintro ⟨a, ha, hmem⟩
    rwa [← clientIds_of_application? ha]

theorem areClientIds (h : s.Consistent) {a : Application} (ha : s.application? uuid = some a) :
    AreClientIds a.clientIds := by
  rw [clientIds_of_application? ha]
  have hhas : s.HasApplication uuid := hasApplication_iff.2 (by rw [ha]; rfl)
  obtain ⟨row, hrow, rfl⟩ := h.identified uuid hhas
  exact ⟨⟨row.clientId, mem_clientIds.2 hrow⟩, fun _ hmem => h.proper _ (mem_clientIds.1 hmem)⟩

/-! ## Functions of the store -/

theorem of_empty (happlications : s.applications.rows = []) (hclients : s.clients.rows = [])
    (hgrants : s.grants.rows = []) (hcatalogGrants : s.catalogGrants.rows = []) :
    s.Consistent where
  identified uuid h := by simp [HasApplication, happlications] at h
  proper row hrow := by simp [hclients] at hrow
  clients row hrow := by simp [hclients] at hrow
  grants g hg := by simp [hgrants] at hg
  catalogGrants g hg := by simp [hcatalogGrants] at hg
  targets := by simp [hcatalogGrants]

theorem of_sameGrants (h : s.Consistent) (hst : s.SameGrants t) : t.Consistent := by
  obtain ⟨happlications, hclients, hgrants, hcatalogGrants⟩ := hst
  have hhas : t.HasApplication = s.HasApplication := by
    funext uuid
    rw [HasApplication, HasApplication, happlications]
  constructor
  · rw [hhas, hclients]
    exact h.identified
  · rw [hclients]
    exact h.proper
  · rw [hhas, hclients]
    exact h.clients
  · rw [hhas, hgrants]
    exact h.grants
  · rw [hhas, hcatalogGrants]
    exact h.catalogGrants
  · rw [hcatalogGrants]
    exact h.targets

theorem createGrant (h : s.Consistent) {g : Grant} (hg : s.HasApplication g.application) :
    (s.createGrant g).2.Consistent :=
  { h with
    grants := List.forall_mem_append.2 ⟨h.grants, List.forall_mem_singleton.2 hg⟩ }

theorem addGrants (h : s.Consistent) (hhas : s.HasApplication uuid) (grants : List Grant) :
    (s.addGrants uuid grants).Consistent := by
  induction grants generalizing s with
  | nil => exact h
  | cons g rest ih =>
      have hfirst : (s.createGrant { g with application := uuid }).2.Consistent :=
        h.createGrant hhas
      exact ih hfirst hhas

theorem filterGrants (h : s.Consistent) (p : Grant → Bool) :
    Consistent { s with grants := s.grants.filter p } :=
  { h with grants := fun g hg => h.grants g (List.mem_filter.1 hg).1 }

theorem filterCatalogGrants (h : s.Consistent) (p : CatalogGrant → Bool) :
    Consistent { s with catalogGrants := s.catalogGrants.filter p } :=
  { h with
    catalogGrants := fun g hg => h.catalogGrants g (List.mem_filter.1 hg).1
    targets := h.targets.filter p }

theorem regrant (h : s.Consistent) (hhas : s.HasApplication uuid) (grants : Option (List Grant)) :
    (s.regrant uuid grants).Consistent := by
  cases grants with
  | none => exact h
  | some grants => exact ((h.filterGrants _).filterCatalogGrants _).addGrants hhas grants

/-- A grant is on a new target, so no pair of catalog grants is on one. -/
theorem createCatalogGrant (h : s.Consistent) {g g' : CatalogGrant}
    (hg : s.HasApplication g.application) (hstored : s.createCatalogGrant g = .ok (g', t)) :
    t.Consistent := by
  have hfree : ∀ g₁ ∈ s.catalogGrants.rows, sameTarget g₁ g = false := by
    intro g₁ hg₁
    rw [Store.createCatalogGrant] at hstored
    split at hstored
    · cases hstored
    · next hnone =>
      rw [Bool.not_eq_true, List.any_eq_false] at hnone
      have hne := hnone g₁ hg₁
      simp only [sameTarget, Bool.not_eq_true, decide_eq_false_iff_not] at hne ⊢
      exact fun heq => hne ⟨heq.1.symm, heq.2.1.symm, heq.2.2.symm⟩
  obtain ⟨rfl, rfl⟩ := createCatalogGrant_ok hstored
  refine { h with catalogGrants := ?_, targets := ?_ }
  · exact List.forall_mem_append.2 ⟨h.catalogGrants, List.forall_mem_singleton.2 hg⟩
  · refine List.pairwise_append.2 ⟨h.targets, List.pairwise_singleton _ _, fun g₁ hg₁ g₂ hg₂ => ?_⟩
    rw [List.mem_singleton.1 hg₂]
    exact hfree g₁ hg₁

theorem createApplication (h : s.Consistent) {a : Application} (ha : AreClientIds a.clientIds)
    (hstored : s.createApplication a = .ok t) : t.Consistent := by
  obtain ⟨applications, clients, hadd, hclients, rfl⟩ := createApplication_ok hstored
  have happlications := (Table.add?_eq_some.1 hadd).2
  have hhas : ∀ uuid, HasApplication { s with applications, clients } uuid ↔
      s.HasApplication uuid ∨ uuid = a.uuid := by
    intro uuid
    simp [HasApplication, happlications]
  constructor
  · intro uuid huuid
    rw [hclients]
    rcases (hhas uuid).1 huuid with huuid | rfl
    · obtain ⟨row, hrow, happlication⟩ := h.identified uuid huuid
      exact ⟨row, List.mem_append_left _ hrow, happlication⟩
    · obtain ⟨clientId, hmem⟩ := ha.some
      exact ⟨_, List.mem_append_right _ (List.mem_map_of_mem hmem), rfl⟩
  · rw [hclients]
    exact List.forall_mem_append.2 ⟨h.proper, List.forall_mem_map.2 ha.all⟩
  · rw [hclients]
    refine List.forall_mem_append.2 ⟨fun row hrow => ?_, List.forall_mem_map.2 fun _ _ => ?_⟩
    · exact (hhas _).2 (.inl (h.clients row hrow))
    · exact (hhas _).2 (.inr rfl)
  · exact fun g hg => (hhas _).2 (.inl (h.grants g hg))
  · exact fun g hg => (hhas _).2 (.inl (h.catalogGrants g hg))
  · exact h.targets

theorem updateApplication (h : s.Consistent) {a : Application} (ha : AreClientIds a.clientIds)
    (hfound : s.HasApplication a.uuid) (hstored : s.updateApplication a = .ok t) :
    t.Consistent := by
  obtain ⟨clients, hclients, rfl⟩ := updateApplication_ok hstored
  have hhas : ∀ uuid, HasApplication { s with
      applications := s.applications.replace ⟨a.uuid, a.label, a.hasAllPermissions⟩
      clients } uuid ↔ s.HasApplication uuid := by
    intro uuid
    rw [HasApplication, HasApplication, Table.replace, Table.map_key_instead]
  constructor
  · intro uuid huuid
    rw [hclients]
    by_cases hne : uuid = a.uuid
    · subst hne
      obtain ⟨clientId, hmem⟩ := ha.some
      exact ⟨_, List.mem_append_right _ (List.mem_map_of_mem hmem), rfl⟩
    · obtain ⟨row, hrow, rfl⟩ := h.identified uuid ((hhas uuid).1 huuid)
      have hkept : decide (row.application ≠ a.uuid) = true := decide_eq_true hne
      exact ⟨row, List.mem_append_left _ (List.mem_filter.2 ⟨hrow, hkept⟩), rfl⟩
  · rw [hclients]
    refine List.forall_mem_append.2 ⟨fun row hrow => ?_, List.forall_mem_map.2 ha.all⟩
    exact h.proper row (List.mem_filter.1 hrow).1
  · rw [hclients]
    refine List.forall_mem_append.2 ⟨fun row hrow => ?_, List.forall_mem_map.2 fun _ _ => ?_⟩
    · exact (hhas _).2 (h.clients row (List.mem_filter.1 hrow).1)
    · exact (hhas _).2 hfound
  · exact fun g hg => (hhas _).2 (h.grants g hg)
  · exact fun g hg => (hhas _).2 (h.catalogGrants g hg)
  · exact h.targets

/-- Whatever belonged to the application goes with it. -/
theorem deleteApplication (h : s.Consistent) (uuid : String) :
    (s.deleteApplication uuid).Consistent := by
  have hhas : ∀ other, (s.deleteApplication uuid).HasApplication other ↔
      s.HasApplication other ∧ other ≠ uuid := by
    intro other
    simp only [HasApplication, Store.deleteApplication, Table.erase, Table.filter, List.mem_map,
      List.mem_filter, decide_eq_true_eq]
    constructor
    · rintro ⟨row, ⟨hrow, hne⟩, rfl⟩
      exact ⟨⟨row, hrow, rfl⟩, hne⟩
    · rintro ⟨⟨row, hrow, rfl⟩, hne⟩
      exact ⟨row, ⟨hrow, hne⟩, rfl⟩
  constructor
  · intro other hother
    obtain ⟨hold, hne⟩ := (hhas other).1 hother
    obtain ⟨row, hrow, rfl⟩ := h.identified other hold
    exact ⟨row, List.mem_filter.2 ⟨hrow, decide_eq_true hne⟩, rfl⟩
  · exact fun row hrow => h.proper row (List.mem_filter.1 hrow).1
  · intro row hrow
    obtain ⟨hrow, hne⟩ := List.mem_filter.1 hrow
    exact (hhas _).2 ⟨h.clients row hrow, of_decide_eq_true hne⟩
  · intro g hg
    obtain ⟨hg, hne⟩ := List.mem_filter.1 hg
    exact (hhas _).2 ⟨h.grants g hg, of_decide_eq_true hne⟩
  · intro g hg
    obtain ⟨hg, hne⟩ := List.mem_filter.1 hg
    exact (hhas _).2 ⟨h.catalogGrants g hg, of_decide_eq_true hne⟩
  · exact h.targets.filter _

end Consistent

end Store

/-! ## What an input asks for -/

theorem clientIdRefusals_eq_nil {ids : List String} (h : clientIdRefusals ids = []) :
    AreClientIds (readClientIds ids) := by
  obtain ⟨hsome, hblank⟩ := List.append_eq_nil_iff.1 h
  have hne : ids ≠ [] := by
    rintro rfl
    cases hsome
  have hall : ∀ text ∈ ids, trimmed text ≠ "" := by
    intro text htext hempty
    rw [if_pos (List.any_eq_true.2 ⟨text, htext, decide_eq_true hempty⟩)] at hblank
    cases hblank
  constructor
  · obtain ⟨text, htext⟩ := List.exists_mem_of_ne_nil ids hne
    exact ⟨trimmed text, SortedSet.mem_ofList.2 (List.mem_map_of_mem htext)⟩
  · intro clientId hmem
    obtain ⟨text, htext, rfl⟩ := List.mem_map.1 (SortedSet.mem_ofList.1 hmem)
    exact ⟨trimmed_trimmed text, hall text htext⟩

theorem ApplicationBody.areClientIds_of_read {bases : LocalBases} {body : ApplicationBody}
    {input : ApplicationInput} (h : body.read bases = .ok input) :
    AreClientIds input.clientIds := by
  obtain ⟨_, hparams, h⟩ := except_of_bind_ok h
  have hrefusals := ApiError.ofParams_eq_ok.1 hparams
  simp only [List.append_assoc, List.append_eq_nil_iff] at hrefusals
  cases h
  exact clientIdRefusals_eq_nil hrefusals.1

theorem ApplicationPatch.areClientIds_of_read {bases : LocalBases} {change : ApplicationPatch}
    {current : Application} {input : ApplicationInput}
    (h : change.read bases current = .ok input) (hcurrent : AreClientIds current.clientIds) :
    AreClientIds input.clientIds := by
  obtain ⟨_, hparams, h⟩ := except_of_bind_ok h
  have hrefusals := ApiError.ofParams_eq_ok.1 hparams
  simp only [List.append_assoc, List.append_eq_nil_iff] at hrefusals
  cases h
  cases hids : change.clientIds with
  | none => exact hcurrent
  | some ids =>
      rw [hids] at hrefusals
      exact clientIdRefusals_eq_nil hrefusals.1

/-! ## Runs -/

open Store (Consistent)

theorem Store.Updates.consistent {s t : Store} {uuid : String} {input : ApplicationInput}
    (h : s.Updates uuid input t) (hs : s.Consistent) (hids : AreClientIds input.clientIds) :
    t.Consistent := by
  have hhas := Store.hasApplication_iff.2 h.found
  have hstill : (s.regrant uuid input.grants).HasApplication uuid := by
    obtain ⟨kept, keptOnCatalogs, hregrant⟩ := Store.regrant_eq s uuid input.grants
    rw [hregrant]
    exact hhas
  exact (hs.regrant hhas input.grants).updateApplication hids hstill h.stored

theorem AdministrationCommand.Writes.consistent {command : AdministrationCommand} {c : Context}
    {s t : Store} {named : List (String × Action)} (h : command.Writes c s t named)
    (hs : s.Consistent) : t.Consistent := by
  cases h with
  | @create uuid body input t read free stored =>
      have ht := hs.createApplication (ApplicationBody.areClientIds_of_read read) stored
      have hhas : t.HasApplication uuid := by
        obtain ⟨applications, clients, hadd, -, rfl⟩ := Store.createApplication_ok stored
        rw [Store.HasApplication, (Table.add?_eq_some.1 hadd).2]
        exact List.mem_map_of_mem (List.mem_append_right _ (List.mem_singleton.2 rfl))
      exact ht.addGrants hhas _
  | replace read stored => exact stored.consistent hs (ApplicationBody.areClientIds_of_read read)
  | patch found read stored =>
      exact stored.consistent hs
        (ApplicationPatch.areClientIds_of_read read (hs.areClientIds found))
  | delete found => exact hs.deleteApplication _
  | addGrant found => exact hs.createGrant (Store.hasApplication_iff.2 found)
  | revokeGrant found => exact hs.filterGrants _
  | addCatalogGrant found stored =>
      exact hs.createCatalogGrant (Store.hasApplication_iff.2 found) stored
  | revokeCatalogGrant found => exact hs.filterCatalogGrants _
  | registerTypes stored =>
      obtain ⟨types, rfl⟩ := stored.eq
      exact hs.of_sameGrants ⟨rfl, rfl, rfl, rfl⟩

/-- Applications and grants are the same before and after. -/
def Installation.KeepsApplications (i j : Installation) : Prop := i.store.SameGrants j.store

open Installation (KeepsApplications)

theorem Installation.LooksUp.keepsApplications {i j : Installation} (h : i.LooksUp j) :
    i.KeepsApplications j := by
  rw [Installation.KeepsApplications, h.store]
  exact i.store.sameGrants_self

/-- The stores differ in cases, statuses and results at most. -/
def Store.SameButCases (s t : Store) : Prop :=
  t = { s with cases := t.cases, statuses := t.statuses, results := t.results }

theorem Installation.LooksUp.sameButCases {i j : Installation} (h : i.LooksUp j) :
    i.store.SameButCases j.store := by
  rw [h.store]
  rfl

open Operation in
/-- A command on cases writes nothing else. -/
theorem caseCommand_sameButCases (command : CaseCommand) :
    Moves (fun i j => i.store.SameButCases j.store) command.run := by
  cases command with
  | create applications freshId input =>
      refine moves_forget ((createCase_quiet applications freshId input).moves
        (·.sameButCases) fun c i z j hop => ?_)
      obtain ⟨cases, -, hj, -⟩ := createCase_ok hop
      rw [hj]
      rfl
  | update applications id change =>
      refine moves_forget ((updateCase_quiet applications id change).moves
        (·.sameButCases) fun c i z j hop => ?_)
      obtain ⟨before, -, -, hj⟩ := updateCase_ok hop
      rw [hj]
      rfl
  | recordStatus applications id statusType setAt =>
      refine moves_forget ((recordStatus_quiet applications id statusType setAt).moves
        (·.sameButCases) fun c i r j hop => ?_)
      obtain ⟨before, t, type, plan, s, _, _, -, -, -, -, -, hcreate, hj⟩ := recordStatus_ok hop
      obtain ⟨rfl, -⟩ := Store.createStatus_ok hcreate
      obtain ⟨cases, hcases⟩ := Store.foldl_updateCase_eq plan.subCases _
      rw [hj, hcases]
      rfl
  | setResult applications id resultType =>
      refine moves_forget ((setResult_quiet applications id resultType).moves
        (·.sameButCases) fun c i r j hop => ?_)
      obtain ⟨before, -, -, hj⟩ := setResult_ok hop
      rw [hj]
      rfl
  | attach applications id attachment =>
      exact (authorizeAttachment_steady applications id attachment).looksUp.mono
        fun _ _ => Installation.LooksUp.sameButCases

theorem caseCommand_keepsApplications (command : CaseCommand) :
    Operation.Moves KeepsApplications command.run := by
  refine (caseCommand_sameButCases command).mono fun i j h => ?_
  rw [KeepsApplications, h]
  exact ⟨rfl, rfl, rfl, rfl⟩

theorem step_consistent {i j : Installation} (h : Step i j) (hi : i.store.Consistent) :
    j.store.Consistent := by
  cases h with
  | onCases command c => exact hi.of_sameGrants (caseCommand_keepsApplications command c i)
  | administration command c =>
      rcases hrun : command.run c i with ⟨e | _, j⟩
      · obtain ⟨g, rfl⟩ := (administration_atomic command).of_error hrun
        exact hi
      · obtain ⟨t, named, hwrites, rfl, -⟩ := AdministrationCommand.writes_of hrun
        exact hwrites.consistent hi

/-- The secrets that a start stores are of no table that is spoken of. -/
theorem consistent_start (config : ServerConfig) {s : Store} (h : s.Consistent) :
    (Installation.start config s).store.Consistent := by
  obtain ⟨kept, hkept⟩ := seed_eq s config.authn.secrets
  rw [Installation.start, hkept]
  exact h.of_sameGrants ⟨rfl, rfl, rfl, rfl⟩

theorem Reachable.consistent {i : Installation} (h : Reachable i) : i.store.Consistent := by
  induction h with
  | start config => exact consistent_start config (.of_empty rfl rfl rfl rfl)
  | restart config _ ih => exact consistent_start config ih
  | step _ hstep ih => exact step_consistent hstep ih
  | lookup _ hm c ih => exact ih.of_sameGrants (hm.looksUp c _).keepsApplications

end CaseAccess
