import CaseAccess.Proofs.Exclusivity
import CaseAccess.Proofs.ViewReading

/-!
# Applications that are only written as a whole

An application may be written by bodies and patches alone: its grants are never added or
revoked one at a time, and always read with the same bases. Then all that is stored of it
has passed a check once. Its label is not blank, each of its grants is one that was read,
none of them is on a catalog, and it has grants just if it does not have every permission.

This is an invariant of the application under such commands. A patch keeps what it does not
give, so what was checked has to be known of it before.
-/

namespace CaseAccess

open Operation Administration

/-- What is stored of an application, if it is there, was read from bodies and patches. -/
structure Store.HoldsWritten (s : Store) (bases : LocalBases) (uuid : String) : Prop where
  label : ∀ a, s.application? uuid = some a → labelRefusals a.label = []
  grants : ∀ g ∈ s.listGrants uuid, g.IsWritten bases
  onCatalogs : s.listCatalogGrants uuid = []
  exclusive : s.Exclusive uuid

/-- The command writes the application as a whole or not at all, and reads it with these
bases. -/
def AdministrationCommand.WritesWhole (bases : LocalBases) (uuid : String)
    (command : AdministrationCommand) (c : Context) (i : Installation) : Prop :=
  match command with
  | .create other _ | .replace other _ | .patch other _ => other = uuid → c.bases = bases
  | .addGrant g => g.application ≠ uuid
  | .addCatalogGrant g => g.application ≠ uuid
  | .revokeGrant id => ∀ g, i.store.grant? id = some g → g.application ≠ uuid
  | .revokeCatalogGrant id => ∀ g, i.store.catalogGrant? id = some g → g.application ≠ uuid
  | .delete _ | .registerTypes _ => True

/-! ## What is read -/

/-- An input of which every part that is given has passed its check. -/
structure ApplicationInput.IsWritten (bases : LocalBases) (input : ApplicationInput) : Prop where
  label : labelRefusals input.label = []
  grants : ∀ grants, input.grants = some grants → ∀ g ∈ grants, g.IsWritten bases
  balanced : input.Balanced

section Reading

variable {bases : LocalBases}

theorem isWritten_of_mem_acceptedGrants {bodies : List GrantBody} {g : Grant}
    (h : g ∈ acceptedGrants (readGrants bases bodies)) : g.IsWritten bases := by
  obtain ⟨x, hx, hg⟩ := List.mem_filterMap.1 h
  obtain ⟨⟨body, place⟩, -, rfl⟩ := List.mem_map.1 hx
  have hread : body.read bases place = .ok g := by
    cases hbody : body.read bases place with
    | ok g' =>
        simp only [hbody] at hg
        exact congrArg Except.ok (Option.some.inj hg)
    | error refusals =>
        simp only [hbody] at hg
        cases hg
  exact GrantBody.isWritten_of_read hread

theorem ApplicationBody.isWritten_of_read {body : ApplicationBody} {input : ApplicationInput}
    (h : body.read bases = .ok input) : input.IsWritten bases := by
  have hbalanced := ApplicationBody.balanced_of_read h
  obtain ⟨-, hlabel, -, -, rfl⟩ := ApplicationBody.read_eq_ok.1 h
  refine ⟨hlabel, ?_, hbalanced⟩
  rintro _ ⟨⟩ g hg
  exact isWritten_of_mem_acceptedGrants hg

theorem ApplicationPatch.isWritten_of_read {change : ApplicationPatch} {current : Application}
    {input : ApplicationInput} (h : change.read bases current = .ok input)
    (hcurrent : labelRefusals current.label = []) : input.IsWritten bases := by
  have hbalanced := ApplicationPatch.balanced_of_read h
  obtain ⟨_, hparams, h⟩ := except_of_bind_ok h
  have hrefusals := ApiError.ofParams_eq_ok.1 hparams
  simp only [List.append_eq_nil_iff] at hrefusals
  obtain ⟨⟨⟨-, hlabel⟩, -⟩, -⟩ := hrefusals
  cases h
  refine ⟨?_, fun grants hgrants g hg => ?_, hbalanced⟩
  · show labelRefusals (change.label.getD current.label) = []
    cases hgiven : change.label with
    | none => exact hcurrent
    | some label =>
        rw [hgiven] at hlabel
        exact hlabel
  · obtain ⟨_, hread, rfl⟩ := Option.map_eq_some_iff.1 hgrants
    obtain ⟨bodies, -, rfl⟩ := Option.map_eq_some_iff.1 hread
    exact isWritten_of_mem_acceptedGrants hg

end Reading

/-! ## What is stored -/

section Stored

variable {bases : LocalBases} {uuid : String} {s t : Store} {input : ApplicationInput}

/-- Grants that are stored are as they were read. -/
theorem isWritten_of_unnumbered {stored grants : List Grant}
    (h : stored.map Grant.unnumbered = grants.map (·.heldBy uuid))
    (hgrants : ∀ g ∈ grants, g.IsWritten bases) : ∀ g ∈ stored, g.IsWritten bases := by
  intro g hg
  obtain ⟨g', hg', heq⟩ := List.mem_map.1 (h ▸ List.mem_map_of_mem hg)
  obtain ⟨hscopes, huntyped, htyped, hceiling⟩ := hgrants g' hg'
  cases g
  cases g'
  cases heq
  exact ⟨hscopes, huntyped, htyped, hceiling⟩

theorem Store.SamePermissions.holdsWritten (h : s.SamePermissions uuid t)
    (hs : s.HoldsWritten bases uuid) : t.HoldsWritten bases uuid where
  label := h.application ▸ hs.label
  grants := h.explicit ▸ hs.grants
  onCatalogs := h.onCatalogs ▸ hs.onCatalogs
  exclusive := h.exclusive_iff.2 hs.exclusive

theorem Store.Updates.holdsWritten (h : s.Updates uuid input t) (hinput : input.IsWritten bases)
    (hs : s.HoldsWritten bases uuid) : t.HoldsWritten bases uuid := by
  have hgranted : (∀ g ∈ t.listGrants uuid, g.IsWritten bases) ∧ t.listCatalogGrants uuid = [] := by
    cases hgrants : input.grants with
    | none =>
        obtain ⟨hexplicit, honCatalogs⟩ := h.listed uuid
        rw [hgrants, Store.regrant] at hexplicit honCatalogs
        exact ⟨hexplicit ▸ hs.grants, honCatalogs ▸ hs.onCatalogs⟩
    | some grants =>
        obtain ⟨hexplicit, honCatalogs⟩ := h.unnumbered hgrants
        exact ⟨isWritten_of_unnumbered hexplicit (hinput.grants grants hgrants), honCatalogs⟩
  refine ⟨fun a ha => ?_, hgranted.1, hgranted.2, h.exclusive hinput.balanced⟩
  rw [h.application] at ha
  cases ha
  exact hinput.label

theorem Store.holdsWritten_of_createApplication (hs : s.Consistent)
    (hinput : input.IsWritten bases) {grants : List Grant} (hgrants : input.grants = some grants)
    (hstored : s.createApplication (input.application uuid) = .ok t) :
    (t.addGrants uuid grants).HoldsWritten bases uuid := by
  obtain ⟨hfound, hexplicit, honCatalogs⟩ := created_of_createApplication hs hstored grants
  refine ⟨fun a ha => ?_, ?_, honCatalogs,
    exclusive_of_createApplication hs hinput.balanced hgrants hstored⟩
  · have happlication : a = input.application uuid := Option.some.inj (ha.symm.trans hfound)
    rw [happlication]
    exact hinput.label
  · exact isWritten_of_unnumbered hexplicit (hinput.grants grants hgrants)

theorem Store.holdsWritten_of_none (happlication : t.application? uuid = none)
    (hgrants : t.listGrants uuid = []) (honCatalogs : t.listCatalogGrants uuid = []) :
    t.HoldsWritten bases uuid := by
  refine ⟨fun a ha => ?_, fun g hg => ?_, honCatalogs, exclusive_of_none happlication⟩
  · rw [happlication] at ha
    cases ha
  · rw [hgrants] at hg
    cases hg

end Stored

/-! ## Histories -/

namespace AdministrationCommand

variable {bases : LocalBases} {uuid : String} {command : AdministrationCommand} {c : Context}
  {i : Installation} {t : Store} {named : List (String × Action)}

/-- One command keeps it. -/
theorem Writes.holdsWritten (h : command.Writes c i.store t named)
    (hwhole : command.WritesWhole bases uuid c i) (hi : i.store.Consistent)
    (hgrants : i.store.grants.Ascending Grant.id)
    (hcatalogGrants : i.store.catalogGrants.Ascending CatalogGrant.id)
    (hs : i.store.HoldsWritten bases uuid) : t.HoldsWritten bases uuid := by
  by_cases hnamed : uuid ∈ named.map (·.1)
  swap
  · exact (h.samePermissions hgrants hcatalogGrants hnamed).holdsWritten hs
  cases h with
  | @create other body input t read free stored =>
      obtain rfl : uuid = other := by simpa using hnamed
      rw [hwhole rfl] at read
      obtain ⟨-, -, -, -, hinput⟩ := ApplicationBody.read_eq_ok.1 read
      have hgiven := congrArg ApplicationInput.grants hinput
      rw [hgiven]
      exact Store.holdsWritten_of_createApplication hi (ApplicationBody.isWritten_of_read read)
        hgiven stored
  | @replace other body input t read stored =>
      obtain rfl : uuid = other := by simpa using hnamed
      rw [hwhole rfl] at read
      exact stored.holdsWritten (ApplicationBody.isWritten_of_read read) hs
  | @patch other change current input t found read stored =>
      obtain rfl : uuid = other := by simpa using hnamed
      rw [hwhole rfl] at read
      exact stored.holdsWritten (ApplicationPatch.isWritten_of_read read (hs.label _ found)) hs
  | @delete other found =>
      obtain rfl : uuid = other := by simpa using hnamed
      exact Store.holdsWritten_of_none (Store.application?_deleteApplication_self i.store uuid)
        (Store.listGrants_deleteApplicationGrants i.store uuid)
        (Store.listCatalogGrants_deleteApplicationCatalogGrants i.store uuid)
  | registerTypes stored =>
      obtain ⟨types, rfl⟩ := stored.eq
      exact ⟨hs.label, hs.grants, hs.onCatalogs, hs.exclusive⟩
  -- The commands on one grant name its application, which is another one.
  | addGrant found => exact absurd (by simpa [eq_comm] using hnamed) hwhole
  | addCatalogGrant found stored => exact absurd (by simpa [eq_comm] using hnamed) hwhole
  | revokeGrant found => exact absurd (by simpa [eq_comm] using hnamed) (hwhole _ found)
  | revokeCatalogGrant found => exact absurd (by simpa [eq_comm] using hnamed) (hwhole _ found)

end AdministrationCommand

/-- In every history in which the application is only written as a whole. -/
theorem ReachableBy.holdsWritten {bases : LocalBases} {uuid : String} {i : Installation}
    (h : ReachableBy (AdministrationCommand.WritesWhole bases uuid) i) :
    i.store.HoldsWritten bases uuid := by
  refine h.store_induction (P := fun s => s.HoldsWritten bases uuid)
    (Store.holdsWritten_of_none rfl rfl rfl) ?_ ?_
  · intro s t hsame _ hs
    obtain ⟨hgrants, honCatalogs⟩ := hsame.listed_eq uuid
    have happlication := hsame.application?_eq uuid
    exact ⟨happlication ▸ hs.label, hgrants ▸ hs.grants, honCatalogs ▸ hs.onCatalogs,
      (Store.Exclusive.congr happlication (hsame.hasGrants_eq uuid)).2 hs.exclusive⟩
  · intro command c j t named hj hwhole hwrites hs
    have hcoherent := hj.reachable.coherent
    exact hwrites.holdsWritten hwhole hj.reachable.consistent hcoherent.grants
      hcoherent.catalogGrants hs

end CaseAccess
