import CaseAccess.Proofs.WrittenBack

/-!
# Replacing and patching applications

A body replaces an application, and a patch changes some of it. Both go one way: they are
read as an input, and the input is written over what is there. What comes of it can be
said once, because a body is a patch that leaves nothing out.

Each member of the application is the one that is given, or the one that was there. If
grants are given the application holds just these, in their order, and nothing on catalogs;
if not, its grants are the same rows as before. Nothing else in the store changes.

An application that was replaced can be replaced by the same body again, since its
identifiers are then its own. Its grants get other numbers, which no view shows.
-/

namespace CaseAccess

open Operation Administration

/-! ## What is submitted -/

/-- A body, as a patch that leaves nothing out. -/
def ApplicationBody.asPatch (body : ApplicationBody) : ApplicationPatch :=
  ⟨some body.clientIds, some body.label, some body.hasAllPermissions, some body.grants⟩

theorem ApplicationBody.read_asPatch (body : ApplicationBody) (bases : LocalBases)
    (current : Application) : body.asPatch.read bases current = body.read bases := rfl

/-- The application after a patch. -/
def ApplicationPatch.applied (change : ApplicationPatch) (a : Application) : Application where
  uuid := a.uuid
  label := change.label.getD a.label
  clientIds := (change.clientIds.map readClientIds).getD a.clientIds
  hasAllPermissions := change.hasAllPermissions.getD a.hasAllPermissions

/-- The grant that a body asks for. -/
structure GrantBody.Describes (bases : LocalBases) (body : GrantBody) (g : Grant) : Prop where
  component : body.component = g.component.name
  scopes : ∀ scope, scope ∈ g.scopes ↔ scope ∈ body.scopes
  untyped : g.component.typeField? = none → g.typeRef = none
  typed : ∀ field, g.component.typeField? = some field →
    ∃ text r, body.typeText? field = some text ∧ bases.read text = .ok r ∧ g.typeRef = some r
  ceiling : body.ceiling = g.ceiling.map (·.name)

/-- What a patch of an application makes of a store. -/
structure Store.Revised (s : Store) (bases : LocalBases) (uuid : String)
    (change : ApplicationPatch) (t : Store) : Prop where
  application : ∃ a, s.application? uuid = some a ∧ t.application? uuid = some (change.applied a)
  /-- Grants that are given are held in their order, and nothing else is. -/
  granted : ∀ bodies, change.grants = some bodies →
    List.Forall₂ (GrantBody.Describes bases) bodies (t.listGrants uuid) ∧
      t.listCatalogGrants uuid = []
  /-- Otherwise the grants are the same rows, with the same numbers. -/
  kept : change.grants = none →
    t.listGrants uuid = s.listGrants uuid ∧ t.listCatalogGrants uuid = s.listCatalogGrants uuid
  others : ∀ other ≠ uuid, t.application? other = s.application? other ∧
    t.listGrants other = s.listGrants other ∧ t.listCatalogGrants other = s.listCatalogGrants other
  otherwise : t = { s with
    applications := t.applications
    clients := t.clients
    grants := t.grants
    catalogGrants := t.catalogGrants }

/-! ## What is read of it -/

section Reading

variable {bases : LocalBases}

theorem GrantBody.describes_of_read {body : GrantBody} {place : Nat} {g : Grant}
    (h : body.read bases place = .ok g) : body.Describes bases g := by
  obtain ⟨path, hcomponent, hscopes, htype, hceiling⟩ := read_ok h
  obtain ⟨-, hscopes⟩ := readScopes_ok hscopes
  refine ⟨hcomponent, fun scope => ?_, fun huntyped => readType_untyped huntyped htype,
    fun field hfield => readType_ok hfield htype, (readCeiling_ok hceiling).1⟩
  rw [hscopes]
  exact SortedSet.mem_ofList

/-- Each grant of a list is described at its place. -/
theorem describes_acceptedGrants {bodies : List GrantBody}
    (h : grantRefusals (readGrants bases bodies) = []) :
    List.Forall₂ (GrantBody.Describes bases) bodies (acceptedGrants (readGrants bases bodies)) := by
  have hread : List.Forall₂ (· = ·) (readGrants bases bodies)
      ((acceptedGrants (readGrants bases bodies)).map .ok) := by
    rw [List.forall₂_eq_eq_eq]
    exact readGrants_eq h
  generalize acceptedGrants (readGrants bases bodies) = grants at hread ⊢
  rw [readGrants, List.forall₂_map_left_iff, List.forall₂_map_right_iff] at hread
  have hplaced : bodies.zipIdx.map Prod.fst = bodies := List.zipIdx_map_fst 0 bodies
  rw [← hplaced, List.forall₂_map_left_iff]
  exact hread.imp fun _ _ => GrantBody.describes_of_read

/-- An input that was read is the patch applied, with the grants that are given. -/
theorem ApplicationPatch.of_read {change : ApplicationPatch} {current : Application}
    {input : ApplicationInput} (h : change.read bases current = .ok input) :
    input.application current.uuid = change.applied current ∧
      (∀ bodies, change.grants = some bodies → ∃ grants, input.grants = some grants ∧
        List.Forall₂ (GrantBody.Describes bases) bodies grants) ∧
      (change.grants = none → input.grants = none) := by
  obtain ⟨_, hparams, h⟩ := except_of_bind_ok h
  have hrefusals := ApiError.ofParams_eq_ok.1 hparams
  simp only [List.append_eq_nil_iff] at hrefusals
  obtain ⟨-, hgrants⟩ := hrefusals
  cases h
  refine ⟨rfl, fun bodies hgiven => ?_, fun hnone => ?_⟩
  · rw [hgiven] at hgrants ⊢
    exact ⟨_, rfl, describes_acceptedGrants hgrants⟩
  · rw [hnone]
    rfl

end Reading

/-! ## What is written -/

section Writing

variable {bases : LocalBases} {uuid : String} {s t : Store} {input : ApplicationInput}
  {c : Context} {i j : Installation}

/-- Grants that are stored are described as they were before they had numbers. -/
theorem describes_of_unnumbered {bodies : List GrantBody} {grants stored : List Grant}
    (h : List.Forall₂ (GrantBody.Describes bases) bodies grants)
    (hstored : stored.map Grant.unnumbered = grants.map (·.heldBy uuid)) :
    List.Forall₂ (GrantBody.Describes bases) bodies stored := by
  have hheld : List.Forall₂ (GrantBody.Describes bases) bodies (grants.map (·.heldBy uuid)) := by
    rw [List.forall₂_map_right_iff]
    exact h.imp fun _ _ hg => ⟨hg.component, hg.scopes, hg.untyped, hg.typed, hg.ceiling⟩
  rw [← hstored, List.forall₂_map_right_iff] at hheld
  exact hheld.imp fun _ _ hg => ⟨hg.component, hg.scopes, hg.untyped, hg.typed, hg.ceiling⟩

theorem Store.Updates.revised {change : ApplicationPatch} {current : Application}
    (h : s.Updates uuid input t) (hcurrent : s.application? uuid = some current)
    (hread : change.read bases current = .ok input) : s.Revised bases uuid change t := by
  obtain ⟨happlied, hgiven, hkept⟩ := ApplicationPatch.of_read hread
  have huuid : current.uuid = uuid := Store.uuid_of_application? hcurrent
  rw [huuid] at happlied
  refine ⟨⟨current, hcurrent, happlied ▸ h.application⟩, fun bodies hbodies => ?_, fun hnone => ?_,
    fun other hother => ?_, ?_⟩
  · obtain ⟨grants, hgrants, hdescribed⟩ := hgiven bodies hbodies
    obtain ⟨hexplicit, honCatalogs⟩ := h.unnumbered hgrants
    exact ⟨describes_of_unnumbered hdescribed hexplicit, honCatalogs⟩
  · have hlisted := h.listed uuid
    rwa [hkept hnone] at hlisted
  · have hsame := h.samePermissions hother
    exact ⟨hsame.application, hsame.explicit, hsame.onCatalogs⟩
  · obtain ⟨clients, -, ht⟩ := Store.updateApplication_ok h.stored
    obtain ⟨kept, keptOnCatalogs, hregrant⟩ := Store.regrant_eq s uuid input.grants
    rw [ht, hregrant]

/-- Two updates by one input that gives grants show the same. -/
theorem Store.Updates.view_eq {s' t' : Store} (h : s.Updates uuid input t)
    (h' : s'.Updates uuid input t') {grants : List Grant} (hgrants : input.grants = some grants)
    (base : String) :
    t'.view base (input.application uuid) = t.view base (input.application uuid) := by
  obtain ⟨hexplicit, honCatalogs⟩ := h.unnumbered hgrants
  obtain ⟨hexplicit', honCatalogs'⟩ := h'.unnumbered hgrants
  have hshown : (t'.listGrants uuid).map (·.view base) = (t.listGrants uuid).map (·.view base) :=
    (map_view_of_unnumbered hexplicit').trans (map_view_of_unnumbered hexplicit).symm
  have huuid : (input.application uuid).uuid = uuid := rfl
  simp only [Store.view, huuid, hshown, honCatalogs, honCatalogs', List.flatMap_nil]

/-- What was replaced is replaced by the same body again, whenever that is. -/
theorem replaceApplication_again {body : ApplicationBody} {view : ApplicationView}
    (hj : j.store.Consistent) (h : replaceApplication uuid body c i = (.ok view, j))
    {d : Context} (hbases : d.bases = c.bases)
    (hbase : d.settings.publicBaseUrl = c.settings.publicBaseUrl) :
    ∃ k, replaceApplication uuid body d j = (.ok view, k) := by
  obtain ⟨input, hread, hrun⟩ := replaceApplication_ok.1 h
  obtain ⟨-, -, -, -, hinput⟩ := ApplicationBody.read_eq_ok.1 hread
  have hgrants := congrArg ApplicationInput.grants hinput
  obtain ⟨t, hupdates, hchanges, rfl⟩ := update_ok hrun
  have happlication : j.store.application? uuid = some (input.application uuid) := by
    rw [hchanges.store]
    exact hupdates.application
  have hends : EndsWell d j (update uuid input) := by
    refine exists_update (by rw [happlication]; rfl) (hj.ownerRefusals_own happlication) ?_
    intro hnone
    rw [hgrants] at hnone
    cases hnone
  obtain ⟨view', k, hagain⟩ := hends
  obtain ⟨t', hupdates', -, rfl⟩ := update_ok hagain
  rw [hbase, hupdates.view_eq hupdates' hgrants] at hagain
  exact ⟨k, replaceApplication_ok.2 ⟨input, hbases ▸ hread, hagain⟩⟩

end Writing

/-- In every installation that can be found running, an application that is replaced or
patched becomes what is submitted and nothing else changes; and replacing it by the same
body again goes through, with the same answer. -/
theorem replace_and_patch_revise {i : Installation} (h : Reachable i) {uuid : String}
    {c : Context} {view : ApplicationView} {j : Installation} :
    (∀ body, replaceApplication uuid body c i = (.ok view, j) →
      i.store.Revised c.bases uuid body.asPatch j.store ∧
        ∀ d : Context, d.bases = c.bases →
          d.settings.publicBaseUrl = c.settings.publicBaseUrl →
            ∃ k, replaceApplication uuid body d j = (.ok view, k)) ∧
    ∀ change, patchApplication uuid change c i = (.ok view, j) →
      i.store.Revised c.bases uuid change j.store := by
  refine ⟨fun body hreplace => ⟨?_, fun d hbases hbase => ?_⟩, fun change hpatch => ?_⟩
  · obtain ⟨input, hread, hrun⟩ := replaceApplication_ok.1 hreplace
    obtain ⟨t, hupdates, hchanges, -⟩ := update_ok hrun
    obtain ⟨current, hcurrent⟩ := Option.isSome_iff_exists.1 hupdates.found
    rw [hchanges.store]
    exact hupdates.revised hcurrent (body.read_asPatch c.bases current ▸ hread)
  · exact replaceApplication_again (h.replaced hreplace).consistent hreplace hbases hbase
  · obtain ⟨current, input, hcurrent, hread, hrun⟩ := patchApplication_ok hpatch
    obtain ⟨t, hupdates, hchanges, -⟩ := update_ok hrun
    rw [hchanges.store]
    exact hupdates.revised hcurrent hread

/-- Another body for the bureau, which writes a client identifier with blanks around it. -/
def bureauBody : ApplicationBody where
  clientIds := [" clerk ", "usher"]
  label := "Front desk"
  grants := [
    { component := "ac", scopes := ["autorisaties.lezen"] },
    { component := "zrc"
      scopes := ["zaken.lezen", "zaken.bijwerken"]
      types := { zaaktype := some "permit" }
      ceiling := some "intern" }]

/-- The bureau becomes what the body says, and a day later the same body changes nothing
that is shown. -/
theorem bureau_revised :
    ∃ view j, replaceApplication "bureau" bureauBody .bare (bureau "permit") = (.ok view, j) ∧
      j.store.application? "bureau" = some ⟨"bureau", "Front desk",
        SortedSet.ofList ["clerk", "usher"], false⟩ ∧
      ∃ k, replaceApplication "bureau" bureauBody { Context.bare with now := dayLater } j =
        (.ok view, k) := by
  have hok : (replaceApplication "bureau" bureauBody .bare (bureau "permit")).1.isOk = true := by
    decide +kernel
  rcases hrun : replaceApplication "bureau" bureauBody .bare (bureau "permit") with ⟨answer, j⟩
  rw [hrun] at hok
  cases answer with
  | error e => cases hok
  | ok view =>
      obtain ⟨hrevised, hagain⟩ :=
        (replace_and_patch_revise (bureau_writtenWhole "permit").reachable).1 _ hrun
      obtain ⟨a, ha, hafter⟩ := hrevised.application
      rw [ApplicationPatch.applied, Store.uuid_of_application? ha] at hafter
      exact ⟨view, j, rfl, hafter, hagain _ rfl rfl⟩

end CaseAccess
