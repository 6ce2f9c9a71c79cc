import CaseAccess.Proofs.NoServerFault

/-!
# What an application holds after it was written

A command that makes an application what an input says is followed here down to the rows:
the application is the one that the input describes, its grants are those of the input,
and it has no catalog grants any more. Grants get new numbers when they are written, so
they are compared without them.

Read the other way, the same lemmas say when such a command goes through. The client
identifiers of an application are never in its own way, and no table refuses the row.
-/

namespace CaseAccess

open Operation Administration

/-- A grant without its number. -/
def Grant.unnumbered (g : Grant) : Grant := { g with id := 0 }

/-- A grant without its number, held by an application. -/
def Grant.heldBy (g : Grant) (uuid : String) : Grant := { g with id := 0, application := uuid }

/-! ## Reading a body -/

/-- Some part of a grant that cannot be read is named. -/
theorem GrantBody.read_ne_error_nil (bases : LocalBases) (place : Nat) (body : GrantBody) :
    body.read bases place ≠ .error [] := by
  intro h
  simp only [GrantBody.read] at h
  split at h
  · cases h
  · split at h
    · cases h
    · next scopes typeRef ceiling hall =>
      simp only [Except.error.injEq, List.append_eq_nil_iff] at h
      obtain ⟨⟨hscopes, htype⟩, hceiling⟩ := h
      have hok : ∀ {α : Type} (x : Except InvalidParam α), refusal x = [] → ∃ a, x = .ok a := by
        intro α x hx
        cases x with
        | ok a => exact ⟨a, rfl⟩
        | error p => cases hx
      obtain ⟨a, ha⟩ := hok _ hscopes
      obtain ⟨b, hb⟩ := hok _ htype
      obtain ⟨d, hd⟩ := hok _ hceiling
      exact hall a b d ha hb hd

/-- Where nothing is refused every grant was read. -/
theorem readGrants_eq {bases : LocalBases} {bodies : List GrantBody}
    (h : grantRefusals (readGrants bases bodies) = []) :
    readGrants bases bodies = (acceptedGrants (readGrants bases bodies)).map .ok := by
  have hread : ∀ x ∈ readGrants bases bodies, ∃ g, x = .ok g := by
    intro x hx
    have hnone := List.flatMap_eq_nil_iff.1 h x hx
    obtain ⟨⟨body, place⟩, -, rfl⟩ := List.mem_map.1 hx
    cases hbody : body.read bases place with
    | ok g => exact ⟨g, hbody⟩
    | error ps =>
        simp only [hbody] at hnone
        rw [hnone] at hbody
        exact absurd hbody (body.read_ne_error_nil bases place)
  generalize readGrants bases bodies = l at hread
  induction l with
  | nil => rfl
  | cons x rest ih =>
      obtain ⟨g, rfl⟩ := hread x List.mem_cons_self
      have hrest := ih fun y hy => hread y (List.mem_cons_of_mem _ hy)
      show _ = (g :: acceptedGrants rest).map Except.ok
      rw [List.map_cons, ← hrest]

theorem length_acceptedGrants {bases : LocalBases} {bodies : List GrantBody}
    (h : grantRefusals (readGrants bases bodies) = []) :
    (acceptedGrants (readGrants bases bodies)).length = bodies.length := by
  have hlength := congrArg List.length (readGrants_eq h)
  rw [readGrants, List.length_map, List.length_map, List.length_zipIdx] at hlength
  exact hlength.symm

theorem exclusivityRefusals_eq_nil {flag grants : Bool} :
    exclusivityRefusals flag grants = [] ↔ (flag = true ↔ grants = false) := by
  cases flag <;> cases grants <;> simp [exclusivityRefusals]

theorem labelRefusals_eq_nil {label : String} :
    labelRefusals label = [] ↔ trimmed label ≠ "" := by
  rw [labelRefusals]
  split
  · next hblank => simp [hblank]
  · next hblank => simp [hblank]

/-- A body is read if none of its fields is refused. -/
theorem ApplicationBody.read_eq_ok {bases : LocalBases} {body : ApplicationBody}
    {input : ApplicationInput} :
    body.read bases = .ok input ↔
      clientIdRefusals body.clientIds = [] ∧ labelRefusals body.label = [] ∧
      (body.hasAllPermissions = true ↔ body.grants = []) ∧
      grantRefusals (readGrants bases body.grants) = [] ∧
      input = ⟨readClientIds body.clientIds, body.label, body.hasAllPermissions,
        some (acceptedGrants (readGrants bases body.grants))⟩ := by
  have hexclusive : exclusivityRefusals body.hasAllPermissions (!body.grants.isEmpty) = [] ↔
      (body.hasAllPermissions = true ↔ body.grants = []) := by
    rw [exclusivityRefusals_eq_nil, Bool.not_eq_false', List.isEmpty_iff]
  constructor
  · intro h
    obtain ⟨_, hparams, h⟩ := except_of_bind_ok h
    have hrefusals := ApiError.ofParams_eq_ok.1 hparams
    simp only [List.append_assoc, List.append_eq_nil_iff] at hrefusals
    obtain ⟨hids, hlabel, hboth, hgrants⟩ := hrefusals
    cases h
    exact ⟨hids, hlabel, hexclusive.1 hboth, hgrants, rfl⟩
  · rintro ⟨hids, hlabel, hboth, hgrants, rfl⟩
    rw [ApplicationBody.read, hids, hlabel, hexclusive.2 hboth, hgrants]
    rfl

namespace Store

variable {s t : Store} {uuid : String}

theorem hasGrants_eq_false :
    s.hasGrants uuid = false ↔ s.listGrants uuid = [] ∧ s.listCatalogGrants uuid = [] := by
  simp [hasGrants]

theorem hasGrants_congr (hgrants : t.listGrants uuid = s.listGrants uuid)
    (hcatalogGrants : t.listCatalogGrants uuid = s.listCatalogGrants uuid) :
    t.hasGrants uuid = s.hasGrants uuid := by
  rw [hasGrants, hasGrants, hgrants, hcatalogGrants]

/-! ## Grants that are written -/

theorem listGrants_createGrant (g : Grant) :
    (s.createGrant g).2.listGrants g.application =
      s.listGrants g.application ++ [{ g with id := s.grants.next }] := by
  simp [createGrant, listGrants, Numbered.add]

theorem listCatalogGrants_addGrants (s : Store) (uuid : String) (grants : List Grant)
    (other : String) :
    (s.addGrants uuid grants).listCatalogGrants other = s.listCatalogGrants other := by
  induction grants generalizing s with
  | nil => rfl
  | cons g rest ih => exact ih (s.createGrant { g with application := uuid }).2

/-- The grants of an application after more of them are added. -/
theorem unnumbered_addGrants (s : Store) (uuid : String) (grants : List Grant) :
    ((s.addGrants uuid grants).listGrants uuid).map Grant.unnumbered =
      (s.listGrants uuid).map Grant.unnumbered ++ grants.map (·.heldBy uuid) := by
  induction grants generalizing s with
  | nil => exact (List.append_nil _).symm
  | cons g rest ih =>
      have hfirst : (s.createGrant { g with application := uuid }).2.listGrants uuid =
          s.listGrants uuid ++ [{ g with id := s.grants.next, application := uuid }] :=
        listGrants_createGrant { g with application := uuid }
      have hrest := ih (s.createGrant { g with application := uuid }).2
      rw [hfirst, List.map_append, List.append_assoc] at hrest
      exact hrest

theorem listGrants_deleteApplicationGrants (s : Store) (uuid : String) :
    (s.deleteApplicationGrants uuid).listGrants uuid = [] := by
  simp [listGrants, deleteApplicationGrants, Numbered.filter]

theorem listCatalogGrants_deleteApplicationCatalogGrants (s : Store) (uuid : String) :
    (s.deleteApplicationCatalogGrants uuid).listCatalogGrants uuid = [] := by
  simp [listCatalogGrants, deleteApplicationCatalogGrants, Numbered.filter]

theorem unnumbered_regrant (s : Store) (uuid : String) (grants : List Grant) :
    ((s.regrant uuid (some grants)).listGrants uuid).map Grant.unnumbered =
      grants.map (·.heldBy uuid) := by
  have hnone : ((s.deleteApplicationGrants uuid).deleteApplicationCatalogGrants uuid).listGrants
      uuid = [] := listGrants_deleteApplicationGrants s uuid
  rw [regrant, unnumbered_addGrants, hnone]
  rfl

theorem listCatalogGrants_regrant (s : Store) (uuid : String) (grants : List Grant) :
    (s.regrant uuid (some grants)).listCatalogGrants uuid = [] := by
  rw [regrant, listCatalogGrants_addGrants]
  exact listCatalogGrants_deleteApplicationCatalogGrants _ uuid

/-! ## Applications that are written -/

theorem clientIds_of_written {applications : Table ApplicationRow.uuid} {a : Application}
    {clients : Table ClientRow.clientId} {others : List ClientRow}
    (hclients : clients.rows = others ++ a.clientIds.toList.map (⟨·, a.uuid⟩))
    (hothers : ∀ row ∈ others, row.application ≠ a.uuid) :
    clientIds { s with applications, clients } a.uuid = a.clientIds := by
  have hnone : others.filter (·.application = a.uuid) = [] :=
    List.filter_eq_nil_iff.2 fun row hrow => by simpa using hothers row hrow
  have hown : (a.clientIds.toList.map (fun id => (⟨id, a.uuid⟩ : ClientRow))).filter
      (·.application = a.uuid) = a.clientIds.toList.map (⟨·, a.uuid⟩) :=
    List.filter_eq_self.2 (List.forall_mem_map.2 fun _ _ => decide_eq_true rfl)
  rw [clientIds, hclients, List.filter_append, hnone, hown, List.nil_append, List.map_map,
    Function.comp_def]
  exact (congrArg SortedSet.ofList (List.map_id' _)).trans a.clientIds.ofList_toList

/-- What belongs to an application belongs to one that is there. -/
theorem Consistent.of_free (h : s.Consistent) (hfree : s.application? uuid = none) :
    s.listGrants uuid = [] ∧ s.listCatalogGrants uuid = [] ∧
      ∀ row ∈ s.clients.rows, row.application ≠ uuid := by
  have hnot : ¬ s.HasApplication uuid := by
    rw [hasApplication_iff, hfree]
    exact Bool.false_ne_true
  refine ⟨List.filter_eq_nil_iff.2 fun g hg => ?_, List.filter_eq_nil_iff.2 fun g hg => ?_, ?_⟩
  · simpa using fun heq : g.application = uuid => hnot (heq ▸ h.grants g hg)
  · simpa using fun heq : g.application = uuid => hnot (heq ▸ h.catalogGrants g hg)
  · exact fun row hrow heq => hnot (heq ▸ h.clients row hrow)

theorem application?_eq_none_of_createApplication {a : Application}
    (h : s.createApplication a = .ok t) : s.application? a.uuid = none := by
  obtain ⟨applications, clients, hadd, -, -⟩ := createApplication_ok h
  have hfree : s.applications.get? a.uuid = none := Table.get?_of_add? hadd
  rw [application?, hfree]
  rfl

/-- What is created is found as it was given, if no identifier belonged to it before. -/
theorem application?_of_createApplication_of_clients {a : Application}
    (hothers : ∀ row ∈ s.clients.rows, row.application ≠ a.uuid)
    (h : s.createApplication a = .ok t) : t.application? a.uuid = some a := by
  obtain ⟨applications, clients, hadd, hclients, rfl⟩ := createApplication_ok h
  have hrow := Table.get?_add? hadd a.uuid
  rw [if_pos rfl] at hrow
  rw [application?, hrow, Option.map_some, ofRow, clientIds_of_written hclients hothers]

theorem application?_of_createApplication (hs : s.Consistent) {a : Application}
    (h : s.createApplication a = .ok t) : t.application? a.uuid = some a :=
  application?_of_createApplication_of_clients
    (hs.of_free (application?_eq_none_of_createApplication h)).2.2 h

/-- A new application holds what it was given, since nothing was held before it. -/
theorem created_of_createApplication (hs : s.Consistent) {input : ApplicationInput}
    (h : s.createApplication (input.application uuid) = .ok t) (grants : List Grant) :
    (t.addGrants uuid grants).application? uuid = some (input.application uuid) ∧
      ((t.addGrants uuid grants).listGrants uuid).map Grant.unnumbered =
        grants.map (·.heldBy uuid) ∧
      (t.addGrants uuid grants).listCatalogGrants uuid = [] := by
  have hfree : s.application? uuid = none := application?_eq_none_of_createApplication h
  have hfound : t.application? uuid = some (input.application uuid) :=
    application?_of_createApplication hs h
  obtain ⟨hexplicit, honCatalogs, -⟩ := hs.of_free hfree
  obtain ⟨kept, hkept⟩ := addGrants_eq t uuid grants
  obtain ⟨applications, clients, -, -, rfl⟩ := createApplication_ok h
  refine ⟨?_, ?_, ?_⟩
  · rw [hkept]
    exact hfound
  · rw [unnumbered_addGrants]
    exact congrArg (·.map Grant.unnumbered ++ grants.map (·.heldBy uuid)) hexplicit
  · rw [listCatalogGrants_addGrants]
    exact honCatalogs

theorem application?_of_updateApplication {a : Application}
    (hfound : (s.application? a.uuid).isSome = true) (h : s.updateApplication a = .ok t) :
    t.application? a.uuid = some a := by
  obtain ⟨clients, hclients, rfl⟩ := updateApplication_ok h
  have hothers : ∀ row ∈ s.clients.rows.filter (·.application ≠ a.uuid),
      row.application ≠ a.uuid := fun row hrow => of_decide_eq_true (List.mem_filter.1 hrow).2
  rw [isSome_application?] at hfound
  obtain ⟨row, hrow⟩ := Option.isSome_iff_exists.1 hfound
  have hkey : row.uuid = a.uuid := Table.key_of_get? hrow
  rw [application?, Table.get?_replace, hrow, Option.map_some, Table.instead, if_pos hkey,
    Option.map_some, ofRow, clientIds_of_written hclients hothers]

/-- The identifiers of an application are not in its own way. -/
theorem Consistent.ownerRefusals_own (h : s.Consistent) {a : Application}
    (ha : s.application? uuid = some a) : ownerRefusals s uuid a.clientIds = [] := by
  refine List.filterMap_eq_nil_iff.2 fun clientId hmem => ?_
  have howner := h.clientOwner?_eq_some_iff.2 ⟨a, ha, hmem⟩
  simp only [howner, if_true]

/-! ## Updates -/

namespace Updates

variable {input : ApplicationInput}

theorem application (h : s.Updates uuid input t) :
    t.application? uuid = some (input.application uuid) := by
  obtain ⟨kept, keptOnCatalogs, hregrant⟩ := regrant_eq s uuid input.grants
  refine application?_of_updateApplication ?_ h.stored
  rw [hregrant]
  exact h.found

/-- An update of the row leaves all grants as they are then. -/
theorem listed (h : s.Updates uuid input t) (other : String) :
    t.listGrants other = (s.regrant uuid input.grants).listGrants other ∧
      t.listCatalogGrants other = (s.regrant uuid input.grants).listCatalogGrants other := by
  obtain ⟨clients, -, ht⟩ := updateApplication_ok h.stored
  rw [ht]
  exact ⟨rfl, rfl⟩

theorem unnumbered (h : s.Updates uuid input t) {grants : List Grant}
    (hgrants : input.grants = some grants) :
    (t.listGrants uuid).map Grant.unnumbered = grants.map (·.heldBy uuid) ∧
      t.listCatalogGrants uuid = [] := by
  obtain ⟨hexplicit, honCatalogs⟩ := h.listed uuid
  rw [hexplicit, honCatalogs, hgrants]
  exact ⟨unnumbered_regrant s uuid grants, listCatalogGrants_regrant s uuid grants⟩

theorem types (h : s.Updates uuid input t) : t.types = s.types := by
  obtain ⟨clients, -, ht⟩ := updateApplication_ok h.stored
  obtain ⟨kept, keptOnCatalogs, hregrant⟩ := regrant_eq s uuid input.grants
  rw [ht, hregrant]

end Updates

end Store

/-! ## Updates that go through -/

namespace Operation

variable {α β : Type} {c : Context} {i j : Installation} {m : Operation α} {f : α → Operation β}

/-- Started here, the operation ends well. -/
def EndsWell (c : Context) (i : Installation) (m : Operation α) : Prop :=
  ∃ a j, m c i = (.ok a, j)

theorem endsWell_after {a : α} (h : m c i = (.ok a, j)) (hf : EndsWell c j (f a)) :
    EndsWell c i (m >>= f) := by
  obtain ⟨b, k, hk⟩ := hf
  exact ⟨b, k, by rw [bind_of_ok h, hk]⟩

theorem endsWell_bind (hm : EndsWell c i m)
    (hf : ∀ a j, m c i = (.ok a, j) → EndsWell c j (f a)) : EndsWell c i (m >>= f) := by
  obtain ⟨a, j, hj⟩ := hm
  exact endsWell_after hj (hf a j hj)

theorem endsWell_transaction (hm : EndsWell c i m) : EndsWell c i (transaction m) := by
  obtain ⟨a, j, hj⟩ := hm
  exact ⟨a, j, by rw [transaction, hj]⟩

end Operation

namespace Administration

variable {c : Context} {i : Installation} {uuid : String}

theorem application_of_some {a : Application} (h : i.store.application? uuid = some a) :
    application uuid c i = (.ok a, i) := by
  have hreading : reading (·.application? uuid) c i = (.ok (some a), i) := by rw [← h]; rfl
  rw [application, bind_of_ok hreading]
  rfl

theorem checkClientIds_of_free {clientIds : SortedSet String}
    (h : ownerRefusals i.store uuid clientIds = []) :
    checkClientIds uuid clientIds c i = (.ok (), i) := by
  have hreading : reading (ownerRefusals · uuid clientIds) c i = (.ok [], i) := by rw [← h]; rfl
  rw [checkClientIds, bind_of_ok hreading]
  rfl

theorem checkKeptGrants_eq (uuid : String) (flag : Bool) (c : Context) (i : Installation) :
    checkKeptGrants uuid flag c i =
      (ApiError.ofParams (exclusivityRefusals flag (i.store.hasGrants uuid)), i) := by
  have hreading : reading (·.hasGrants uuid) c i = (.ok (i.store.hasGrants uuid), i) := rfl
  rw [checkKeptGrants]
  show (reading (·.hasGrants uuid) >>= fun hasGrants =>
    ofExcept (ApiError.ofParams (exclusivityRefusals flag hasGrants))) c i = _
  rw [bind_of_ok hreading]
  cases ApiError.ofParams (exclusivityRefusals flag (i.store.hasGrants uuid)) <;> rfl

/-- An application that is there becomes what the input says, unless an identifier is taken
or what it holds does not fit. -/
theorem exists_update {input : ApplicationInput}
    (hfound : (i.store.application? uuid).isSome = true)
    (hfree : ownerRefusals i.store uuid input.clientIds = [])
    (hkept : input.grants = none →
      exclusivityRefusals input.hasAllPermissions (i.store.hasGrants uuid) = []) :
    EndsWell c i (update uuid input) := by
  obtain ⟨a, ha⟩ := Option.isSome_iff_exists.1 hfound
  have hstill : ownerRefusals (i.store.regrant uuid input.grants) uuid input.clientIds = [] := by
    obtain ⟨kept, keptOnCatalogs, hregrant⟩ := Store.regrant_eq i.store uuid input.grants
    rw [hregrant]
    exact hfree
  obtain ⟨t, ht⟩ := Store.exists_updateApplication (a := input.application uuid) hstill
  have hwritten : ∀ j : Installation, j.store = i.store.regrant uuid input.grants →
      changingOr (·.updateApplication (input.application uuid)) c j =
        (.ok (), { j with store := t }) := by
    intro j hj
    rw [changingOr, hj, ht]
  refine endsWell_bind (endsWell_transaction ?_) fun view j _ => ⟨_, _, rfl⟩
  refine endsWell_after (application_of_some ha) ?_
  refine endsWell_after (checkClientIds_of_free hfree) ?_
  split
  · next grants hgrants =>
      rw [hgrants] at hwritten
      refine endsWell_after (replaceGrants_eq _ _ _ _) ?_
      exact endsWell_after (hwritten _ rfl) ⟨_, _, rfl⟩
  · next hgrants =>
      rw [hgrants] at hwritten
      have hcheck := checkKeptGrants_eq uuid input.hasAllPermissions c i
      rw [hkept hgrants] at hcheck
      refine endsWell_after hcheck ?_
      exact endsWell_after (hwritten _ rfl) ⟨_, _, rfl⟩

end Administration

end CaseAccess
