import CaseAccess.Database.Command
import CaseAccess.Proofs.RecordColumns
import CaseAccess.Proofs.RowTables
import CaseAccess.Proofs.StatusReading

/-!
# The database does what the store does

The store keeps records and the database keeps rows. Whatever is executed in the database
of a store comes to the database of the store in which it is executed, and fails where it
fails there; and what is read of the database is what the store holds. So everything that
is known of the store is known of what is on disk.

Two things are not in the rows by themselves. Grants are listed by their numbers, and the
rows stand in that order because numbers are given in that order. And of one case no two
statuses have one text, where the store has no two with one point in time: that is the
same for points in time as they are kept.
-/

namespace CaseAccess

open SqlTable

/-! ## Values that tell apart -/

theorem SqlValue.ofTypeRef_injective : Function.Injective SqlValue.ofTypeRef := fun r t h => by
  cases r
  cases t
  cases h
  rfl

theorem SqlValue.ofComponent_injective : Function.Injective (SqlValue.ofNamed (α := Component)) :=
  fun _ _ h => Component.name_injective (SqlValue.text.inj h)

open SqlValue

/-! ## Keys -/

theorem ClientSecret.clashes_row (a b : ClientSecret) :
    a.row.clashes [["client_id"]] b.row = decide (b.clientId = a.clientId) :=
  SqlRow.clashes_key text_injective (fun _ => rfl) a b

theorem ApplicationRow.clashes_row (a b : ApplicationRow) :
    a.row.clashes [["uuid"]] b.row = decide (b.uuid = a.uuid) :=
  SqlRow.clashes_key text_injective (fun _ => rfl) a b

theorem ClientRow.clashes_row (a b : ClientRow) :
    a.row.clashes [["client_id"]] b.row = decide (b.clientId = a.clientId) :=
  SqlRow.clashes_key text_injective (fun _ => rfl) a b

theorem TypeDefinition.clashes_row (a b : TypeDefinition) :
    a.row.clashes [["reference"]] b.row = decide (b.reference = a.reference) :=
  SqlRow.clashes_key ofTypeRef_injective (fun _ => rfl) a b

theorem CaseRecord.clashes_row (a b : CaseRecord) :
    a.row.clashes [["id"]] b.row = decide (b.id = a.id) :=
  SqlRow.clashes_key text_injective (fun _ => rfl) a b

theorem ResultRecord.clashes_row (a b : ResultRecord) :
    a.row.clashes [["case_id"]] b.row = decide (b.caseId = a.caseId) :=
  SqlRow.clashes_key text_injective (fun _ => rfl) a b

theorem CatalogGrant.clashes_row (g h : CatalogGrant) :
    g.row.clashes [["application", "component", "catalog"]] h.row = Store.sameTarget g h := by
  have hvalues : ∀ g : CatalogGrant, g.row.select ["application", "component", "catalog"] =
      [.text g.application, .ofNamed g.component, .ofTypeRef g.catalog] := fun _ => rfl
  rw [SqlRow.clashes, List.any_cons, List.any_nil, Bool.or_false, Store.sameTarget,
    decide_eq_decide, hvalues, hvalues]
  simp only [List.cons.injEq, and_true, text_injective.eq_iff, ofComponent_injective.eq_iff,
    ofTypeRef_injective.eq_iff]

/-- A status that is kept and one that is added have one text where they have one time. -/
theorem StatusRecord.clashes_row {q : StatusRecord} (hq : q.setAt.truncated = q.setAt)
    (r : StatusRecord) :
    r.row.clashes [["case_id", "set_at"]] q.row =
      decide (q.caseId = r.caseId ∧ q.setAt = r.setAt.truncated) := by
  have hvalues : ∀ r : StatusRecord, r.row.select ["case_id", "set_at"] =
      [.text r.caseId, .text (r.setAt.text 6)] := fun _ => rfl
  rw [SqlRow.clashes, List.any_cons, List.any_nil, Bool.or_false, decide_eq_decide, hvalues,
    hvalues]
  simp only [List.cons.injEq, and_true, text_injective.eq_iff, Instant.text_eq_text_iff, hq]
  rw [eq_comm, eq_comm (a := r.setAt.truncated)]

theorem StatusRecord.row_truncated (r : StatusRecord) :
    { r with setAt := r.setAt.truncated }.row = r.row := by
  simp only [row, Instant.text_truncated]

/-! ## Numbered records of an application -/

section OfApplication

variable {α : Type} {row : α → SqlRow} {application : α → String} {uuid : String}

theorem removeApplication_map (happlication : ∀ a, (row a).get "application" = .text (application a))
    (t : Numbered α) :
    removeNumbered [("application", .text uuid)] (t.map row) =
      (t.filter (application · ≠ uuid)).map row :=
  removeNumbered_map (SqlRow.meets_key_ne text_injective happlication uuid) t

theorem countApplication_map (happlication : ∀ a, (row a).get "application" = .text (application a))
    (t : Numbered α) :
    count [("application", .text uuid)] (t.map row).rows =
      (t.rows.filter (application · = uuid)).length := by
  rw [count, Numbered.map, List.countP_map, ← List.countP_eq_length_filter]
  exact congrArg (t.rows.countP ·)
    (funext (SqlRow.meets_key text_injective happlication uuid))

variable {number : α → Nat} {componentOf : α → Component} {columns : List String}
  {ofValues? : List SqlValue → Option α}

/-- The rows are in the order of their numbers before they are put into it. -/
theorem readApplication_map (hnumber : ∀ a, (row a).get "id" = .integer (number a))
    (happlication : ∀ a, (row a).get "application" = .text (application a))
    (hcomponent : ∀ a, (row a).get "component" = .ofNamed (componentOf a))
    (hread : ∀ a, ofValues? ((row a).select columns) = some a) {t : Numbered α}
    (ht : t.Ascending number) (component : Option Component) :
    (Database.ofApplication columns uuid component).read ofValues? (t.map row).rows =
      .ok ((t.rows.filter (application · = uuid)).filter fun a =>
        component.all (· = componentOf a)) := by
  let p : α → Bool := fun a =>
    component.all (· = componentOf a) && decide (application a = uuid)
  have hmeets : ∀ a, (row a).meets (Database.ofApplication columns uuid component).conditions =
      p a := by
    intro a
    rw [Database.ofApplication, SqlRow.meets_cons, SqlRow.meets_key text_injective happlication,
      Bool.and_comm]
    congr 1
    cases component with
    | none => rfl
    | some c =>
        rw [Option.all_some, decide_eq_decide.2 (eq_comm (a := c))]
        exact SqlRow.meets_key ofComponent_injective hcomponent c a
  have hsorted : (t.rows.filter p).mergeSort (fun a b => decide (number a ≤ number b)) =
      t.rows.filter p :=
    List.mergeSort_of_pairwise
      ((ht.rows.filter p).imp fun hlt => decide_eq_true (Nat.le_of_lt hlt))
  rw [Numbered.map, Selection.read_map hmeets hread (SqlRow.isLE_cmp_number hnumber), hsorted,
    List.map_id', List.filter_filter]

end OfApplication

/-- The condition that a row is on a catalog and of a component. -/
theorem meets_catalog {α κ : Type} [DecidableEq κ] {row : α → SqlRow} {catalog : α → κ}
    {componentOf : α → Component} {write : κ → SqlValue} (hwrite : Function.Injective write)
    (hcatalog : ∀ a, (row a).get "catalog" = write (catalog a))
    (hcomponent : ∀ a, (row a).get "component" = .ofNamed (componentOf a)) (k : κ)
    (component : Component) (a : α) :
    (row a).meets [("catalog", write k), ("component", .ofNamed component)] =
      decide (catalog a = k ∧ componentOf a = component) := by
  rw [SqlRow.meets_cons, SqlRow.meets_key hwrite hcatalog,
    SqlRow.meets_key ofComponent_injective hcomponent, Bool.decide_and]

namespace Store

variable {s : Store}

/-! ## Tables -/

theorem database_applications (s : Store) :
    s.database.applications = s.applications.rows.map ApplicationRow.row := rfl

theorem database_clients (s : Store) :
    s.database.clients = s.clients.rows.map ClientRow.row := rfl

theorem database_grants (s : Store) : s.database.grants = s.grants.map Grant.row := rfl

theorem database_catalogGrants (s : Store) :
    s.database.catalogGrants = s.catalogGrants.map CatalogGrant.row := rfl

theorem database_types (s : Store) :
    s.database.types = s.types.rows.map TypeDefinition.row := rfl

theorem database_cases (s : Store) : s.database.cases = s.cases.rows.map CaseRecord.row := rfl

theorem database_statuses (s : Store) :
    s.database.statuses = s.statuses.map StatusRecord.row := rfl

/-! ## Secrets and results -/

theorem database_saveSecret (s : Store) (clientId secret : String) :
    s.database.saveSecret clientId secret = (s.saveSecret clientId secret).database := by
  let kept : ClientSecret := ⟨clientId, secret⟩
  have hset : ∀ b : ClientSecret, b.clientId = kept.clientId →
      b.row.set ["secret"] (kept.row.select ["secret"]) = kept.row := by
    rintro ⟨_, _⟩ rfl
    rfl
  exact congrArg (fun secrets => { s.database with secrets })
    (put_map ClientSecret.clashes_row hset s.secrets)

theorem database_saveResult (s : Store) (r : ResultRecord) :
    s.database.saveResult r = (s.saveResult r).database := by
  have hset : ∀ b : ResultRecord, b.caseId = r.caseId →
      b.row.set ["result_type"] (r.row.select ["result_type"]) = r.row := by
    rintro ⟨_, _⟩ rfl
    rfl
  exact congrArg (fun results => { s.database with results })
    (put_map ResultRecord.clashes_row hset s.results)

/-! ## Applications -/

theorem database_addClients (s : Store) (uuid : String) (clientIds : List String) :
    s.database.addClients uuid clientIds = (s.addClients uuid clientIds).map database := by
  induction clientIds generalizing s with
  | nil => rfl
  | cons clientId rest ih =>
      have hadd := add_map ClientRow.clashes_row s.clients ⟨clientId, uuid⟩
      rw [Database.addClients, addClients, database_clients, hadd]
      cases s.clients.add? ⟨clientId, uuid⟩ with
      | none => rfl
      | some clients => exact ih { s with clients }

theorem database_removeClients (s : Store) (uuid : String) :
    s.database.removeClients uuid = (s.removeClients uuid).database := by
  have hmeets : ∀ c : ClientRow, c.row.meets [("application", .text uuid)] =
      !decide (c.application ≠ uuid) :=
    SqlRow.meets_key_ne text_injective (fun _ => rfl) uuid
  exact congrArg (fun clients => { s.database with clients }) (remove_map hmeets s.clients.rows)

theorem database_createApplication (s : Store) (a : Application) :
    s.database.createApplication a = (s.createApplication a).map database := by
  have hadd := add_map ApplicationRow.clashes_row s.applications
    ⟨a.uuid, a.label, a.hasAllPermissions⟩
  rw [Database.createApplication, createApplication, database_applications, hadd]
  cases s.applications.add? ⟨a.uuid, a.label, a.hasAllPermissions⟩ with
  | none => rfl
  | some applications => exact database_addClients { s with applications } _ _

theorem database_updateApplication (s : Store) (a : Application) :
    s.database.updateApplication a = (s.updateApplication a).map database := by
  let kept : ApplicationRow := ⟨a.uuid, a.label, a.hasAllPermissions⟩
  have hmeets : ∀ b : ApplicationRow, b.row.meets [("uuid", .text a.uuid)] =
      decide (b.uuid = kept.uuid) := SqlRow.meets_key text_injective (fun _ => rfl) a.uuid
  have hset : ∀ b : ApplicationRow, b.uuid = kept.uuid →
      b.row.set ["label", "has_all_permissions"] [.text a.label, .ofBool a.hasAllPermissions] =
        kept.row := fun _ h => ApplicationRow.set_row h
  have hchanged : { s.database with
        applications := change [("uuid", .text a.uuid)] ["label", "has_all_permissions"]
          [.text a.label, .ofBool a.hasAllPermissions] s.database.applications } =
      database { s with applications := s.applications.replace kept } :=
    congrArg (fun applications => { s.database with applications })
      (change_map hmeets hset s.applications)
  rw [Database.updateApplication, hchanged, database_removeClients, database_addClients]
  rfl

/-! ## Grants -/

theorem database_createGrant (s : Store) (g : Grant) :
    s.database.createGrant g = ((s.createGrant g).1, (s.createGrant g).2.database) := by
  have hadd : (s.grants.map Grant.row).add (fun id => { g with id }.row) =
      (s.grants.add fun id => { g with id }).map Grant.row := by
    simp only [Numbered.add, Numbered.map, List.map_append, List.map_singleton]
    rfl
  exact congrArg (fun grants => (_, { s.database with grants })) hadd

theorem database_deleteGrant (s : Store) (id : Nat) :
    s.database.deleteGrant id = .ok (s.grant? id, (s.deleteGrant id).database) := by
  rw [Database.deleteGrant, database_grants, takeNumbered_map (fun _ => rfl) Grant.ofValues?_row]
  rfl

theorem database_deleteApplicationGrants (s : Store) (uuid : String) :
    s.database.deleteApplicationGrants uuid =
      ((s.listGrants uuid).length, (s.deleteApplicationGrants uuid).database) := by
  have hcount : count [("application", .text uuid)] s.database.grants.rows =
      (s.listGrants uuid).length := countApplication_map (fun _ => rfl) s.grants
  have hremove : removeNumbered [("application", .text uuid)] s.database.grants =
      (s.grants.filter (·.application ≠ uuid)).map Grant.row :=
    removeApplication_map (fun _ => rfl) s.grants
  rw [Database.deleteApplicationGrants, hcount, hremove]
  rfl

/-! ## Catalog grants -/

theorem database_createCatalogGrant (s : Store) (g : CatalogGrant) :
    s.database.createCatalogGrant g =
      (s.createCatalogGrant g).map fun r => (r.1, r.2.database) := by
  let numbered : Nat → CatalogGrant := fun id => { g with id }
  have hadd : addNumbered [["application", "component", "catalog"]] (fun id => (numbered id).row)
      (s.catalogGrants.map CatalogGrant.row) =
        if s.catalogGrants.rows.any (sameTarget g) then .error .keyTaken
        else .ok ((s.catalogGrants.add numbered).map CatalogGrant.row) :=
    addNumbered_map fun h _ => CatalogGrant.clashes_row (numbered s.catalogGrants.next) h
  rw [Database.createCatalogGrant, createCatalogGrant, database_catalogGrants, hadd]
  by_cases htaken : s.catalogGrants.rows.any (sameTarget g) = true
  · rw [if_pos htaken, if_pos htaken]
    rfl
  · rw [if_neg htaken, if_neg htaken]
    rfl

theorem database_deleteCatalogGrant (s : Store) (id : Nat) :
    s.database.deleteCatalogGrant id =
      .ok (s.catalogGrant? id, (s.deleteCatalogGrant id).database) := by
  rw [Database.deleteCatalogGrant, database_catalogGrants,
    takeNumbered_map (fun _ => rfl) CatalogGrant.ofValues?_row]
  rfl

theorem database_deleteApplicationCatalogGrants (s : Store) (uuid : String) :
    s.database.deleteApplicationCatalogGrants uuid =
      ((s.listCatalogGrants uuid).length, (s.deleteApplicationCatalogGrants uuid).database) := by
  have hcount : count [("application", .text uuid)] s.database.catalogGrants.rows =
      (s.listCatalogGrants uuid).length := countApplication_map (fun _ => rfl) s.catalogGrants
  have hremove : removeNumbered [("application", .text uuid)] s.database.catalogGrants =
      (s.catalogGrants.filter (·.application ≠ uuid)).map CatalogGrant.row :=
    removeApplication_map (fun _ => rfl) s.catalogGrants
  rw [Database.deleteApplicationCatalogGrants, hcount, hremove]
  rfl

theorem database_deleteApplication (s : Store) (uuid : String) :
    s.database.deleteApplication uuid = (s.deleteApplication uuid).database := by
  have hmeets : ∀ a : ApplicationRow, a.row.meets [("uuid", .text uuid)] =
      !decide (a.uuid ≠ uuid) := SqlRow.meets_key_ne text_injective (fun _ => rfl) uuid
  rw [Database.deleteApplication, database_deleteApplicationGrants,
    database_deleteApplicationCatalogGrants, database_removeClients]
  exact congrArg (fun applications => { database _ with applications })
    (remove_map hmeets s.applications.rows)

/-! ## Types and cases -/

theorem database_createType (s : Store) (d : TypeDefinition) :
    s.database.createType d = (s.createType d).map database := by
  have hadd := add_map TypeDefinition.clashes_row s.types d
  rw [Database.createType, createType, database_types, hadd]
  cases s.types.add? d <;> rfl

theorem database_createCase (s : Store) (c : CaseRecord) :
    s.database.createCase c = (s.createCase c).map database := by
  have hadd := add_map CaseRecord.clashes_row s.cases c
  rw [Database.createCase, createCase, database_cases, hadd]
  cases s.cases.add? c <;> rfl

theorem database_updateCase (s : Store) (c : CaseRecord) :
    s.database.updateCase c = (s.updateCase c).database := by
  have hmeets : ∀ e : CaseRecord, e.row.meets [("id", .text c.id)] = decide (e.id = c.id) :=
    SqlRow.meets_key text_injective (fun _ => rfl) c.id
  exact congrArg (fun cases => { s.database with cases })
    (change_map hmeets (fun _ h => CaseRecord.set_row h) s.cases)

theorem database_createStatus (hs : s.InMicroseconds) (r : StatusRecord) :
    s.database.createStatus r = (s.createStatus r).map fun q => (q.1, q.2.database) := by
  let numbered : Nat → StatusRecord := fun id => { r with id, setAt := r.setAt.truncated }
  let taken : StatusRecord → Bool := fun q => q.caseId = r.caseId ∧ q.setAt = r.setAt.truncated
  have hclash : ∀ q ∈ s.statuses.rows,
      (numbered s.statuses.next).row.clashes [["case_id", "set_at"]] q.row = taken q := by
    intro q hq
    rw [StatusRecord.clashes_row (hs q hq)]
    exact congrArg (fun t => decide (q.caseId = r.caseId ∧ q.setAt = t))
      r.setAt.truncated_truncated
  have hrow : (fun id => { r with id }.row) = fun id => (numbered id).row :=
    funext fun id => (StatusRecord.row_truncated { r with id }).symm
  have hstore : s.createStatus r = if s.statuses.rows.any taken then .error .keyTaken
      else .ok ({ r with id := s.statuses.next },
        { s with statuses := s.statuses.add numbered }) := rfl
  rw [Database.createStatus, hrow, hstore, database_statuses, addNumbered_map hclash]
  by_cases htaken : s.statuses.rows.any taken = true
  · rw [if_pos htaken, if_pos htaken]
    rfl
  · rw [if_neg htaken, if_neg htaken]
    rfl

/-! ## Commands -/

theorem database_execute (hs : s.InMicroseconds) (command : StorageCommand) :
    s.database.execute command = (s.execute command).map database := by
  cases command with
  | saveSecret clientId secret => exact congrArg Except.ok (database_saveSecret s clientId secret)
  | createApplication a => exact database_createApplication s a
  | updateApplication a => exact database_updateApplication s a
  | deleteApplication uuid => exact congrArg Except.ok (database_deleteApplication s uuid)
  | createGrant g => exact congrArg (fun r => Except.ok r.2) (database_createGrant s g)
  | deleteGrant id => exact congrArg (Except.map Prod.snd) (database_deleteGrant s id)
  | deleteApplicationGrants uuid =>
      exact congrArg (fun r => Except.ok r.2) (database_deleteApplicationGrants s uuid)
  | createCatalogGrant g =>
      show (s.database.createCatalogGrant g).map Prod.snd = _
      rw [database_createCatalogGrant, execute]
      cases s.createCatalogGrant g <;> rfl
  | deleteCatalogGrant id => exact congrArg (Except.map Prod.snd) (database_deleteCatalogGrant s id)
  | deleteApplicationCatalogGrants uuid =>
      exact congrArg (fun r => Except.ok r.2) (database_deleteApplicationCatalogGrants s uuid)
  | createType d => exact database_createType s d
  | createCase c => exact database_createCase s c
  | updateCase c => exact congrArg Except.ok (database_updateCase s c)
  | createStatus r =>
      show (s.database.createStatus r).map Prod.snd = _
      rw [database_createStatus hs, execute]
      cases s.createStatus r <;> rfl
  | saveResult r => exact congrArg Except.ok (database_saveResult s r)

/-! ## What is read -/

theorem database_clientIds (s : Store) (uuid : String) :
    s.database.clientIds uuid = .ok (s.clientIds uuid) := by
  have hmeets : ∀ c : ClientRow, c.row.meets [("application", .text uuid)] =
      decide (c.application = uuid) := SqlRow.meets_key text_injective (fun _ => rfl) uuid
  rw [Database.clientIds, database_clients,
    Selection.read_map_unordered rfl hmeets fun c => text?_text c.clientId]
  rfl

theorem database_ofRow (s : Store) (row : ApplicationRow) :
    s.database.ofRow row = .ok (s.ofRow row) := by
  rw [Database.ofRow, database_clientIds]
  rfl

theorem database_application? (s : Store) (uuid : String) :
    s.database.application? uuid = .ok (s.application? uuid) := by
  have hmeets : ∀ a : ApplicationRow, a.row.meets [("uuid", .text uuid)] =
      decide (a.uuid = uuid) := SqlRow.meets_key text_injective (fun _ => rfl) uuid
  rw [Database.application?, database_applications,
    Selection.readOne_map hmeets fun a _ => a.ofValues?_row, Option.map_id']
  cases hrow : s.applications.rows.find? (·.uuid = uuid) with
  | none =>
      rw [application?, Table.get?, hrow]
      rfl
  | some row =>
      rw [application?, Table.get?, hrow]
      show some <$> s.database.ofRow row = _
      rw [database_ofRow]
      rfl

theorem database_listApplications (s : Store) :
    s.database.listApplications = .ok s.listApplications := by
  have hmeets : ∀ a : ApplicationRow, a.row.meets [] = true := fun _ => rfl
  have horder : ∀ a b : ApplicationRow,
      (SqlRow.cmp ["label", "uuid"] a.row b.row).isLE = listedBefore a b := by
    intro a b
    rw [SqlRow.cmp_cons, SqlRow.cmp_cons, SqlRow.cmp_nil, Ordering.then_eq]
    rfl
  have hread : s.database.ofRow = fun row => .ok (s.ofRow row) := funext s.database_ofRow
  rw [Database.listApplications, database_applications,
    Selection.read_map hmeets ApplicationRow.ofValues?_row horder, List.map_id', hread,
    List.filter_true]
  exact List.mapM_pure (m := Except StoreFault)

theorem database_clientOwner? (s : Store) (clientId : String) :
    s.database.clientOwner? clientId = .ok (s.clientOwner? clientId) := by
  have hmeets : ∀ c : ClientRow, c.row.meets [("client_id", .text clientId)] =
      decide (c.clientId = clientId) := SqlRow.meets_key text_injective (fun _ => rfl) clientId
  rw [Database.clientOwner?, database_clients,
    Selection.readOne_map hmeets fun c _ => text?_text c.application]
  rfl

theorem database_clientApplications (s : Store) (clientId : String) :
    s.database.clientApplications clientId = .ok (s.clientApplications clientId) := by
  rw [Database.clientApplications, database_clientOwner?, clientApplications]
  cases s.clientOwner? clientId with
  | none => rfl
  | some uuid =>
      show (do return (← s.database.application? uuid).toList) = _
      rw [database_application?]
      rfl

theorem database_listGrants (hs : s.grants.Ascending Grant.id) (uuid : String)
    (component : Option Component) :
    s.database.listGrants uuid component =
      .ok ((s.listGrants uuid).filter fun g => component.all (· = g.component)) :=
  readApplication_map (fun _ => rfl) (fun _ => rfl) (fun _ => rfl) Grant.ofValues?_row hs component

theorem database_listCatalogGrants (hs : s.catalogGrants.Ascending CatalogGrant.id)
    (uuid : String) (component : Option Component) :
    s.database.listCatalogGrants uuid component =
      .ok ((s.listCatalogGrants uuid).filter fun g => component.all (· = g.component)) :=
  readApplication_map (fun _ => rfl) (fun _ => rfl) (fun _ => rfl) CatalogGrant.ofValues?_row hs
    component

theorem database_catalogGrantHolders (s : Store) (catalog : TypeRef) (component : Component) :
    s.database.catalogGrantHolders catalog component =
      .ok (s.catalogGrantHolders catalog component) := by
  have hmeets : ∀ g : CatalogGrant,
      g.row.meets [("catalog", .ofTypeRef catalog), ("component", .ofNamed component)] =
        decide (g.catalog = catalog ∧ g.component = component) :=
    meets_catalog ofTypeRef_injective (fun _ => rfl) (fun _ => rfl) catalog component
  have horder : ∀ g h : CatalogGrant, (SqlRow.cmp ["application"] g.row h.row).isLE =
      (compare g.application h.application).isLE :=
    fun g h => congrArg Ordering.isLE (SqlRow.cmp_text (fun _ => rfl) g h)
  rw [Database.catalogGrantHolders, database_catalogGrants, Numbered.map,
    Selection.read_map hmeets (fun g => text?_text g.application) horder]
  refine congrArg Except.ok (SortedSet.eq_of_mem_iff fun uuid => ?_)
  simp only [catalogGrantHolders, SortedSet.mem_ofList, List.mem_map, List.mem_mergeSort]

theorem database_type? (s : Store) (reference : TypeRef) :
    s.database.type? reference = .ok (s.type? reference) := by
  let q : Selection :=
    { columns := ["component", "catalog", "relations"]
      conditions := [("reference", .ofTypeRef reference)] }
  have hmeets : ∀ d : TypeDefinition, d.row.meets q.conditions = decide (d.reference = reference) :=
    SqlRow.meets_key ofTypeRef_injective (fun _ => rfl) reference
  have hread : ∀ d : TypeDefinition, decide (d.reference = reference) = true →
      TypeDefinition.ofValues? reference (d.row.select q.columns) = some d := by
    intro d hd
    obtain rfl := of_decide_eq_true hd
    exact d.ofValues?_row
  have hfound : q.readOne (TypeDefinition.ofValues? reference) s.database.types =
      .ok ((s.types.rows.find? (·.reference = reference)).map fun d => d) :=
    Selection.readOne_map hmeets hread s.types.rows
  rw [Database.type?, hfound, Option.map_id']
  rfl

theorem database_catalogTypes (s : Store) (catalog : TypeRef) (component : Component) :
    s.database.catalogTypes catalog component = .ok (s.catalogTypes catalog component) := by
  let p : TypeDefinition → Bool := fun d => d.catalog = some catalog ∧ d.component = component
  have hmeets : ∀ d : TypeDefinition,
      d.row.meets [("catalog", .ofTypeRef catalog), ("component", .ofNamed component)] = p d :=
    meets_catalog (ofOption_injective ofTypeRef_injective fun _ h => by cases h) (fun _ => rfl)
      (fun _ => rfl) (some catalog) component
  have hkey : ∀ d : TypeDefinition, d.row.get "reference" = .text d.reference.key := fun _ => rfl
  have horder : ∀ d e : TypeDefinition, (SqlRow.cmp ["reference"] d.row e.row).isLE =
      (compare d.reference.key e.reference.key).isLE :=
    fun d e => congrArg Ordering.isLE (SqlRow.cmp_text hkey d e)
  have hsorted := List.map_mergeSort (f := TypeDefinition.reference) (l := s.types.rows.filter p)
    (r := fun d e => (compare d.reference.key e.reference.key).isLE)
    (s := fun a b => (compare a.key b.key).isLE) fun _ _ _ _ => rfl
  rw [Database.catalogTypes, database_types,
    Selection.read_map hmeets (fun d => text?_text d.reference.key) horder, catalogTypes, ← hsorted]
  show Except.ok (List.map _ (List.map _ _)) = _
  rw [List.map_map]
  rfl

theorem database_case? (s : Store) (id : String) : s.database.case? id = .ok (s.case? id) := by
  have hmeets : ∀ c : CaseRecord, c.row.meets [("id", .text id)] = decide (c.id = id) :=
    SqlRow.meets_key text_injective (fun _ => rfl) id
  rw [Database.case?, database_cases, Selection.readOne_map hmeets fun c _ => c.ofValues?_row,
    Option.map_id']
  rfl

theorem database_subCases (s : Store) (id : String) :
    s.database.subCases id = .ok (s.subCases id) := by
  have hmeets : ∀ c : CaseRecord, c.row.meets [("main_case", .text id)] =
      decide (c.mainCase = some id) :=
    SqlRow.meets_key (ofOption_injective text_injective fun _ h => by cases h) (fun _ => rfl)
      (some id)
  have horder : ∀ c e : CaseRecord, (SqlRow.cmp ["id"] c.row e.row).isLE =
      (compare c.id e.id).isLE :=
    fun c e => congrArg Ordering.isLE (SqlRow.cmp_text (fun _ => rfl) c e)
  rw [Database.subCases, database_cases, Selection.read_map hmeets CaseRecord.ofValues?_row horder,
    List.map_id']
  rfl

end Store

end CaseAccess
