import CaseAccess.Proofs.DatabaseStore
import CaseAccess.Proofs.PermissionNotice
import CaseAccess.Proofs.RestoredGrant
import CaseAccess.Proofs.StoredGrants

/-!
# Storage gives back what was stored

A record is written by one list of columns and read by another, and between the two come
any number of commands that are about other records. What is read in the end is the record,
field by field, as long as no command that touches it has succeeded.

The rows are left behind at once: the database is that of a store, and in the store a record
is held or it is not. It is held after the command that stores it, it stays held under every
command that does not touch it, and what is held is given back by everything that reads the
database. An application is held as a whole, its row and its client identifiers; that they
stay its own is due to the table of clients, which gives no identifier to a second one.
-/

namespace CaseAccess

/-! ## Records -/

/-- A record of one of the kinds that are stored and read back. -/
inductive StoredRecord where
  | application (a : Application)
  | grant (g : Grant)
  | catalogGrant (g : CatalogGrant)
  | type (t : TypeDefinition)
  | case (c : CaseRecord)

/-- The command changes or removes what is kept under the key of the record, or removes the
grants of the application that it is a grant of. -/
def StorageCommand.Touches : StorageCommand → StoredRecord → Prop
  | .updateApplication b, .application a => b.uuid = a.uuid
  | .deleteApplication uuid, .application a => uuid = a.uuid
  | .deleteGrant id, .grant g => id = g.id
  | .deleteApplicationGrants uuid, .grant g => uuid = g.application
  | .deleteApplication uuid, .grant g => uuid = g.application
  | .deleteCatalogGrant id, .catalogGrant g => id = g.id
  | .deleteApplicationCatalogGrants uuid, .catalogGrant g => uuid = g.application
  | .deleteApplication uuid, .catalogGrant g => uuid = g.application
  | .updateCase b, .case c => b.id = c.id
  | _, _ => False

namespace Database

/-- The record is what the command stores here, if it succeeds: under a key that no row
names so far, or in the place of a record that is there. A grant is stored with the number
that it gets. -/
inductive Stores (d : Database) : StorageCommand → StoredRecord → Prop
  | createApplication (a : Application)
      (hfree : ∀ row ∈ d.clients, row.get "application" ≠ .text a.uuid) :
      d.Stores (.createApplication a) (.application a)
  | updateApplication (a : Application) (hfound : ∃ b, d.application? a.uuid = .ok (some b)) :
      d.Stores (.updateApplication a) (.application a)
  | createGrant (g : Grant) : d.Stores (.createGrant g) (.grant { g with id := d.grants.next })
  | createCatalogGrant (g : CatalogGrant) :
      d.Stores (.createCatalogGrant g) (.catalogGrant { g with id := d.catalogGrants.next })
  | createType (t : TypeDefinition) : d.Stores (.createType t) (.type t)
  | createCase (c : CaseRecord) : d.Stores (.createCase c) (.case c)
  | updateCase (c : CaseRecord) (hfound : ∃ e, d.case? c.id = .ok (some e)) :
      d.Stores (.updateCase c) (.case c)

/-- Of these commands, tried one after the other, none that touches the record succeeds. -/
def Spares (record : StoredRecord) : Database → List StorageCommand → Prop
  | _, [] => True
  | d, command :: rest =>
      (command.Touches record → ∃ fault, d.execute command = .error fault) ∧
        Spares record (d.attempt command) rest

/-- Everything that reads the record gives it back as it is, and nothing else under its
key. -/
def Returns (d : Database) : StoredRecord → Prop
  | .application a =>
      d.application? a.uuid = .ok (some a) ∧
      (∃ l, d.listApplications = .ok l ∧ a ∈ l ∧ ∀ b ∈ l, b.uuid = a.uuid → b = a) ∧
      ∀ clientId ∈ a.clientIds, d.clientOwner? clientId = .ok (some a.uuid) ∧
        d.clientApplications clientId = .ok [a]
  | .grant g =>
      ∀ component : Option Component, (∀ c ∈ component, c = g.component) →
        ∃ l, d.listGrants g.application component = .ok l ∧ g ∈ l ∧
          ∀ h ∈ l, h.id = g.id → h = g
  | .catalogGrant g =>
      (∀ component : Option Component, (∀ c ∈ component, c = g.component) →
        ∃ l, d.listCatalogGrants g.application component = .ok l ∧ g ∈ l ∧
          ∀ h ∈ l, h.id = g.id → h = g) ∧
      ∃ holders, d.catalogGrantHolders g.catalog g.component = .ok holders ∧
        g.application ∈ holders
  | .type t =>
      d.type? t.reference = .ok (some t) ∧
      ∀ catalog, t.catalog = some catalog →
        ∃ l, d.catalogTypes catalog t.component = .ok l ∧ t.reference ∈ l
  | .case c =>
      d.case? c.id = .ok (some c) ∧
      ∀ main, ∃ l, d.subCases main = .ok l ∧ (c.mainCase = some main → c ∈ l) ∧
        ∀ e ∈ l, e.id = c.id → e = c

end Database

/-! ## What a command makes of a store -/

namespace Store

variable {s t : Store} {command : StorageCommand} {record : StoredRecord}

/-- What a command makes of a store when it succeeds. -/
inductive Executes (s : Store) : StorageCommand → Store → Prop
  | saveSecret (clientId secret : String) :
      s.Executes (.saveSecret clientId secret) (s.saveSecret clientId secret)
  | createApplication {a : Application} {applications : Table ApplicationRow.uuid}
      {clients : Table ClientRow.clientId}
      (h : s.createApplication a = .ok { s with applications, clients }) :
      s.Executes (.createApplication a) { s with applications, clients }
  | updateApplication {a : Application} {applications : Table ApplicationRow.uuid}
      {clients : Table ClientRow.clientId}
      (h : s.updateApplication a = .ok { s with applications, clients }) :
      s.Executes (.updateApplication a) { s with applications, clients }
  | deleteApplication (uuid : String) :
      s.Executes (.deleteApplication uuid) (s.deleteApplication uuid)
  | createGrant (g : Grant) : s.Executes (.createGrant g) (s.createGrant g).2
  | deleteGrant (id : Nat) : s.Executes (.deleteGrant id) (s.deleteGrant id)
  | deleteApplicationGrants (uuid : String) :
      s.Executes (.deleteApplicationGrants uuid) (s.deleteApplicationGrants uuid)
  | createCatalogGrant (g : CatalogGrant) :
      s.Executes (.createCatalogGrant g)
        { s with catalogGrants := s.catalogGrants.add fun id => { g with id } }
  | deleteCatalogGrant (id : Nat) : s.Executes (.deleteCatalogGrant id) (s.deleteCatalogGrant id)
  | deleteApplicationCatalogGrants (uuid : String) :
      s.Executes (.deleteApplicationCatalogGrants uuid) (s.deleteApplicationCatalogGrants uuid)
  | createType {d : TypeDefinition} {types : Table TypeDefinition.reference}
      (h : s.types.add? d = some types) : s.Executes (.createType d) { s with types }
  | createCase {c : CaseRecord} {cases : Table CaseRecord.id} (h : s.cases.add? c = some cases) :
      s.Executes (.createCase c) { s with cases }
  | updateCase (c : CaseRecord) : s.Executes (.updateCase c) (s.updateCase c)
  | createStatus (r : StatusRecord) :
      s.Executes (.createStatus r) { s with statuses := s.statuses.add fun _ => s.keptStatus r }
  | saveResult (r : ResultRecord) : s.Executes (.saveResult r) (s.saveResult r)

theorem executes_of_ok (h : s.execute command = .ok t) : s.Executes command t := by
  cases command with
  | saveSecret clientId secret => cases h; exact .saveSecret clientId secret
  | createApplication a =>
      obtain ⟨_, _, -, -, rfl⟩ := createApplication_ok h
      exact .createApplication h
  | updateApplication a =>
      obtain ⟨_, -, rfl⟩ := updateApplication_ok h
      exact .updateApplication h
  | deleteApplication uuid => cases h; exact .deleteApplication uuid
  | createGrant g => cases h; exact .createGrant g
  | deleteGrant id => cases h; exact .deleteGrant id
  | deleteApplicationGrants uuid => cases h; exact .deleteApplicationGrants uuid
  | createCatalogGrant g =>
      obtain ⟨⟨g', t'⟩, hcreate, rfl⟩ := except_of_map_ok h
      obtain ⟨rfl, rfl⟩ := createCatalogGrant_ok hcreate
      exact .createCatalogGrant g
  | deleteCatalogGrant id => cases h; exact .deleteCatalogGrant id
  | deleteApplicationCatalogGrants uuid => cases h; exact .deleteApplicationCatalogGrants uuid
  | createType d =>
      obtain ⟨types, hadd, rfl⟩ := createType_ok h
      exact .createType hadd
  | createCase c =>
      obtain ⟨cases, hadd, rfl⟩ := createCase_ok h
      exact .createCase hadd
  | updateCase c => cases h; exact .updateCase c
  | createStatus r =>
      obtain ⟨⟨r', t'⟩, hcreate, rfl⟩ := except_of_map_ok h
      obtain ⟨rfl, -⟩ := createStatus_ok hcreate
      exact .createStatus r
  | saveResult r => cases h; exact .saveResult r

/-! ## Numbers and times -/

/-- Grants stand in the order of their numbers, and times are as they are kept. -/
structure Regular (s : Store) : Prop where
  grants : s.grants.Ascending Grant.id
  catalogGrants : s.catalogGrants.Ascending CatalogGrant.id
  statuses : s.InMicroseconds

theorem Executes.regular (h : s.Executes command t) (hs : s.Regular) : t.Regular := by
  obtain ⟨hgrants, hcatalogGrants, hstatuses⟩ := hs
  cases h with
  | deleteApplication uuid => exact ⟨hgrants.filter _, hcatalogGrants.filter _, hstatuses⟩
  | createGrant g =>
      have hadd : (s.grants.add fun id => { g with id }).Ascending Grant.id := hgrants.add rfl
      exact ⟨hadd, hcatalogGrants, hstatuses⟩
  | deleteGrant id => exact ⟨hgrants.filter _, hcatalogGrants, hstatuses⟩
  | deleteApplicationGrants uuid => exact ⟨hgrants.filter _, hcatalogGrants, hstatuses⟩
  | createCatalogGrant g =>
      have hadd : (s.catalogGrants.add fun id => { g with id }).Ascending CatalogGrant.id :=
        hcatalogGrants.add rfl
      exact ⟨hgrants, hadd, hstatuses⟩
  | deleteCatalogGrant id => exact ⟨hgrants, hcatalogGrants.filter _, hstatuses⟩
  | deleteApplicationCatalogGrants uuid => exact ⟨hgrants, hcatalogGrants.filter _, hstatuses⟩
  | createStatus r =>
      refine ⟨hgrants, hcatalogGrants, fun q hq => ?_⟩
      rcases List.mem_append.1 hq with hq | hq
      · exact hstatuses q hq
      · rw [List.mem_singleton.1 hq]
        exact r.setAt.truncated_truncated
  | _ => exact ⟨hgrants, hcatalogGrants, hstatuses⟩

theorem Regular.attempt (hs : s.Regular) (command : StorageCommand) :
    (s.attempt command).Regular := by
  rw [Store.attempt]
  split
  · next t h => exact (executes_of_ok h).regular hs
  · exact hs

theorem Regular.after (hs : s.Regular) (commands : List StorageCommand) :
    (s.after commands).Regular := by
  induction commands generalizing s with
  | nil => exact hs
  | cons command rest ih => exact ih (hs.attempt command)

theorem regular_empty : ({} : Store).Regular :=
  ⟨.of_empty rfl, .of_empty rfl, fun _ hr => by cases hr⟩

theorem database_attempt (hs : s.InMicroseconds) (command : StorageCommand) :
    s.database.attempt command = (s.attempt command).database := by
  rw [Database.attempt, attempt, database_execute hs]
  cases s.execute command <;> rfl

theorem database_after (hs : s.Regular) (commands : List StorageCommand) :
    s.database.after commands = (s.after commands).database := by
  induction commands generalizing s with
  | nil => rfl
  | cons command rest ih =>
      rw [Database.after, List.foldl_cons, database_attempt hs.statuses]
      exact ih (hs.attempt command)

/-! ## Records that are held -/

/-- The store holds the record as it is. -/
def Holds (s : Store) : StoredRecord → Prop
  | .application a => s.application? a.uuid = some a
  | .grant g => g ∈ s.grants.rows
  | .catalogGrant g => g ∈ s.catalogGrants.rows
  | .type d => s.type? d.reference = some d
  | .case c => s.case? c.id = some c

theorem Executes.application (h : s.Executes command t) {a : Application}
    (hnot : ¬ command.Touches (.application a)) (hs : s.Holds (.application a)) :
    t.Holds (.application a) := by
  cases h with
  | @createApplication b applications clients h =>
      have hne : a.uuid ≠ b.uuid := by
        intro heq
        have hfree := application?_eq_none_of_createApplication h
        rw [← heq, hs] at hfree
        cases hfree
      exact (application?_createApplication h hne).trans hs
  | updateApplication h => exact (application?_updateApplication h (Ne.symm hnot)).trans hs
  | deleteApplication uuid => exact (s.application?_deleteApplication (Ne.symm hnot)).trans hs
  | _ => exact hs

theorem Executes.grant (h : s.Executes command t) {g : Grant}
    (hnot : ¬ command.Touches (.grant g)) (hs : g ∈ s.grants.rows) : g ∈ t.grants.rows := by
  cases h with
  | createGrant g => exact List.mem_append_left _ hs
  | deleteGrant id => exact List.mem_filter.2 ⟨hs, decide_eq_true (Ne.symm hnot)⟩
  | deleteApplicationGrants uuid => exact List.mem_filter.2 ⟨hs, decide_eq_true (Ne.symm hnot)⟩
  | deleteApplication uuid => exact List.mem_filter.2 ⟨hs, decide_eq_true (Ne.symm hnot)⟩
  | _ => exact hs

theorem Executes.catalogGrant (h : s.Executes command t) {g : CatalogGrant}
    (hnot : ¬ command.Touches (.catalogGrant g)) (hs : g ∈ s.catalogGrants.rows) :
    g ∈ t.catalogGrants.rows := by
  cases h with
  | createCatalogGrant g => exact List.mem_append_left _ hs
  | deleteCatalogGrant id => exact List.mem_filter.2 ⟨hs, decide_eq_true (Ne.symm hnot)⟩
  | deleteApplicationCatalogGrants uuid =>
      exact List.mem_filter.2 ⟨hs, decide_eq_true (Ne.symm hnot)⟩
  | deleteApplication uuid => exact List.mem_filter.2 ⟨hs, decide_eq_true (Ne.symm hnot)⟩
  | _ => exact hs

theorem Executes.type (h : s.Executes command t) {d : TypeDefinition}
    (hs : s.Holds (.type d)) : t.Holds (.type d) := by
  cases h with
  | createType hadd => exact Table.get?_add?_of_some hadd hs
  | _ => exact hs

theorem Executes.case (h : s.Executes command t) {c : CaseRecord}
    (hnot : ¬ command.Touches (.case c)) (hs : s.Holds (.case c)) : t.Holds (.case c) := by
  cases h with
  | createCase hadd => exact Table.get?_add?_of_some hadd hs
  | updateCase b =>
      have hfound : s.cases.get? c.id = some c := hs
      show (s.cases.replace b).get? c.id = some c
      rw [Table.get?_replace, hfound, Option.map_some, Table.instead, if_neg (Ne.symm hnot)]
  | _ => exact hs

/-- What is held stays held under a command that does not touch it. -/
theorem Executes.holds (h : s.Executes command t) (hnot : ¬ command.Touches record)
    (hs : s.Holds record) : t.Holds record := by
  cases record with
  | application a => exact h.application hnot hs
  | grant g => exact h.grant hnot hs
  | catalogGrant g => exact h.catalogGrant hnot hs
  | type d => exact h.type hs
  | case c => exact h.case hnot hs

theorem Holds.attempt (hs : s.Holds record)
    (h : command.Touches record → ∃ fault, s.execute command = .error fault) :
    (s.attempt command).Holds record := by
  rw [Store.attempt]
  split
  · next t ht =>
      refine (executes_of_ok ht).holds (fun htouches => ?_) hs
      obtain ⟨fault, hfault⟩ := h htouches
      rw [ht] at hfault
      cases hfault
  · exact hs

theorem Holds.after (hs : s.Regular) (hholds : s.Holds record) {commands : List StorageCommand}
    (h : s.database.Spares record commands) : (s.after commands).Holds record := by
  induction commands generalizing s with
  | nil => exact hholds
  | cons command rest ih =>
      obtain ⟨hfirst, hrest⟩ := h
      rw [database_attempt hs.statuses] at hrest
      refine ih (hs.attempt command) (hholds.attempt fun htouches => ?_) hrest
      obtain ⟨fault, hfault⟩ := hfirst htouches
      rw [database_execute hs.statuses] at hfault
      cases hexecute : s.execute command with
      | error fault => exact ⟨fault, rfl⟩
      | ok t =>
          rw [hexecute] at hfault
          cases hfault

/-! ### Storing -/

/-- What a command stores is held when it succeeds. -/
theorem holds_of_stores (hstores : s.database.Stores command record)
    (h : s.execute command = .ok t) : t.Holds record := by
  cases hstores with
  | createApplication a hfree =>
      refine application?_of_createApplication_of_clients (fun row hrow heq => ?_) h
      exact hfree row.row (List.mem_map_of_mem hrow) (congrArg SqlValue.text heq)
  | updateApplication a hfound =>
      obtain ⟨b, hb⟩ := hfound
      rw [database_application?] at hb
      refine application?_of_updateApplication ?_ h
      rw [Except.ok.inj hb]
      rfl
  | createGrant g =>
      cases h
      exact List.mem_append_right _ (List.mem_singleton_self _)
  | createCatalogGrant g =>
      cases executes_of_ok h
      exact List.mem_append_right _ (List.mem_singleton_self _)
  | createType d =>
      obtain ⟨types, hadd, rfl⟩ := createType_ok h
      exact (Table.get?_add? hadd _).trans (if_pos rfl)
  | createCase c =>
      obtain ⟨cases, hadd, rfl⟩ := createCase_ok h
      exact (Table.get?_add? hadd _).trans (if_pos rfl)
  | updateCase c hfound =>
      cases h
      obtain ⟨e, he⟩ := hfound
      rw [database_case?] at he
      have hrow : s.cases.get? c.id = some e := Except.ok.inj he
      show (s.cases.replace c).get? c.id = some c
      rw [Table.get?_replace, hrow, Option.map_some, Table.instead,
        if_pos (Table.key_of_get? hrow)]

/-! ### Giving back -/

theorem Holds.application_eq {a b : Application} (hs : s.Holds (.application a))
    (hb : b ∈ s.listApplications) (huuid : b.uuid = a.uuid) : b = a := by
  obtain ⟨row, hrow, rfl⟩ := List.mem_map.1 hb
  have hfound : s.applications.get? a.uuid = some row :=
    Table.get?_eq_some.2 ⟨List.mem_mergeSort.1 hrow, huuid⟩
  have hrowFound : (s.applications.get? a.uuid).map s.ofRow = some a := hs
  rw [hfound] at hrowFound
  exact Option.some.inj hrowFound

theorem Holds.mem_listApplications {a : Application} (hs : s.Holds (.application a)) :
    a ∈ s.listApplications := by
  obtain ⟨row, hrow, rfl⟩ := Option.map_eq_some_iff.1 hs
  exact List.mem_map_of_mem (List.mem_mergeSort.2 (Table.mem_of_get? hrow))

theorem Holds.clientOwner? {a : Application} (hs : s.Holds (.application a)) {clientId : String}
    (h : clientId ∈ a.clientIds) : s.clientOwner? clientId = some a.uuid := by
  rw [clientIds_of_application? hs] at h
  exact clientOwner?_eq_some.2 (mem_clientIds.1 h)

theorem all_of_forall {c : Component} {component : Option Component}
    (h : ∀ c' ∈ component, c' = c) : component.all (· = c) = true := by
  cases component with
  | none => rfl
  | some c' => exact decide_eq_true (h c' rfl)

theorem returns_application {a : Application} (h : s.Holds (.application a)) :
    s.database.Returns (.application a) := by
  have hfound : s.application? a.uuid = some a := h
  refine ⟨?_, ⟨_, s.database_listApplications, h.mem_listApplications, fun b hb huuid =>
    h.application_eq hb huuid⟩, fun clientId hmem => ⟨?_, ?_⟩⟩
  · rw [database_application?, hfound]
  · rw [database_clientOwner?, h.clientOwner? hmem]
  · rw [database_clientApplications, clientApplications, h.clientOwner? hmem]
    show Except.ok (s.application? a.uuid).toList = _
    rw [hfound, Option.toList_some]

theorem returns_grant (hs : s.grants.Ascending Grant.id) {g : Grant} (h : g ∈ s.grants.rows) :
    s.database.Returns (.grant g) := by
  intro component hcomponent
  have hmem : g ∈ s.listGrants g.application := List.mem_filter.2 ⟨h, decide_eq_true rfl⟩
  have hlisted : g ∈ (s.listGrants g.application).filter fun g' =>
      component.all (· = g'.component) := List.mem_filter.2 ⟨hmem, all_of_forall hcomponent⟩
  refine ⟨_, database_listGrants hs _ component, hlisted, fun g' hg' hid => ?_⟩
  have hg : g' ∈ s.grants.rows := List.mem_of_mem_filter (List.mem_of_mem_filter hg')
  exact hs.eq_of_id hg h hid

theorem returns_catalogGrant (hs : s.catalogGrants.Ascending CatalogGrant.id) {g : CatalogGrant}
    (h : g ∈ s.catalogGrants.rows) : s.database.Returns (.catalogGrant g) := by
  refine ⟨fun component hcomponent => ?_, ⟨_, s.database_catalogGrantHolders _ _, ?_⟩⟩
  · have hmem : g ∈ s.listCatalogGrants g.application := mem_listCatalogGrants.2 ⟨h, rfl⟩
    have hlisted : g ∈ (s.listCatalogGrants g.application).filter fun g' =>
        component.all (· = g'.component) := List.mem_filter.2 ⟨hmem, all_of_forall hcomponent⟩
    refine ⟨_, database_listCatalogGrants hs _ component, hlisted, fun g' hg' hid => ?_⟩
    have hg := mem_listCatalogGrants.1 (List.mem_of_mem_filter hg')
    exact hs.eq_of_id hg.1 h hid
  · rw [catalogGrantHolders, SortedSet.mem_ofList]
    exact List.mem_map.2 ⟨g, List.mem_filter.2 ⟨h, decide_eq_true ⟨rfl, rfl⟩⟩, rfl⟩

theorem returns_type {d : TypeDefinition} (h : s.Holds (.type d)) :
    s.database.Returns (.type d) := by
  have hfound : s.type? d.reference = some d := h
  refine ⟨?_, fun catalog hcatalog => ⟨_, s.database_catalogTypes _ _, ?_⟩⟩
  · rw [database_type?, hfound]
  · exact mem_catalogTypes.2 ⟨d, Table.mem_of_get? hfound, hcatalog, rfl, rfl⟩

theorem returns_case {c : CaseRecord} (h : s.Holds (.case c)) : s.database.Returns (.case c) := by
  have hfound : s.case? c.id = some c := h
  refine ⟨?_, fun main => ⟨_, s.database_subCases main, fun hmain => ?_, fun e he hid => ?_⟩⟩
  · rw [database_case?, hfound]
  · exact mem_subCases.2 ⟨Table.mem_of_get? hfound, hmain⟩
  · have hrow : s.cases.get? c.id = some e := Table.get?_eq_some.2 ⟨(mem_subCases.1 he).1, hid⟩
    exact Option.some.inj (hrow.symm.trans hfound)

/-- What a store holds its database gives back. -/
theorem Holds.returns (hs : s.Regular) (h : s.Holds record) : s.database.Returns record := by
  cases record with
  | application a => exact returns_application h
  | grant g => exact returns_grant hs.grants h
  | catalogGrant g => exact returns_catalogGrant hs.catalogGrants h
  | type d => exact returns_type h
  | case c => exact returns_case h

end Store

/-! ## Histories -/

namespace Database

/-- A record that was stored is given back, whatever came before, and whatever comes after
except for a command that touches it. -/
theorem storage_returns_record {earlier later : List StorageCommand} {command : StorageCommand}
    {record : StoredRecord} {d : Database} (hstores : (after {} earlier).Stores command record)
    (hexecute : (after {} earlier).execute command = .ok d) (hlater : d.Spares record later) :
    (d.after later).Returns record := by
  have hs : (Store.after {} earlier).Regular := Store.regular_empty.after earlier
  have hearlier : after {} earlier = (Store.after {} earlier).database :=
    Store.database_after Store.regular_empty earlier
  rw [hearlier] at hstores hexecute
  rw [Store.database_execute hs.statuses] at hexecute
  obtain ⟨t, ht, rfl⟩ := except_of_map_ok hexecute
  have htRegular : t.Regular := (Store.executes_of_ok ht).regular hs
  have hholds : t.Holds record := Store.holds_of_stores hstores ht
  rw [Store.database_after htRegular]
  exact (hholds.after htRegular hlater).returns (htRegular.after later)

/-! ### A case that is older than its register -/

/-- A case with years that are written with a sign, and texts that are escaped. -/
def oldCase : CaseRecord where
  id := "z-44"
  caseType := ⟨"https://catalogi.example/zaaktypen/3"⟩
  confidentiality := .zeerGeheim
  lifecycle := .reopened
  endDate := Date.of? (-43) 3 15
  mainCase := some "z-1"
  suspended := true
  suspensionReason := some "\"et tu\""
  everSuspended := true
  archiveNomination := some ""
  archiveActionDate := Date.of? 262142 12 31
  properties := .ofList [("\n", "é"), ("plaats", "")]
  decisions := [
    ⟨⟨-43, 3, 17, by decide⟩, none⟩,
    ⟨⟨0, 2, 29, by decide⟩, some ⟨12026, 1, 1, by decide⟩⟩]
  relatedEndDates := [⟨-262143, 1, 1, by decide⟩]

/-- The case is changed into this one. Later it is created once more, in vain, a copy of it is
changed, and an application that has its id for a uuid is removed. -/
theorem storage_returns_oldCase :
    ∃ d, (after {} [.createCase { oldCase with lifecycle := .new, endDate := none },
          .createCase { oldCase with id := "z-45" }]).execute (.updateCase oldCase) = .ok d ∧
      (d.after [.createCase { oldCase with caseType := ⟨"4"⟩ },
        .updateCase { oldCase with id := "z-45", properties := {} },
        .deleteApplication "z-44"]).Returns (.case oldCase) := by
  have hfound : (after {} [.createCase { oldCase with lifecycle := .new, endDate := none },
      .createCase { oldCase with id := "z-45" }]).case? oldCase.id =
        .ok (some { oldCase with lifecycle := .new, endDate := none }) := by
    have hstore := Store.database_after Store.regular_empty
      [.createCase { oldCase with lifecycle := .new, endDate := none },
        .createCase { oldCase with id := "z-45" }]
    rw [show (({} : Store).database) = {} from rfl] at hstore
    rw [hstore, Store.database_case?]
    rfl
  refine ⟨_, rfl, storage_returns_record (.updateCase oldCase ⟨_, hfound⟩) rfl
    ⟨fun h => h.elim, fun h => ?_, fun h => h.elim, trivial⟩⟩
  exact absurd (show "z-45" = "z-44" from h) (by decide)

end Database

end CaseAccess
