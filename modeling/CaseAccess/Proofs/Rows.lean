import CaseAccess.Proofs.Effect
import CaseAccess.Store.Cases
import CaseAccess.Store.Grants
import Mathlib.Data.List.Nodup

/-!
# Rows of the store

What the theory of an installation needs to know of the two kinds of rows: a key of a
table leads to one row, and numbered rows stand in the order of their numbers, with the
last number given not below any of them. That they do is kept by adding a row that
takes its number, and by taking rows away.

A function of the store that may fail has, if it does not, changed one table or two, and
what it leaves of the others is read off an equation between the two stores.
-/

namespace CaseAccess

/-- Of rows with distinct keys, one is all that is found under its key. -/
theorem filter_eq_singleton {α κ : Type} [DecidableEq κ] {key : α → κ} {l : List α}
    (hdistinct : (l.map key).Nodup) {a : α} (ha : a ∈ l) : l.filter (key · = key a) = [a] := by
  induction l with
  | nil => cases ha
  | cons b rest ih =>
      rw [List.map_cons, List.nodup_cons] at hdistinct
      rcases List.mem_cons.1 ha with rfl | ha
      · rw [List.filter_cons_of_pos (by simp), List.filter_eq_nil_iff.2]
        intro x hx hkey
        rw [decide_eq_true_eq] at hkey
        exact hdistinct.1 (hkey ▸ List.mem_map_of_mem hx)
      · have hne : key b ≠ key a := fun h => hdistinct.1 (h ▸ List.mem_map_of_mem ha)
        rw [List.filter_cons_of_neg (by simpa using hne), ih hdistinct.2 ha]

namespace Table

variable {α κ : Type} {key : α → κ} [DecidableEq κ]

theorem get?_eq_some {t : Table key} {k : κ} {a : α} :
    t.get? k = some a ↔ a ∈ t.rows ∧ key a = k := by
  refine ⟨fun h => ⟨mem_of_get? h, key_of_get? h⟩, ?_⟩
  rintro ⟨ha, rfl⟩
  obtain ⟨rows, hdistinct⟩ := t
  simp only [Table.get?]
  induction rows with
  | nil => cases ha
  | cons b rest ih =>
      rw [List.map_cons, List.nodup_cons] at hdistinct
      rw [List.find?_cons]
      rcases List.mem_cons.1 ha with rfl | ha
      · simp
      · have hne : key b ≠ key a := by
          intro h
          exact hdistinct.1 (h ▸ List.mem_map_of_mem ha)
        simp only [hne, decide_false]
        exact ih hdistinct.2 ha

theorem mem_replace {t : Table key} {a b : α} (h : b ∈ (t.replace a).rows) :
    b = a ∨ b ∈ t.rows ∧ key b ≠ key a := by
  obtain ⟨b', hb', rfl⟩ := List.mem_map.1 h
  by_cases hkey : key b' = key a
  · exact .inl (if_pos hkey)
  · refine .inr ?_
    rw [instead, if_neg hkey]
    exact ⟨hb', hkey⟩

theorem get?_replace (t : Table key) (a : α) (k : κ) :
    (t.replace a).get? k = (t.get? k).map (instead key a) := by
  have hkey : ∀ b, key (instead key a b) = key b := by
    intro b
    by_cases h : key b = key a
    · rw [instead, if_pos h, h]
    · rw [instead, if_neg h]
  rw [get?, get?, replace, List.find?_map]
  congr 2
  funext b
  rw [Function.comp_apply, hkey]

theorem add?_eq_some {t t' : Table key} {a : α} :
    t.add? a = some t' ↔ t.get? (key a) = none ∧ t'.rows = t.rows ++ [a] := by
  rw [get?_eq_none, add?]
  split
  · next htaken => exact ⟨fun h => (by cases h), fun h => absurd htaken h.1⟩
  · next hfree =>
      rw [Option.some.injEq]
      refine ⟨fun h => ⟨hfree, by rw [← h]⟩, fun h => ext_rows h.2.symm⟩

/-- A row is added under a key that is free. -/
theorem exists_add? {t : Table key} {a : α} (h : t.get? (key a) = none) :
    ∃ t', t.add? a = some t' := by
  rw [add?, dif_neg (get?_eq_none.1 h)]
  exact ⟨_, rfl⟩

theorem get?_of_add? {t t' : Table key} {a : α} (h : t.add? a = some t') :
    t.get? (key a) = none :=
  (add?_eq_some.1 h).1

/-- The row that was added is found by its key, and every other row as before. -/
theorem get?_add? {t t' : Table key} {a : α} (h : t.add? a = some t') (k : κ) :
    t'.get? k = if key a = k then some a else t.get? k := by
  obtain ⟨hfree, hrows⟩ := add?_eq_some.1 h
  rw [get?, get?, hrows, List.find?_append, List.find?_singleton]
  by_cases hk : key a = k
  · have hnone : t.rows.find? (key · = k) = none := hk ▸ hfree
    rw [if_pos hk, if_pos (decide_eq_true hk), hnone]
    rfl
  · rw [if_neg hk, if_neg (by simpa using hk)]
    exact Option.or_none

theorem get?_add?_of_some {t t' : Table key} {a b : α} {k : κ} (h : t.add? a = some t')
    (hb : t.get? k = some b) : t'.get? k = some b := by
  have hne : key a ≠ k := by
    rintro rfl
    rw [get?_of_add? h] at hb
    cases hb
  rw [get?_add? h, if_neg hne, hb]

theorem get?_erase (t : Table key) (k k' : κ) :
    (t.erase k).get? k' = if k' = k then none else t.get? k' := by
  rw [get?, get?, erase, filter, List.find?_filter]
  by_cases hk : k' = k
  · rw [if_pos hk, List.find?_eq_none]
    intro a _ ha
    simp only [decide_eq_true_eq] at ha
    exact ha.1 (ha.2.trans hk)
  · rw [if_neg hk]
    congr 1
    funext a
    by_cases ha : key a = k'
    · simp [ha, hk]
    · simp [ha]

/-- A key leads to a row as long as rows are only put into a table. -/
theorem isSome_get?_put {t : Table key} {k : κ} (a : α) (h : (t.get? k).isSome = true) :
    ((t.put a).get? k).isSome = true := by
  rw [put]
  cases hadd : t.add? a with
  | none =>
      rw [Option.getD_none, get?_replace, Option.isSome_map]
      exact h
  | some t' =>
      rw [Option.getD_some, get?_add? hadd]
      by_cases hk : key a = k
      · rw [if_pos hk]
        rfl
      · rw [if_neg hk]
        exact h

end Table

namespace Numbered

variable {α : Type} {id : α → Nat} {t : Numbered α}

/-- The rows stand in the order of their numbers, and no number is above the last one
given. -/
structure Ascending (id : α → Nat) (t : Numbered α) : Prop where
  rows : t.rows.Pairwise fun a b => id a < id b
  bounded : ∀ a ∈ t.rows, id a ≤ t.last

theorem Ascending.of_empty (h : t.rows = []) : t.Ascending id where
  rows := by
    rw [h]
    exact List.Pairwise.nil
  bounded := by
    rw [h]
    intro a ha
    cases ha

theorem Ascending.add (h : t.Ascending id) {a : Nat → α} (ha : id (a t.next) = t.next) :
    (t.add a).Ascending id where
  rows := by
    refine List.pairwise_append.2 ⟨h.rows, List.pairwise_singleton _ _, fun b hb b' hb' => ?_⟩
    rw [List.mem_singleton] at hb'
    subst hb'
    have hle := h.bounded b hb
    rw [ha, next]
    omega
  bounded := by
    intro b hb
    rcases List.mem_append.1 hb with hb | hb
    · have hle := h.bounded b hb
      show id b ≤ t.last + 1
      omega
    · rw [List.mem_singleton] at hb
      subst hb
      exact Nat.le_of_eq ha

theorem Ascending.filter (h : t.Ascending id) (p : α → Bool) : (t.filter p).Ascending id where
  rows := h.rows.filter p
  bounded a ha := h.bounded a (List.mem_filter.1 ha).1

/-- No two rows have one number. -/
theorem Ascending.eq_of_id (h : t.Ascending id) {a b : α} (ha : a ∈ t.rows) (hb : b ∈ t.rows)
    (hid : id a = id b) : a = b := by
  have hdistinct : (t.rows.map id).Nodup :=
    List.pairwise_map.2 (h.rows.imp fun hlt => Nat.ne_of_lt hlt)
  exact List.inj_on_of_nodup_map hdistinct ha hb hid

end Numbered

/-! ## What is written when nothing fails -/

theorem orKeyTaken_eq_ok {α : Type} {o : Option α} {a : α} :
    orKeyTaken o = .ok a ↔ o = some a := by
  cases o with
  | none => simp [orKeyTaken]
  | some b => simp [orKeyTaken]

namespace Store

variable {s t : Store}

theorem addClients_ok {uuid : String} {clientIds : List String}
    (h : s.addClients uuid clientIds = .ok t) :
    ∃ clients, clients.rows = s.clients.rows ++ clientIds.map (⟨·, uuid⟩) ∧
      t = { s with clients := clients } := by
  induction clientIds generalizing s with
  | nil =>
      rw [addClients] at h
      cases h
      exact ⟨t.clients, by simp, rfl⟩
  | cons clientId rest ih =>
      rw [addClients] at h
      obtain ⟨added, hadd, h⟩ := except_of_bind_ok h
      obtain ⟨-, hadded⟩ := Table.add?_eq_some.1 (orKeyTaken_eq_ok.1 hadd)
      obtain ⟨clients, hclients, rfl⟩ := ih h
      exact ⟨clients, by simp [hclients, hadded], rfl⟩

/-- Client identifiers are added when each is given once and none is taken. -/
theorem exists_addClients (uuid : String) {clientIds : List String} (hdistinct : clientIds.Nodup)
    (hfree : ∀ clientId ∈ clientIds, s.clients.get? clientId = none) :
    ∃ t, s.addClients uuid clientIds = .ok t := by
  induction clientIds generalizing s with
  | nil => exact ⟨s, rfl⟩
  | cons clientId rest ih =>
      obtain ⟨hnew, hdistinct⟩ := List.nodup_cons.1 hdistinct
      obtain ⟨added, hadd⟩ := Table.exists_add? (a := (⟨clientId, uuid⟩ : ClientRow))
        (hfree clientId List.mem_cons_self)
      have hstill : ∀ id ∈ rest, added.get? id = none := by
        intro id hid
        have hne : clientId ≠ id := fun h => hnew (h ▸ hid)
        rw [Table.get?_add? hadd, if_neg hne]
        exact hfree id (List.mem_cons_of_mem _ hid)
      obtain ⟨t, ht⟩ := ih (s := { s with clients := added }) hdistinct hstill
      refine ⟨t, ?_⟩
      rw [addClients, hadd]
      exact ht

theorem createApplication_ok {a : Application} (h : s.createApplication a = .ok t) :
    ∃ applications clients,
      s.applications.add? ⟨a.uuid, a.label, a.hasAllPermissions⟩ = some applications ∧
      clients.rows = s.clients.rows ++ a.clientIds.toList.map (⟨·, a.uuid⟩) ∧
      t = { s with applications := applications, clients := clients } := by
  obtain ⟨applications, hadd, h⟩ := except_of_bind_ok h
  obtain ⟨clients, hclients, rfl⟩ := addClients_ok h
  exact ⟨applications, clients, orKeyTaken_eq_ok.1 hadd, hclients, rfl⟩

theorem updateApplication_ok {a : Application} (h : s.updateApplication a = .ok t) :
    ∃ clients,
      clients.rows = s.clients.rows.filter (·.application ≠ a.uuid) ++
        a.clientIds.toList.map (⟨·, a.uuid⟩) ∧
      t = { s with
        applications := s.applications.replace ⟨a.uuid, a.label, a.hasAllPermissions⟩
        clients := clients } := by
  obtain ⟨clients, hclients, rfl⟩ := addClients_ok h
  exact ⟨clients, hclients, rfl⟩

theorem createType_ok {d : TypeDefinition} (h : s.createType d = .ok t) :
    ∃ types, s.types.add? d = some types ∧ t = { s with types := types } := by
  obtain ⟨types, hadd, h⟩ := except_of_bind_ok h
  cases h
  exact ⟨types, orKeyTaken_eq_ok.1 hadd, rfl⟩

theorem createCatalogGrant_ok {g g' : CatalogGrant} (h : s.createCatalogGrant g = .ok (g', t)) :
    g' = { g with id := s.catalogGrants.next } ∧
      t = { s with catalogGrants := s.catalogGrants.add fun _ => g' } := by
  rw [createCatalogGrant] at h
  split at h
  · cases h
  · cases h
    exact ⟨rfl, rfl⟩

theorem createCase_ok {z : CaseRecord} (h : s.createCase z = .ok t) :
    ∃ cases, s.cases.add? z = some cases ∧ t = { s with cases := cases } := by
  obtain ⟨cases, hadd, h⟩ := except_of_bind_ok h
  cases h
  exact ⟨cases, orKeyTaken_eq_ok.1 hadd, rfl⟩

/-- The row that a status is kept as. -/
def keptStatus (s : Store) (r : StatusRecord) : StatusRecord :=
  { r with id := s.statuses.next, setAt := r.setAt.truncated }

theorem createStatus_ok {r r' : StatusRecord} (h : s.createStatus r = .ok (r', t)) :
    t = { s with statuses := s.statuses.add fun _ => s.keptStatus r } ∧
      ∀ q ∈ s.statuses.rows, q.caseId = r.caseId → q.setAt ≠ (s.keptStatus r).setAt := by
  rw [createStatus] at h
  simp only at h
  split at h
  · cases h
  · next hfree =>
      cases h
      refine ⟨rfl, fun q hq hcase hset => hfree ?_⟩
      exact List.any_eq_true.2 ⟨q, hq, decide_eq_true ⟨hcase, hset⟩⟩

theorem createStatus_given {r r' : StatusRecord} (h : s.createStatus r = .ok (r', t)) :
    r' = { r with id := s.statuses.next } := by
  rw [createStatus] at h
  simp only at h
  split at h
  · cases h
  · cases h
    rfl

/-- Rewriting cases leaves everything else alone. -/
theorem foldl_updateCase_eq (l : List CaseRecord) (s : Store) :
    ∃ cases, l.foldl (fun s z => s.updateCase z) s = { s with cases := cases } := by
  induction l generalizing s with
  | nil => exact ⟨s.cases, rfl⟩
  | cons z rest ih =>
      obtain ⟨cases, h⟩ := ih (s.updateCase z)
      exact ⟨cases, h⟩

theorem mem_subCases {z : CaseRecord} {id : String} :
    z ∈ s.subCases id ↔ z ∈ s.cases.rows ∧ z.mainCase = some id := by
  rw [subCases, List.mem_mergeSort, List.mem_filter, decide_eq_true_eq]

end Store

end CaseAccess
