/-!
# Tables

A table holds rows with a key each, and no two rows have one key, so a row can be
looked up by its key and nothing depends on which of several is found. A row is
added only under a key that is free; a row that replaces another keeps its place.

Other rows are told apart by a number that they get when they are added. A number is
given once: it is not given again when its row is gone.
-/

namespace CaseAccess

/-- Rows with a key each, no two of them with the same. -/
structure Table {α κ : Type} (key : α → κ) where
  rows : List α
  distinct : (rows.map key).Nodup

namespace Table

variable {α κ : Type} {key : α → κ}

theorem ext_rows {s t : Table key} (h : s.rows = t.rows) : s = t := by
  cases s; cases t; cases h; rfl

instance [DecidableEq α] : DecidableEq (Table key) := fun s t =>
  if h : s.rows = t.rows then isTrue (ext_rows h) else isFalse fun e => h (e ▸ rfl)

instance [Repr α] : Repr (Table key) := ⟨fun t n => reprPrec t.rows n⟩

def empty : Table key := ⟨[], by simp⟩

instance : EmptyCollection (Table key) := ⟨empty⟩
instance : Inhabited (Table key) := ⟨empty⟩

/-- The rows of which a predicate holds. -/
def filter (p : α → Bool) (t : Table key) : Table key where
  rows := t.rows.filter p
  distinct := t.distinct.sublist (List.filter_sublist.map key)

variable [DecidableEq κ]

/-- The row with a key. -/
def get? (t : Table key) (k : κ) : Option α :=
  t.rows.find? (key · = k)

/-- The table with another row, unless its key is taken. -/
def add? (t : Table key) (a : α) : Option (Table key) :=
  if h : key a ∈ t.rows.map key then none
  else some {
    rows := t.rows ++ [a]
    distinct := by
      rw [List.map_append, List.nodup_append]
      refine ⟨t.distinct, by simp, fun x hx y hy => ?_⟩
      rw [List.map_singleton, List.mem_singleton] at hy
      rintro rfl
      exact h (hy ▸ hx) }

/-- The row `a` where a row has its key, and `b` itself otherwise. -/
def instead (key : α → κ) (a b : α) : α := if key b = key a then a else b

theorem map_key_instead (a : α) (l : List α) : (l.map (instead key a)).map key = l.map key := by
  rw [List.map_map]
  refine List.map_congr_left fun b _ => ?_
  by_cases h : key b = key a <;> simp [instead, h]

/-- The table with `a` in the place of the row with its key, if there is one. -/
def replace (t : Table key) (a : α) : Table key where
  rows := t.rows.map (instead key a)
  distinct := by rw [map_key_instead]; exact t.distinct

/-- The table with `a` as the row of its key. -/
def put (t : Table key) (a : α) : Table key :=
  (t.add? a).getD (t.replace a)

/-- The table without the row of a key. -/
def erase (t : Table key) (k : κ) : Table key := t.filter (key · ≠ k)

theorem key_of_get? {t : Table key} {k : κ} {a : α} (h : t.get? k = some a) : key a = k := by
  simpa using List.find?_some h

theorem mem_of_get? {t : Table key} {k : κ} {a : α} (h : t.get? k = some a) : a ∈ t.rows :=
  List.mem_of_find?_eq_some h

theorem get?_eq_none {t : Table key} {k : κ} : t.get? k = none ↔ k ∉ t.rows.map key := by
  simp [get?]

end Table

/-- Rows that are numbered in the order in which they are added. -/
structure Numbered (α : Type) where
  rows : List α := []
  /-- The number that was given last. -/
  last : Nat := 0
  deriving DecidableEq, Repr, Inhabited

namespace Numbered

variable {α : Type}

/-- The number of the row that is added next. -/
def next (t : Numbered α) : Nat := t.last + 1

/-- The rows with one more, made from its number. -/
def add (t : Numbered α) (a : Nat → α) : Numbered α := ⟨t.rows ++ [a t.next], t.next⟩

/-- The rows of which a predicate holds. -/
def filter (p : α → Bool) (t : Numbered α) : Numbered α := ⟨t.rows.filter p, t.last⟩

end Numbered

end CaseAccess
