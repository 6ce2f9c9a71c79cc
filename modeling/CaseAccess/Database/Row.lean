import CaseAccess.Store.Basic
import CaseAccess.Json.Parser
import CaseAccess.Json.Printer

/-!
# Rows and statements

On disk a record is a row: values in named columns, each of them null, an integer or a
text. A statement names the columns that it writes or reads and goes through them by
their places, so what is written in one place has to be read in the same.

A table is the list of its rows. Adding a row fails where another row agrees with it in
columns that must differ together. None of these columns is ever null, and none that a
condition is about is compared with null, so two nulls are never compared.
-/

namespace CaseAccess

inductive SqlValue where
  | null
  | integer (n : Int)
  | text (s : String)
  deriving DecidableEq, Repr, Inhabited

namespace SqlValue

/-! ## Values that are written -/

/-- A value, or null for none. -/
def ofOption {α : Type} (write : α → SqlValue) : Option α → SqlValue
  | some a => write a
  | none => .null

def ofBool (b : Bool) : SqlValue := .integer (if b then 1 else 0)

def ofNamed {α : Type} [Named α] (a : α) : SqlValue := .text (Named.name a)

def ofTypeRef (r : TypeRef) : SqlValue := .text r.key

def ofDate (d : Date) : SqlValue := .text d.text

/-- A document, as its compact text. -/
def ofJson (v : Json) : SqlValue := .text v.compact

/-! ## Values that are read -/

/-- A reader of values. -/
abbrev Reader (α : Type) := SqlValue → Option α

/-- Null, or what `read` takes. -/
def optional? {α : Type} (read : Reader α) : Reader (Option α)
  | .null => some none
  | v => (read v).map some

def text? : Reader String
  | .text s => some s
  | _ => none

/-- The number of a row. -/
def number? : Reader Nat
  | .integer n => some n.toNat
  | _ => none

def bool? : Reader Bool
  | .integer n => some (n ≠ 0)
  | _ => none

def named? {α : Type} [Named α] : Reader α := fun v => v.text? >>= Named.ofName?

def typeRef? : Reader TypeRef := fun v => v.text?.map TypeRef.mk

def date? : Reader Date := fun v => v.text? >>= Date.parse?

/-- What a document in a column writes. -/
def json? {α : Type} (read : Json.Reader α) : Reader α := fun v => do
  let text ← v.text?
  let document ← Json.parse? text
  read document

/-- The order of values: null before integers, and integers before texts. -/
def cmp : SqlValue → SqlValue → Ordering
  | .null, .null => .eq
  | .null, _ => .lt
  | .integer _, .null => .gt
  | .integer m, .integer n => compare m n
  | .integer _, .text _ => .lt
  | .text s, .text t => compare s t
  | .text _, _ => .gt

end SqlValue

/-- Values in named columns. -/
structure SqlRow where
  columns : List (String × SqlValue)
  deriving DecidableEq, Repr, Inhabited

namespace SqlRow

/-- The row with these values in these columns, place by place. -/
def of (columns : List String) (values : List SqlValue) : SqlRow := ⟨columns.zip values⟩

/-- The value in a column. -/
def get (row : SqlRow) (column : String) : SqlValue := (row.columns.lookup column).getD .null

/-- The values in these columns, place by place. -/
def select (row : SqlRow) (columns : List String) : List SqlValue := columns.map row.get

/-- The row with other values in these columns. -/
def set (row : SqlRow) (columns : List String) (values : List SqlValue) : SqlRow :=
  ⟨row.columns.map fun c => (c.1, ((columns.zip values).lookup c.1).getD c.2)⟩

/-- Whether the row has these values in these columns. -/
def meets (row : SqlRow) (conditions : List (String × SqlValue)) : Bool :=
  conditions.all fun c => row.get c.1 = c.2

/-- The order of rows by columns, of which the first counts most. -/
def cmp (columns : List String) (a b : SqlRow) : Ordering :=
  columns.foldr (fun column o => ((a.get column).cmp (b.get column)).then o) .eq

/-- Whether the rows agree in columns that must differ together. -/
def clashes (unique : List (List String)) (a b : SqlRow) : Bool :=
  unique.any fun columns => a.select columns = b.select columns

end SqlRow

/-- The rows with each of them changed, under the numbers that they have. -/
def Numbered.map {α β : Type} (f : α → β) (t : Numbered α) : Numbered β :=
  ⟨t.rows.map f, t.last⟩

abbrev SqlTable := List SqlRow

namespace SqlTable

/-- The table with another row. -/
def add (unique : List (List String)) (row : SqlRow) (t : SqlTable) : Except StoreFault SqlTable :=
  if t.any (row.clashes unique) then .error .keyTaken else .ok (t ++ [row])

/-- The table with another row, which is made from the number that it gets. -/
def addNumbered (unique : List (List String)) (row : Nat → SqlRow) (t : Numbered SqlRow) :
    Except StoreFault (Numbered SqlRow) :=
  if t.rows.any ((row t.next).clashes unique) then .error .keyTaken else .ok (t.add row)

/-- The table with another row, or with its values in some columns of those it clashes with. -/
def put (unique : List (List String)) (columns : List String) (row : SqlRow) (t : SqlTable) :
    SqlTable :=
  if t.any (row.clashes unique) then
    t.map fun r => if row.clashes unique r then r.set columns (row.select columns) else r
  else t ++ [row]

/-- The table with other values in some columns of the rows that meet the conditions. -/
def change (conditions : List (String × SqlValue)) (columns : List String)
    (values : List SqlValue) (t : SqlTable) : SqlTable :=
  t.map fun row => if row.meets conditions then row.set columns values else row

/-- The table without the rows that meet the conditions. -/
def remove (conditions : List (String × SqlValue)) (t : SqlTable) : SqlTable :=
  t.filter fun row => !row.meets conditions

/-- The table of numbered rows without those that meet the conditions. -/
def removeNumbered (conditions : List (String × SqlValue)) (t : Numbered SqlRow) :
    Numbered SqlRow :=
  t.filter fun row => !row.meets conditions

/-- The number of rows that meet the conditions. -/
def count (conditions : List (String × SqlValue)) (t : SqlTable) : Nat :=
  t.countP (·.meets conditions)

end SqlTable

/-- What was read, or the fault that it could not be. -/
def orUnreadable {α : Type} : Option α → Except StoreFault α
  | some a => .ok a
  | none => .error .unreadable

/-- The columns that are read of the rows that meet some conditions, and the columns by
which these rows are put in order. -/
structure Selection where
  columns : List String
  conditions : List (String × SqlValue) := []
  order : List String := []

namespace Selection

/-- What is read of all selected rows. -/
def read {α : Type} (q : Selection) (ofValues? : List SqlValue → Option α) (t : SqlTable) :
    Except StoreFault (List α) :=
  let rows := (t.filter (·.meets q.conditions)).mergeSort fun a b => (SqlRow.cmp q.order a b).isLE
  orUnreadable (rows.mapM fun row => ofValues? (row.select q.columns))

/-- What is read of the row that is selected, if there is one. -/
def readOne {α : Type} (q : Selection) (ofValues? : List SqlValue → Option α) (t : SqlTable) :
    Except StoreFault (Option α) :=
  match t.find? (·.meets q.conditions) with
  | some row => (orUnreadable (ofValues? (row.select q.columns))).map some
  | none => .ok none

end Selection

/-- The table without the row of a number, and what was read of that row. -/
def SqlTable.takeNumbered {α : Type} (columns : List String)
    (ofValues? : List SqlValue → Option α) (id : Nat) (t : Numbered SqlRow) :
    Except StoreFault (Option α × Numbered SqlRow) := do
  let conditions := [("id", SqlValue.integer id)]
  let found ← Selection.readOne { columns, conditions } ofValues? t.rows
  match found with
  | some a => return (some a, removeNumbered conditions t)
  | none => return (none, t)

end CaseAccess
