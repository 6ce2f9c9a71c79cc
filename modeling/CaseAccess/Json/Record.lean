import CaseAccess.Integer64
import CaseAccess.Json.Basic
import CaseAccess.Named
import CaseAccess.Sorted.Map

/-!
# Reading records

A document becomes a record by a `Layout`: the names of the members in order,
what each may hold, and what happens when one is missing. Members that the layout
does not name are skipped, and a member that it names may stand only once.

A record may be written in two ways. As an object its members stand in any order,
and a member that may be `null` may also be missing. As an array its members stand
in the order of the layout; only those with a default may be missing, and only
from the end.

`null` is a value of an optional member and of nothing else. An enumeration is the
name of one of its values, alone or as the only member of an object with the
value `null`.
-/

namespace CaseAccess.Json

/-- A reader of values. -/
abbrev Reader (α : Type) := Json → Option α

def text? : Reader String
  | .string s => some s
  | _ => none

def bool? : Reader Bool
  | .bool b => some b
  | _ => none

/-- An integer between the two bounds. -/
def integer? (low high : Int) : Reader Int
  | .integer n => if low ≤ n ∧ n ≤ high then some n else none
  | _ => none

/-- A natural number of at most that many bits. -/
def natural? (bits : Nat) : Reader Nat := fun v =>
  (integer? 0 (Nat.pow 2 bits - 1 : Nat) v).map Int.toNat

/-- A signed integer of 64 bits. -/
def int64? : Reader Int :=
  integer? Integer64.least Integer64.greatest

/-- `null`, or what `read` takes. -/
def optional? {α : Type} (read : Reader α) : Reader (Option α)
  | .null => some none
  | v => (read v).map some

def list? {α : Type} (read : Reader α) : Reader (List α)
  | .array items => items.mapM read
  | _ => none

def set? {α : Type} [Ord α] [Std.TransOrd α] (read : Reader α) : Reader (SortedSet α) := fun v =>
  (list? read v).map SortedSet.ofList

/-- A table with texts as keys; of two members of one name the last stands. -/
def table? {α : Type} (read : Reader α) : Reader (SortedMap String α)
  | .object members =>
      (members.mapM fun m => (read m.2).map (m.1, ·)).map SortedMap.ofList
  | _ => none

def named? {α : Type} [Named α] : Reader α
  | .string s => Named.ofName? s
  | .object [(s, .null)] => Named.ofName? s
  | _ => none

/-- When a member may be left out: never, from an object only, or also from the
end of an array. -/
inductive Presence where
  | required
  | nullable
  | defaulted
  deriving DecidableEq

/-- The members of a record, and how to read its value from them. -/
structure Layout (α : Type) where
  slots : List (String × Presence)
  read : Members → Option α

namespace Layout

variable {α β : Type}

/-- A member that must be there. -/
def required (name : String) (read : Reader α) : Layout α :=
  ⟨[(name, .required)], fun ms => ms.lookup name >>= read⟩

/-- A member that may be `null`, or missing from an object. -/
def nullable (name : String) (read : Reader α) : Layout (Option α) :=
  ⟨[(name, .nullable)], fun ms =>
    match ms.lookup name with
    | some v => optional? read v
    | none => some none⟩

/-- A member with a value of its own for when it is missing. -/
def defaulted (name : String) (read : Reader α) (default : α) : Layout α :=
  ⟨[(name, .defaulted)], fun ms =>
    match ms.lookup name with
    | some v => read v
    | none => some default⟩

/-- A member that may be `null` or missing. -/
def optional (name : String) (read : Reader α) : Layout (Option α) :=
  defaulted name (optional? read) none

instance : Functor Layout where
  map f l := ⟨l.slots, fun ms => (l.read ms).map f⟩

instance : Seq Layout where
  seq f l := ⟨f.slots ++ (l ()).slots, fun ms => do
    let f ← f.read ms
    let a ← (l ()).read ms
    return f a⟩

/-- The members of an array, by the names of the slots they fill. -/
def ofItems? : List (String × Presence) → List Json → Option Members
  | [], [] => some []
  | [], _ :: _ => none
  | slots, [] => if slots.all (·.2 = .defaulted) then some [] else none
  | (name, _) :: slots, v :: rest => (ofItems? slots rest).map ((name, v) :: ·)

/-- The record that a value writes. -/
def decode (layout : Layout α) : Reader α
  | .object members =>
      if layout.slots.all fun slot => (members.filter (·.1 == slot.1)).length ≤ 1 then
        layout.read members
      else none
  | .array items => ofItems? layout.slots items >>= layout.read
  | _ => none

end Layout

end CaseAccess.Json
