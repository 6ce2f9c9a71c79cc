import CaseAccess.Json.Basic

/-!
# Tables of a settings file

A table comes about in one of three ways: by a header of its own, as a step on the
way of another header, or by a dotted key. Each table has one header at most, a
dotted key reaches only tables that dotted keys made, and no key is given twice.
-/

namespace CaseAccess.Toml

/-- How a table came about. -/
inductive Origin where
  | header
  | implied
  | dotted
  deriving DecidableEq, Repr

/-- What a key stands for: a value, a table, or a list of tables, which has a last
one. -/
inductive Node where
  | value (v : Json)
  | table (origin : Origin) (members : List (String × Node))
  | tables (earlier : List (List (String × Node))) (last : List (String × Node))

abbrev Members := List (String × Node)

namespace Members

def find? (ms : Members) (key : String) : Option Node :=
  (List.find? (·.1 == key) ms).map (·.2)

/-- The members with another node at a key that is there. -/
def replace (ms : Members) (key : String) (n : Node) : Members :=
  ms.map fun m => if m.1 = key then (key, n) else m

/-- Changes the table that the keys lead to. In a list of tables they lead to the
last one; a table that is not there yet is made. -/
def alter (f : Members → Option Members) : List String → Members → Option Members
  | [], ms => f ms
  | key :: path, ms =>
      match ms.find? key with
      | none => (alter f path []).map fun inner => ms ++ [(key, .table .implied inner)]
      | some (.table origin inner) =>
          (alter f path inner).map fun inner => ms.replace key (.table origin inner)
      | some (.tables earlier last) =>
          (alter f path last).map fun last => ms.replace key (.tables earlier last)
      | some (.value _) => none

/-- Opens the table of a header. -/
def openTable (key : String) (ms : Members) : Option Members :=
  match ms.find? key with
  | none => some (ms ++ [(key, .table .header [])])
  | some (.table .implied inner) => some (ms.replace key (.table .header inner))
  | _ => none

/-- Opens the next table of a list. -/
def openItem (key : String) (ms : Members) : Option Members :=
  match ms.find? key with
  | none => some (ms ++ [(key, .tables [] [])])
  | some (.tables earlier last) => some (ms.replace key (.tables (earlier ++ [last]) []))
  | _ => none

/-- Gives a dotted key a value. `mayAdd` says whether the table takes keys here: it
was made by a dotted key, or the key has no dot. -/
def assign (mayAdd : Bool) (v : Json) : List String → Members → Option Members
  | [], _ => none
  | [key], ms => if mayAdd && (ms.find? key).isNone then some (ms ++ [(key, .value v)]) else none
  | key :: path, ms =>
      match ms.find? key with
      | none => (assign true v path []).map fun inner => ms ++ [(key, .table .dotted inner)]
      | some (.table .header _) => none
      | some (.table origin inner) =>
          (assign (origin = .dotted) v path inner).map fun inner =>
            ms.replace key (.table origin inner)
      | some (.tables earlier last) =>
          (assign false v path last).map fun last => ms.replace key (.tables earlier last)
      | some (.value _) => none

end Members

mutual

/-- The value that a node holds. -/
def Node.toJson : Node → Json
  | .value v => v
  | .table _ members => .object (membersToJson members)
  | .tables earlier last => .array (tablesToJson earlier ++ [.object (membersToJson last)])

def membersToJson : List (String × Node) → Json.Members
  | [] => []
  | (key, n) :: rest => (key, n.toJson) :: membersToJson rest

def tablesToJson : List (List (String × Node)) → List Json
  | [] => []
  | members :: rest => .object (membersToJson members) :: tablesToJson rest

end

end CaseAccess.Toml
