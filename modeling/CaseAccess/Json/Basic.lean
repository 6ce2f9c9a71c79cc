/-!
# JSON values

A value keeps what a reader of records needs to see: the order of the members of
an object, a member that is written twice, and whether a number was written as an
integer. Nothing in this library reads a fraction, so a number that is not an
integer of 64 bits is kept as its text.

A text can also hold a well-formed token that has no value: a string with half of
a surrogate pair, or a number beyond every finite value. Such a token may be
skipped, and it may not be read; it is kept as `unreadable`, and so is an object
with such a string for a name.
-/

namespace CaseAccess

inductive Json where
  | null
  | bool (value : Bool)
  | integer (value : Int)
  | decimal (text : String)
  | string (value : String)
  | array (items : List Json)
  | object (members : List (String × Json))
  | unreadable
  deriving Repr, BEq, Inhabited

namespace Json

/-- Names and values of an object, in the order they are given. -/
abbrev Members := List (String × Json)

/-- The value of the last member of that name: the one that stands when an object
is read as a table. -/
def Members.last? (members : Members) (name : String) : Option Json :=
  ((members.filter (·.1 == name)).getLast?).map (·.2)

/-- A value, or `null` for none. -/
def ofOption {α : Type} (write : α → Json) : Option α → Json
  | some a => write a
  | none => .null

def ofList {α : Type} (write : α → Json) (items : List α) : Json :=
  .array (items.map write)

def ofTexts (texts : List String) : Json :=
  ofList .string texts

/-- A member that is left out when there is no value for it. -/
def member? {α : Type} (name : String) (write : α → Json) : Option α → Members
  | some a => [(name, write a)]
  | none => []

mutual

/-- The number of containers around the innermost value. -/
def depth : Json → Nat
  | .array items => depthOfItems items + 1
  | .object members => depthOfMembers members + 1
  | _ => 0

def depthOfItems : List Json → Nat
  | [] => 0
  | v :: rest => max v.depth (depthOfItems rest)

def depthOfMembers : List (String × Json) → Nat
  | [] => 0
  | (_, v) :: rest => max v.depth (depthOfMembers rest)

end

mutual

/-- Whether every token of the value can be read. -/
def readable : Json → Bool
  | .unreadable => false
  | .array items => readableItems items
  | .object members => readableMembers members
  | _ => true

def readableItems : List Json → Bool
  | [] => true
  | v :: rest => v.readable && readableItems rest

def readableMembers : List (String × Json) → Bool
  | [] => true
  | (_, v) :: rest => v.readable && readableMembers rest

end

end Json

end CaseAccess
