import CaseAccess.Json.Basic

/-!
# JSON text

The compact form has no blanks. In a string only the quote, the backslash and the
control characters below U+0020 are escaped; five of the control characters have a
letter of their own, the others are written as four lower-case hexadecimal digits.
The indented form puts each item on a line of its own, two spaces deeper than its
container, and writes an empty container as in the compact form.
-/

namespace CaseAccess.Json

/-- A hexadecimal digit, lower case. -/
def hexDigit (n : Nat) : Char :=
  if n < 10 then Char.ofNat (48 + n) else Char.ofNat (87 + n)

/-- One character as it stands in a string. -/
def escapeChar (c : Char) : List Char :=
  if c = '"' then ['\\', '"']
  else if c = '\\' then ['\\', '\\']
  else if c = '\x08' then ['\\', 'b']
  else if c = '\t' then ['\\', 't']
  else if c = '\n' then ['\\', 'n']
  else if c = '\x0c' then ['\\', 'f']
  else if c = '\r' then ['\\', 'r']
  else if c.toNat < 32 then
    ['\\', 'u', '0', '0', hexDigit (c.toNat / 16), hexDigit (c.toNat % 16)]
  else [c]

/-- A string between quotes. -/
def quote (s : String) : String :=
  String.ofList ('"' :: s.toList.flatMap escapeChar ++ ['"'])

mutual

/-- The compact text. A token without a value has no text; it is written as `null`. -/
def compact : Json → String
  | .null => "null"
  | .bool b => if b then "true" else "false"
  | .integer n => toString n
  | .decimal text => text
  | .string s => quote s
  | .array items => "[" ++ ",".intercalate (compactItems items) ++ "]"
  | .object members => "\x7b" ++ ",".intercalate (compactMembers members) ++ "\x7d"
  | .unreadable => "null"

def compactItems : List Json → List String
  | [] => []
  | v :: rest => v.compact :: compactItems rest

def compactMembers : List (String × Json) → List String
  | [] => []
  | (name, v) :: rest => (quote name ++ ":" ++ v.compact) :: compactMembers rest

end

/-- A line break followed by the indentation of that depth. -/
def newline (depth : Nat) : String :=
  String.ofList ('\n' :: List.replicate (2 * depth) ' ')

mutual

/-- The indented text of a value that stands at that depth. -/
def indented (depth : Nat) : Json → String
  | .array (v :: rest) =>
      "[" ++ newline (depth + 1)
        ++ ("," ++ newline (depth + 1)).intercalate (indentedItems (depth + 1) (v :: rest))
        ++ newline depth ++ "]"
  | .object (m :: rest) =>
      "\x7b" ++ newline (depth + 1)
        ++ ("," ++ newline (depth + 1)).intercalate (indentedMembers (depth + 1) (m :: rest))
        ++ newline depth ++ "\x7d"
  | v => v.compact

def indentedItems (depth : Nat) : List Json → List String
  | [] => []
  | v :: rest => v.indented depth :: indentedItems depth rest

def indentedMembers (depth : Nat) : List (String × Json) → List String
  | [] => []
  | (name, v) :: rest => (quote name ++ ": " ++ v.indented depth) :: indentedMembers depth rest

end

end CaseAccess.Json
