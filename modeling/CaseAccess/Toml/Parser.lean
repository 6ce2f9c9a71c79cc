import CaseAccess.Toml.Quoted
import CaseAccess.Toml.Scalar
import CaseAccess.Toml.Table

/-!
# Settings files

A settings file is a list of lines: a key with its value, the header of a table, the
header of the next table of a list, or nothing, and at the end of each perhaps a
comment. An array may run over several lines, with comments, and end with a comma;
a table in braces may do neither. The document is a JSON object.
-/

namespace CaseAccess.Toml

/-- The text after a comment, if the text begins with one. -/
def skipComment : List Char → List Char
  | '#' :: rest => rest.dropWhile isPlain
  | s => s

/-- The text after blanks, line breaks and comments. -/
def skipLines : Nat → List Char → List Char
  | 0, s => s
  | fuel + 1, s =>
      let s := skipComment (skipBlanks s)
      match lineBreak? s with
      | some rest => skipLines fuel rest
      | none => s

/-- The text after the end of a line, which may have blanks and a comment before it. -/
def lineEnd? (s : List Char) : Option (List Char) :=
  match skipComment (skipBlanks s) with
  | [] => some []
  | s => lineBreak? s

mutual

/-- A value at the head of a text. Each container takes one unit of fuel and each of
its items another. -/
def value? : Nat → List Char → Option (Json × List Char)
  | 0, _ => none
  | fuel + 1, s =>
      match s with
      | '"' :: _ | '\'' :: _ => (string? s).map fun (cs, rest) => (.string (String.ofList cs), rest)
      | '[' :: rest => (items? fuel rest).map fun (items, tail) => (.array items, tail)
      | '{' :: rest =>
          match skipBlanks rest with
          | '}' :: tail => some (.object [], tail)
          | _ => (inline? fuel [] rest).map fun (ms, tail) => (.object (membersToJson ms), tail)
      | _ =>
          let run := scalarRun s
          (scalar? run).map fun v => (v, s.drop run.length)

/-- The items of an array, with the bracket that closes it. -/
def items? : Nat → List Char → Option (List Json × List Char)
  | 0, _ => none
  | fuel + 1, s =>
      match skipLines s.length s with
      | ']' :: tail => some ([], tail)
      | s => do
          let (v, rest) ← value? fuel s
          match skipLines rest.length rest with
          | ',' :: rest =>
              let (items, tail) ← items? fuel rest
              return (v :: items, tail)
          | ']' :: tail => return ([v], tail)
          | _ => none

/-- The members of a table in braces that is not empty, after those that were read
before, with the brace that closes it. -/
def inline? : Nat → Members → List Char → Option (Members × List Char)
  | 0, _, _ => none
  | fuel + 1, ms, s => do
      let (keys, rest) ← dottedKey? s.length s
      match rest with
      | '=' :: rest =>
          let (v, rest) ← value? fuel (skipBlanks rest)
          let ms ← ms.assign true v keys
          match skipBlanks rest with
          | ',' :: rest => inline? fuel ms rest
          | '}' :: tail => return (ms, tail)
          | _ => none
      | _ => none

end

/-- What has been read of a document: its members, and the table of the last header,
which keys are added to. -/
structure Draft where
  members : Members := []
  table : List String := []

/-- Adds a key with its value. -/
def Draft.add (d : Draft) (keys : List String) (v : Json) : Option Draft :=
  (d.members.alter (·.assign true v keys) d.table).map fun ms => { d with members := ms }

/-- Opens the table that a header names. -/
def Draft.open (d : Draft) (opening : String → Members → Option Members) (keys : List String) :
    Option Draft := do
  let key ← keys.getLast?
  let ms ← d.members.alter (opening key) keys.dropLast
  return ⟨ms, keys⟩

/-- Reads a header up to its closing brackets. -/
def header? (s : List Char) :
    Option ((String → Members → Option Members) × List String × List Char) :=
  match s with
  | '[' :: rest => do
      let (keys, rest) ← dottedKey? rest.length rest
      match rest with
      | ']' :: ']' :: tail => return (Members.openItem, keys, tail)
      | _ => none
  | s => do
      let (keys, rest) ← dottedKey? s.length s
      match rest with
      | ']' :: tail => return (Members.openTable, keys, tail)
      | _ => none

/-- Reads the content of a line, and gives the text after it. -/
def Draft.readLine (d : Draft) (s : List Char) : Option (Draft × List Char) :=
  match s with
  | [] | '#' :: _ | '\n' :: _ | '\r' :: _ => some (d, s)
  | '[' :: rest => do
      let (opening, keys, rest) ← header? rest
      let d ← d.open opening keys
      return (d, rest)
  | _ => do
      let (keys, rest) ← dottedKey? s.length s
      match rest with
      | '=' :: rest =>
          let (v, rest) ← value? (2 * s.length + 1) (skipBlanks rest)
          let d ← d.add keys v
          return (d, rest)
      | _ => none

/-- Reads the lines of a text. -/
def Draft.readLines : Nat → Draft → List Char → Option Draft
  | 0, _, _ => none
  | fuel + 1, d, s => do
      let (d, rest) ← d.readLine (skipBlanks s)
      match ← lineEnd? rest with
      | [] => return d
      | rest => readLines fuel d rest

/-- The text without a byte order mark in front of it. -/
def withoutMark : List Char → List Char
  | '\uFEFF' :: rest => rest
  | s => s

/-- The document that a text writes. -/
def parse? (text : String) : Option Json :=
  let s := withoutMark text.toList
  (Draft.readLines (s.length + 1) {} s).map fun d => .object (membersToJson d.members)

end CaseAccess.Toml
