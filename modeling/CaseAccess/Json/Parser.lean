import CaseAccess.Json.Basic
import CaseAccess.Text.Decimal

/-!
# Reading JSON text

The grammar is the standard one: no comments, no trailing comma, no leading zero,
no raw control character in a string, and nothing but blanks after the value.

An integer without fraction or exponent is read as one when it fits 64 bits, with
or without a sign; `-0` does not count as an integer. Every other number is kept as
its text, unless it lies beyond the largest finite double, where it has no value.
-/

namespace CaseAccess.Json

/-- The four characters that may stand between tokens. -/
def isSpace (c : Char) : Bool :=
  c = ' ' || c = '\n' || c = '\t' || c = '\r'

def skipSpaces (s : List Char) : List Char :=
  s.dropWhile isSpace

/-- The value of a hexadecimal digit of either case. -/
def hexValue? (c : Char) : Option Nat :=
  if '0' ≤ c ∧ c ≤ '9' then some (c.toNat - 48)
  else if 'a' ≤ c ∧ c ≤ 'f' then some (c.toNat - 87)
  else if 'A' ≤ c ∧ c ≤ 'F' then some (c.toNat - 55)
  else none

/-- The number that four hexadecimal digits write. -/
def hexUnit? (a b c d : Char) : Option Nat := do
  let a ← hexValue? a
  let b ← hexValue? b
  let c ← hexValue? c
  let d ← hexValue? d
  return ((a * 16 + b) * 16 + c) * 16 + d

/-- The characters with an escape of one letter. -/
def unescapeChar? : Char → Option Char
  | '"' => some '"'
  | '\\' => some '\\'
  | '/' => some '/'
  | 'b' => some '\x08'
  | 'f' => some '\x0c'
  | 'n' => some '\n'
  | 'r' => some '\r'
  | 't' => some '\t'
  | _ => none

/-- One written character of a string: itself, or the code unit of a `\u` escape. -/
inductive Piece where
  | char (c : Char)
  | unit (value : Nat)

/-- The rest of a string, after its opening quote. -/
def parsePieces : List Char → Option (List Piece × List Char)
  | [] => none
  | '"' :: rest => some ([], rest)
  | '\\' :: 'u' :: a :: b :: c :: d :: rest => do
      let unit ← hexUnit? a b c d
      let (pieces, tail) ← parsePieces rest
      return (.unit unit :: pieces, tail)
  | '\\' :: c :: rest => do
      let c ← unescapeChar? c
      let (pieces, tail) ← parsePieces rest
      return (.char c :: pieces, tail)
  | c :: rest =>
      if c.toNat < 32 then none
      else do
        let (pieces, tail) ← parsePieces rest
        return (.char c :: pieces, tail)

/-- The first and the second half of a surrogate pair. -/
def isHighHalf (unit : Nat) : Bool :=
  0xD800 ≤ unit && unit < 0xDC00

def isLowHalf (unit : Nat) : Bool :=
  0xDC00 ≤ unit && unit < 0xE000

/-- The characters that the pieces write. Two halves of a pair write one character,
and half a pair writes none. -/
def assemble : List Piece → Option (List Char)
  | [] => some []
  | .char c :: rest => (assemble rest).map (c :: ·)
  | .unit unit :: rest =>
      if isHighHalf unit then
        match rest with
        | .unit low :: rest =>
            if isLowHalf low then
              (assemble rest).map
                (Char.ofNat (0x10000 + (unit - 0xD800) * 0x400 + (low - 0xDC00)) :: ·)
            else none
        | _ => none
      else if isLowHalf unit then none
      else (assemble rest).map (Char.ofNat unit :: ·)

/-- The point halfway from the largest finite double to the next power of two. -/
def doubleLimit : Nat := Nat.pow 2 1024 - Nat.pow 2 970

/-- Whether `digits · 10 ^ exponent` rounds to no finite double: it is at least
halfway from the largest of them to the next power of two. -/
def beyondDouble (digits : List Char) (exponent : Int) : Bool :=
  let digits := digits.dropWhile (· = '0')
  let m := Decimal.value digits
  let magnitude : Int := digits.length + exponent
  if m = 0 ∨ magnitude < 300 then false
  else if 320 < magnitude then true
  else if 0 ≤ exponent then doubleLimit ≤ m * Nat.pow 10 exponent.toNat
  else doubleLimit * Nat.pow 10 (-exponent).toNat ≤ m

/-- The digits after a point, if one follows. -/
def fraction? (s : List Char) : Option (List Char × List Char) :=
  match s with
  | '.' :: rest => Decimal.run? rest
  | _ => some ([], s)

/-- The sign and digits of an exponent, if one follows. -/
def exponent? (s : List Char) : Option (Option (Bool × List Char) × List Char) :=
  match s with
  | 'e' :: '-' :: rest | 'E' :: '-' :: rest =>
      (Decimal.run? rest).map fun (ds, r) => (some (true, ds), r)
  | 'e' :: '+' :: rest | 'E' :: '+' :: rest | 'e' :: rest | 'E' :: rest =>
      (Decimal.run? rest).map fun (ds, r) => (some (false, ds), r)
  | _ => some (none, s)

/-- The value of a number with that sign, whole part, fraction and exponent. -/
def ofNumber (negative : Bool) (whole fraction : List Char)
    (exponent : Option (Bool × List Char)) : Json :=
  let n := Decimal.value whole
  let text := (if negative then "-" else "") ++ String.ofList whole
  match fraction, exponent with
  | [], none =>
      if negative ∧ 0 < n ∧ n ≤ 0x8000000000000000 then .integer (-n)
      else if !negative ∧ n < UInt64.size then .integer n
      else if beyondDouble whole 0 then .unreadable
      else .decimal text
  | _, _ =>
      let shift : Int := match exponent with
        | none => 0
        | some (true, ds) => -(Decimal.value ds : Int)
        | some (false, ds) => Decimal.value ds
      if beyondDouble (whole ++ fraction) (shift - fraction.length) then .unreadable
      else .decimal (text ++ (if fraction.isEmpty then "" else "." ++ String.ofList fraction)
        ++ match exponent with
          | none => ""
          | some (minus, ds) => (if minus then "e-" else "e") ++ String.ofList ds)

/-- A number at the head of the text. -/
def parseNumber (s : List Char) : Option (Json × List Char) := do
  let (negative, s) := match s with
    | '-' :: rest => (true, rest)
    | _ => (false, s)
  let (whole, s) ← Decimal.run? s
  if whole.head? = some '0' ∧ 1 < whole.length then none
  let (fraction, s) ← fraction? s
  let (exponent, s) ← exponent? s
  return (ofNumber negative whole fraction exponent, s)

/-- The string that the pieces write. -/
def ofPieces (pieces : List Piece) : Json :=
  match assemble pieces with
  | some cs => .string (String.ofList cs)
  | none => .unreadable

/-- The object with these members. Without the name of one of them it cannot be read. -/
def ofMembers (members : List (Option (List Char) × Json)) : Json :=
  match members.mapM fun (name, v) => name.map fun cs => (String.ofList cs, v) with
  | some members => .object members
  | none => .unreadable

mutual

/-- A value at the head of the text. Each container takes one unit of fuel and
each of its items another. -/
def parseValue : Nat → List Char → Option (Json × List Char)
  | 0, _ => none
  | fuel + 1, s =>
      match skipSpaces s with
      | 'n' :: 'u' :: 'l' :: 'l' :: rest => some (.null, rest)
      | 't' :: 'r' :: 'u' :: 'e' :: rest => some (.bool true, rest)
      | 'f' :: 'a' :: 'l' :: 's' :: 'e' :: rest => some (.bool false, rest)
      | '"' :: rest => (parsePieces rest).map fun (pieces, tail) => (ofPieces pieces, tail)
      | '[' :: rest =>
          match skipSpaces rest with
          | ']' :: tail => some (.array [], tail)
          | _ => (parseItems fuel rest).map fun (items, tail) => (.array items, tail)
      | '{' :: rest =>
          match skipSpaces rest with
          | '}' :: tail => some (.object [], tail)
          | _ => (parseMembers fuel rest).map fun (members, tail) => (ofMembers members, tail)
      | s => parseNumber s

/-- The items of an array that is not empty, with the bracket that closes it. -/
def parseItems : Nat → List Char → Option (List Json × List Char)
  | 0, _ => none
  | fuel + 1, s => do
      let (v, rest) ← parseValue fuel s
      match skipSpaces rest with
      | ',' :: rest =>
          let (items, tail) ← parseItems fuel rest
          return (v :: items, tail)
      | ']' :: tail => return ([v], tail)
      | _ => none

/-- The members of an object that is not empty, with the brace that closes it. -/
def parseMembers : Nat → List Char → Option (List (Option (List Char) × Json) × List Char)
  | 0, _ => none
  | fuel + 1, s =>
      match skipSpaces s with
      | '"' :: rest => do
          let (pieces, rest) ← parsePieces rest
          match skipSpaces rest with
          | ':' :: rest =>
              let (v, rest) ← parseValue fuel rest
              match skipSpaces rest with
              | ',' :: rest =>
                  let (members, tail) ← parseMembers fuel rest
                  return ((assemble pieces, v) :: members, tail)
              | '}' :: tail => return ([(assemble pieces, v)], tail)
              | _ => none
          | _ => none
      | _ => none

end

/-- The value that the whole text writes. -/
def parse? (text : String) : Option Json :=
  let s := text.toList
  match parseValue (2 * s.length + 1) s with
  | some (v, rest) => if (skipSpaces rest).isEmpty then some v else none
  | none => none

end CaseAccess.Json
