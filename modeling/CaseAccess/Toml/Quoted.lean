import CaseAccess.Json.Parser

/-!
# Strings and keys of a settings file

A string stands in double quotes, with escapes, or in single quotes, without any. In
three quotes of either kind it may run over several lines; then the line break
after the opening quotes does not count, one or two quotes may stand inside, and in
double quotes a backslash at the end of a line takes the blanks after it away.

A key is bare or quoted, and a dotted key names a table in a table.
-/

namespace CaseAccess.Toml

def isBlank (c : Char) : Bool := c = ' ' || c = '\t'

def skipBlanks (s : List Char) : List Char := s.dropWhile isBlank

/-- The text after a line break, if the text begins with one. -/
def lineBreak? : List Char → Option (List Char)
  | '\n' :: rest => some rest
  | '\r' :: '\n' :: rest => some rest
  | _ => none

/-- Whether a character may stand for itself in a line. -/
def isPlain (c : Char) : Bool := c = '\t' || (32 ≤ c.toNat && c.toNat ≠ 127)

/-- The character of that code point. -/
def ofCodePoint? (n : Nat) : Option Char :=
  if n.isValidChar then some (Char.ofNat n) else none

/-- The characters with an escape of one letter. -/
def unescapeChar? : Char → Option Char
  | 'b' => some '\x08'
  | 't' => some '\t'
  | 'n' => some '\n'
  | 'f' => some '\x0c'
  | 'r' => some '\r'
  | '"' => some '"'
  | '\\' => some '\\'
  | _ => none

/-- The character with an escape of eight hexadecimal digits. -/
def ofEscape? (a b c d e f g h : Char) : Option Char := do
  let high ← Json.hexUnit? a b c d
  let low ← Json.hexUnit? e f g h
  ofCodePoint? (high * 65536 + low)

/-- A character in front of what a string holds. -/
def prepend (c : Char) : List Char × List Char → List Char × List Char
  | (cs, rest) => (c :: cs, rest)

/-- The rest of a string in double quotes: what it holds, and the text after it. -/
def basic? : List Char → Option (List Char × List Char)
  | '"' :: rest => some ([], rest)
  | '\\' :: 'u' :: a :: b :: c :: d :: rest => do
      let c ← Json.hexUnit? a b c d >>= ofCodePoint?
      (basic? rest).map (prepend c)
  | '\\' :: 'U' :: a :: b :: c :: d :: e :: f :: g :: h :: rest => do
      let c ← ofEscape? a b c d e f g h
      (basic? rest).map (prepend c)
  | '\\' :: c :: rest => do
      let c ← unescapeChar? c
      (basic? rest).map (prepend c)
  | c :: rest => if isPlain c then (basic? rest).map (prepend c) else none
  | [] => none

/-- The rest of a string in single quotes. -/
def literal? : List Char → Option (List Char × List Char)
  | '\'' :: rest => some ([], rest)
  | c :: rest => if isPlain c then (literal? rest).map (prepend c) else none
  | [] => none

/-- What the quotes after three closing quotes add to the string: two quotes or one,
which are part of it. -/
def closing (quote : Char) : List Char → List Char × List Char
  | c :: d :: rest =>
      if c = quote then if d = quote then ([quote, quote], rest) else ([quote], d :: rest)
      else ([], c :: d :: rest)
  | [c] => if c = quote then ([quote], []) else ([], [c])
  | [] => ([], [])

/-- The rest of a string in three double quotes. While `joining`, blanks and line
breaks do not count. -/
def longBasic? (joining : Bool) : List Char → Option (List Char × List Char)
  | '"' :: '"' :: '"' :: rest => some (closing '"' rest)
  | '\\' :: 'u' :: a :: b :: c :: d :: rest => do
      let c ← Json.hexUnit? a b c d >>= ofCodePoint?
      (longBasic? false rest).map (prepend c)
  | '\\' :: 'U' :: a :: b :: c :: d :: e :: f :: g :: h :: rest => do
      let c ← ofEscape? a b c d e f g h
      (longBasic? false rest).map (prepend c)
  | '\\' :: c :: rest =>
      if (lineBreak? (skipBlanks (c :: rest))).isSome then longBasic? true (c :: rest)
      else do
        let c ← unescapeChar? c
        (longBasic? false rest).map (prepend c)
  | '\r' :: '\n' :: rest =>
      if joining then longBasic? true rest else (longBasic? false rest).map (prepend '\n')
  | c :: rest =>
      if joining ∧ (isBlank c ∨ c = '\n') then longBasic? true rest
      else if isPlain c ∨ c = '\n' then (longBasic? false rest).map (prepend c)
      else none
  | [] => none

/-- The rest of a string in three single quotes. -/
def longLiteral? : List Char → Option (List Char × List Char)
  | '\'' :: '\'' :: '\'' :: rest => some (closing '\'' rest)
  | '\r' :: '\n' :: rest => (longLiteral? rest).map (prepend '\n')
  | c :: rest => if isPlain c ∨ c = '\n' then (longLiteral? rest).map (prepend c) else none
  | [] => none

/-- A string of one line. -/
def shortString? : List Char → Option (List Char × List Char)
  | '"' :: rest => basic? rest
  | '\'' :: rest => literal? rest
  | _ => none

/-- A string at the head of a text. -/
def string? : List Char → Option (List Char × List Char)
  | '"' :: '"' :: '"' :: rest => longBasic? false ((lineBreak? rest).getD rest)
  | '\'' :: '\'' :: '\'' :: rest => longLiteral? ((lineBreak? rest).getD rest)
  | s => shortString? s

/-! ## Keys -/

/-- Whether a character may stand in a bare key. -/
def isKeyChar (c : Char) : Bool := c.isAlphanum || c = '_' || c = '-'

/-- A key without dots at the head of a text. -/
def simpleKey? (s : List Char) : Option (String × List Char) :=
  match s.takeWhile isKeyChar with
  | [] => (shortString? s).map fun (key, rest) => (String.ofList key, rest)
  | key => some (String.ofList key, s.dropWhile isKeyChar)

/-- The keys of a dotted key, and the text after it and its blanks. -/
def dottedKey? : Nat → List Char → Option (List String × List Char)
  | 0, _ => none
  | fuel + 1, s => do
      let (key, rest) ← simpleKey? (skipBlanks s)
      match skipBlanks rest with
      | '.' :: rest =>
          let (keys, tail) ← dottedKey? fuel rest
          return (key :: keys, tail)
      | rest => return ([key], rest)

end CaseAccess.Toml
