import CaseAccess.Calendar.InstantText
import CaseAccess.Integer64
import CaseAccess.Json.Parser

/-!
# Numbers, times and truth values of a settings file

Each of them is one run of letters, digits and the signs `+`, `-`, `.`, `_` and `:`;
between date and time there may also be a single space. An integer fits 64 bits with
a sign, underscores stand between digits only, and a decimal number has no leading
zero. A number with a point or an exponent is kept as its text, and a date or a time
is no value that a configuration can hold.
-/

namespace CaseAccess.Toml

def isScalarChar (c : Char) : Bool :=
  c.isAlphanum || c = '+' || c = '-' || c = '.' || c = '_' || c = ':'

/-! ## Integers -/

/-- Digits without the underscores between them. -/
def ungrouped? (isDigit : Char → Bool) : List Char → Option (List Char)
  | [] => none
  | [c] => if isDigit c then some [c] else none
  | c :: '_' :: rest => if isDigit c then (ungrouped? isDigit rest).map (c :: ·) else none
  | c :: rest => if isDigit c then (ungrouped? isDigit rest).map (c :: ·) else none

/-- The value of digits of a base up to sixteen. -/
def valueIn (base : Nat) (digits : List Char) : Nat :=
  digits.foldl (fun n c => n * base + (Json.hexValue? c).getD 0) 0

/-- A natural number in a base up to sixteen. -/
def natural? (base : Nat) (s : List Char) : Option Nat :=
  (ungrouped? (fun c => (Json.hexValue? c).any (· < base)) s).map (valueIn base)

/-- The sign of a number, and the text after it. -/
def signed : List Char → Bool × List Char
  | '-' :: rest => (true, rest)
  | '+' :: rest => (false, rest)
  | s => (false, s)

/-- Decimal digits without a leading zero. -/
def whole? (s : List Char) : Option (List Char) := do
  let ds ← ungrouped? Char.isDigit s
  if ds.head? = some '0' ∧ 1 < ds.length then none else some ds

/-- The integer that a text writes, of any size. -/
def unbounded? : List Char → Option Int
  | '0' :: 'x' :: rest => (natural? 16 rest).map Int.ofNat
  | '0' :: 'o' :: rest => (natural? 8 rest).map Int.ofNat
  | '0' :: 'b' :: rest => (natural? 2 rest).map Int.ofNat
  | s => do
      let (negative, s) := signed s
      let n := Decimal.value (← whole? s)
      return if negative then -n else n

def integer? (s : List Char) : Option Json := do
  let n ← unbounded? s
  if Integer64.contains n then some (.integer n) else none

/-! ## Numbers with a point or an exponent -/

/-- The text before the first character that a test finds, and the text after it. -/
def cutAt (p : Char → Bool) (s : List Char) : List Char × Option (List Char) :=
  match s.dropWhile (!p ·) with
  | [] => (s, none)
  | _ :: rest => (s.takeWhile (!p ·), some rest)

/-- A number with a fraction or an exponent. One that is larger than every finite
double is none. -/
def fractional? (s : List Char) : Option Json := do
  let (negative, unsigned) := signed s
  if unsigned = ['i', 'n', 'f'] ∨ unsigned = ['n', 'a', 'n'] then
    return .decimal (String.ofList s)
  let (mantissa, exponent) := cutAt (fun c => c = 'e' || c = 'E') unsigned
  let (digits, fraction) := cutAt (· = '.') mantissa
  if fraction.isNone ∧ exponent.isNone then none
  let digits ← whole? digits
  let fraction ← fraction.mapM (ungrouped? Char.isDigit)
  let exponent ← exponent.mapM fun e => do
    let (negative, e) := signed e
    return (negative, ← ungrouped? Char.isDigit e)
  match Json.ofNumber negative digits (fraction.getD []) exponent with
  | .unreadable => if negative then some (.decimal (String.ofList s)) else none
  | _ => some (.decimal (String.ofList s))

/-! ## Dates and times -/

/-- A date at the head of a text, and the text after it. -/
def date? (s : List Char) : Option (List Char) := do
  let (year, s) ← Instant.readExactly 4 s
  let s ← Instant.readMark ['-'] s
  let (month, s) ← Instant.readExactly 2 s
  let s ← Instant.readMark ['-'] s
  let (day, s) ← Instant.readExactly 2 s
  let _ ← Date.of? year month day
  return s

/-- A time of the day at the head of a text, and the text after it. -/
def time? (s : List Char) : Option (List Char) := do
  let (hour, s) ← Instant.readExactly 2 s
  let s ← Instant.readMark [':'] s
  let (minute, s) ← Instant.readExactly 2 s
  let s ← Instant.readMark [':'] s
  let (second, s) ← Instant.readExactly 2 s
  let (_, s) ← Instant.readFraction s
  if hour < 24 ∧ minute < 60 ∧ second ≤ 60 then some s else none

/-- Whether the text is a date, a time, or both, then perhaps with an offset. -/
def isMoment (s : List Char) : Bool :=
  match date? s with
  | some [] => true
  | some (mark :: rest) =>
      (mark = 'T' || mark = 't' || mark = ' ') &&
        match time? rest with
        | some [] => true
        | some tail => (Instant.readOffset tail).isSome
        | none => false
  | none => time? s = some []

/-- The run of characters that a number or a time at the head of a text takes. A
space after a date belongs to it if a time follows. -/
def scalarRun (s : List Char) : List Char :=
  let run := s.takeWhile isScalarChar
  match s.drop run.length with
  | ' ' :: rest =>
      let more := rest.takeWhile isScalarChar
      if date? run = some [] ∧ isMoment (run ++ ' ' :: more) then run ++ ' ' :: more else run
  | _ => run

/-- The value of a run of characters. -/
def scalar? (s : List Char) : Option Json :=
  if s = ['t', 'r', 'u', 'e'] then some (.bool true)
  else if s = ['f', 'a', 'l', 's', 'e'] then some (.bool false)
  else if isMoment s then some .unreadable
  else (integer? s).or (fractional? s)

end CaseAccess.Toml
