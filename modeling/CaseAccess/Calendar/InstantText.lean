import CaseAccess.Calendar.DateText
import CaseAccess.Calendar.Instant

/-!
# Instants as text

The interchange form is `YYYY-MM-DDThh:mm:ssZ`, with the fraction of the second
before the `Z` in a chosen number of digits. A leap second is written `60`. Reading
takes any number of digits in the fraction, of which nine count, and an offset from
UTC in place of the `Z`; it knows only years of four digits, so an instant of
another year can be written and not read back.

Messages use a looser form: a blank instead of the `T`, as many groups of three
digits as the fraction needs, and `UTC` at the end.
-/

namespace CaseAccess.Instant

/-- Hours, minutes and seconds, each in two digits, a leap second as `60`. -/
def clock (t : Instant) : List Char :=
  let leap := if t.nanos < 1000000000 then 0 else 1
  Decimal.padded 2 (t.second / 3600) ++ ':' :: Decimal.padded 2 (t.second / 60 % 60)
    ++ ':' :: Decimal.padded 2 (t.second % 60 + leap)

/-- The nanoseconds after the second that `clock` shows. -/
def fraction (t : Instant) : Nat := t.nanos % 1000000000

/-- The first `digits` of the nine digits of the fraction, after a point. -/
def fractionText (t : Instant) (digits : Nat) : List Char :=
  if digits = 0 then [] else '.' :: (Decimal.padded 9 t.fraction).take digits

/-- The interchange form with a fraction of that many digits. -/
def text (t : Instant) (digits : Nat) : String :=
  String.ofList (t.date.text.toList ++ 'T' :: t.clock ++ t.fractionText digits ++ ['Z'])

/-- The form that messages use. -/
def display (t : Instant) : String :=
  let digits :=
    if t.fraction = 0 then 0
    else if t.fraction % 1000000 = 0 then 3
    else if t.fraction % 1000 = 0 then 6
    else 9
  String.ofList (t.date.text.toList ++ ' ' :: t.clock ++ t.fractionText digits) ++ " UTC"

/-- Whether the interchange form of the instant can be read back: its year has four
digits and no sign. -/
def isReadable (t : Instant) : Bool :=
  0 ≤ t.date.year && t.date.year ≤ 9999

/-- A number of exactly `width` digits at the head of a text. -/
def readExactly (width : Nat) (s : List Char) : Option (Nat × List Char) :=
  let ds := s.take width
  if ds.length = width ∧ ds.all Char.isDigit then some (Decimal.value ds, s.drop width) else none

/-- The nanoseconds that the digits after a point write; the tenth digit and those
after it do not count. -/
def readFraction : List Char → Option (Nat × List Char)
  | '.' :: rest => do
      let (ds, rest) ← Decimal.run? rest
      let ds := ds.take 9
      return (Decimal.value ds * Nat.pow 10 (9 - ds.length), rest)
  | s => some (0, s)

/-- Seconds east of UTC, at the end of a text. -/
def readOffset : List Char → Option Int
  | ['Z'] | ['z'] => some 0
  | sign :: a :: b :: ':' :: c :: d :: [] =>
      if [a, b, c, d].all Char.isDigit ∧ Decimal.value [c, d] < 60 ∧ Decimal.value [a, b] < 24 then
        let seconds := Decimal.value [a, b] * 3600 + Decimal.value [c, d] * 60
        if sign = '+' then some seconds
        else if sign = '-' ∨ sign = '\u2212' then some (-seconds)
        else none
      else none
  | _ => none

/-- What follows a separator. -/
def readMark (marks : List Char) : List Char → Option (List Char)
  | c :: rest => if c ∈ marks then some rest else none
  | [] => none

/-- The instant that a text in the interchange form writes. -/
def ofText? (s : List Char) : Option Instant := do
  let (year, s) ← readExactly 4 s
  let s ← readMark ['-'] s
  let (month, s) ← readExactly 2 s
  let s ← readMark ['-'] s
  let (day, s) ← readExactly 2 s
  let s ← readMark ['T', 't', ' '] s
  let (hour, s) ← readExactly 2 s
  let s ← readMark [':'] s
  let (minute, s) ← readExactly 2 s
  let s ← readMark [':'] s
  let (second, s) ← readExactly 2 s
  let (nanos, s) ← readFraction s
  let offset ← readOffset s
  let date ← Date.of? year month day
  if hour < 24 ∧ minute < 60 ∧ second ≤ 60 then
    let (second, nanos) := if second = 60 then (59, nanos + 1000000000) else (second, nanos)
    let seconds : Int :=
      (date.dayNumber - epochDay) * 86400 + (hour * 3600 + minute * 60 + second : Nat) - offset
    ofEpoch? seconds nanos
  else none

/-- The instant that a string in the interchange form writes. -/
def parse? (s : String) : Option Instant :=
  ofText? s.toList

end CaseAccess.Instant
