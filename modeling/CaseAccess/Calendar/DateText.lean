import CaseAccess.Calendar.Date
import CaseAccess.Text.Blank
import CaseAccess.Text.Decimal

/-!
# Dates as text

A date is written `YYYY-MM-DD`. A year outside 0 to 9999 carries a sign and as
many digits as it needs, at least four.

Reading is more generous than writing: blanks may stand around each of the three
numbers, month and day may have one digit, and a year may have fewer than four
digits, or any number of them after a sign. Nothing else may follow.
-/

namespace CaseAccess.Date

/-- The text of a year: four digits, with a sign outside 0 to 9999. -/
def yearText (year : Int) : List Char :=
  if 0 ≤ year ∧ year ≤ 9999 then Decimal.padded 4 year.toNat
  else (if year < 0 then '-' else '+') :: Decimal.padded 4 year.natAbs

/-- The text of a date. -/
def text (d : Date) : String :=
  String.ofList
    (yearText d.year ++ '-' :: Decimal.padded 2 d.month ++ '-' :: Decimal.padded 2 d.day)

instance : ToString Date := ⟨text⟩

/-- At most `width` digits, and at least one, at the head of a text. -/
def readNumber (width : Nat) (s : List Char) : Option (Nat × List Char) :=
  match (s.take width).takeWhile Char.isDigit with
  | [] => none
  | ds => some (Decimal.value ds, s.drop ds.length)

/-- A year at the head of a text, which has any number of digits after a sign. -/
def readYear (s : List Char) : Option (Int × List Char) :=
  match s with
  | '-' :: rest => (readNumber rest.length rest).map fun (n, tail) => (-n, tail)
  | '+' :: rest => (readNumber rest.length rest).map fun (n, tail) => (n, tail)
  | _ => (readNumber 4 s).map fun (n, tail) => (n, tail)

/-- The text after the hyphen that separates two numbers. -/
def readHyphen (s : List Char) : Option (List Char) :=
  match trimLeft s with
  | '-' :: rest => some (trimLeft rest)
  | _ => none

/-- The date that a text writes. -/
def ofText? (s : List Char) : Option Date := do
  let (year, s) ← readYear (trimLeft s)
  let s ← readHyphen s
  let (month, s) ← readNumber 2 s
  let s ← readHyphen s
  let (day, s) ← readNumber 2 s
  if trimLeft s = [] then of? year month day else none

/-- The date that a string writes. -/
def parse? (s : String) : Option Date :=
  ofText? s.toList

end CaseAccess.Date
