/-!
# Natural numbers in decimal digits
-/

namespace CaseAccess.Decimal

/-- The natural number that decimal digits write. -/
def value (digits : List Char) : Nat :=
  digits.foldl (fun n c => n * 10 + (c.toNat - 48)) 0

/-- The digits of a number, without leading zeros. -/
def digits (n : Nat) : List Char :=
  Nat.toDigits 10 n

/-- The digits of a number with zeros in front up to that width. -/
def padded (width n : Nat) : List Char :=
  List.replicate (width - (digits n).length) '0' ++ digits n

/-- The longest run of digits at the head of a text, which must not be empty, and
the text after it. -/
def run? (s : List Char) : Option (List Char × List Char) :=
  match s.takeWhile Char.isDigit with
  | [] => none
  | ds => some (ds, s.dropWhile Char.isDigit)

end CaseAccess.Decimal
