import CaseAccess.Calendar.Date
import CaseAccess.Text.Decimal

/-!
# Periods

A period is a number of years, months, weeks and days, written as the date part of
an ISO 8601 duration: `P1Y6M`, `P2W`. Reading takes the components in any order
and lets a later component replace an earlier one of the same unit; writing puts
them in the order of their size and leaves out those that are zero. A period of
nothing is `P0D`.

Adding a period to a date adds its months first and its days to the result. Both are
counted in 64 bits, which they never leave; the months have to fit 32 again.
-/

namespace CaseAccess

structure Period where
  years : UInt32 := 0
  months : UInt32 := 0
  weeks : UInt32 := 0
  days : UInt32 := 0
  deriving DecidableEq, Repr, Inhabited

inductive PeriodError where
  | missingDesignator (text : String)
  | empty (text : String)
  | invalidComponent (text : String)
  | overflow (period : String)
  deriving DecidableEq, Repr

def PeriodError.message : PeriodError → String
  | .missingDesignator text => s!"period '{text}' must start with 'P'"
  | .empty text => s!"period '{text}' has no components"
  | .invalidComponent text => s!"period '{text}' contains an invalid component"
  | .overflow period => s!"adding period '{period}' overflows the calendar"

namespace Period

/-- A unit of time that a component counts. -/
inductive Designator where
  | years
  | months
  | weeks
  | days
  deriving DecidableEq, Repr

/-- The unit of a letter. -/
def Designator.ofChar? : Char → Option Designator
  | 'Y' => some .years
  | 'M' => some .months
  | 'W' => some .weeks
  | 'D' => some .days
  | _ => none

/-- The period with that many of one unit. -/
def set (p : Period) : Designator → UInt32 → Period
  | .years, n => { p with years := n }
  | .months, n => { p with months := n }
  | .weeks, n => { p with weeks := n }
  | .days, n => { p with days := n }

/-- The number that a run of digits writes, if there is a digit and it fits 32 bits. -/
def count? (digits : List Char) : Option UInt32 :=
  if digits = [] then none
  else
    let n := Decimal.value digits
    if n < UInt32.size then some (UInt32.ofNat n) else none

/-- The components that a text writes, after the digits that have been read of the
first of them. -/
def components? (digits : List Char) : List Char → Option (List (Designator × UInt32))
  | [] => if digits = [] then some [] else none
  | c :: rest =>
      if c.isDigit then components? (digits ++ [c]) rest
      else do
        let n ← count? digits
        let unit ← Designator.ofChar? c
        let parts ← components? [] rest
        return (unit, n) :: parts

/-- The period of a list of components, in which the last of a unit counts. -/
def ofComponents (parts : List (Designator × UInt32)) : Period :=
  parts.foldl (fun p part => p.set part.1 part.2) {}

/-- The period that a text writes. -/
def parse (text : String) : Except PeriodError Period :=
  match text.toList with
  | 'P' :: [] => .error (.empty text)
  | 'P' :: body =>
      match components? [] body with
      | some parts => .ok (ofComponents parts)
      | none => .error (.invalidComponent text)
  | _ => .error (.missingDesignator text)

/-- One component, or nothing when its number is zero. -/
def componentText (n : UInt32) (unit : Char) : List Char :=
  if n = 0 then [] else Decimal.digits n.toNat ++ [unit]

/-- The text of a period. -/
def text (p : Period) : String :=
  if p = {} then "P0D"
  else
    String.ofList ('P' :: componentText p.years 'Y' ++ componentText p.months 'M'
      ++ componentText p.weeks 'W' ++ componentText p.days 'D')

instance : ToString Period := ⟨text⟩

/-- The months of the period, years included. -/
def totalMonths (p : Period) : UInt64 :=
  p.years.toUInt64 * 12 + p.months.toUInt64

/-- The days of the period, weeks included. -/
def totalDays (p : Period) : UInt64 :=
  p.weeks.toUInt64 * 7 + p.days.toUInt64

/-- A number in 32 bits, if it fits them. -/
def narrow? (n : UInt64) : Option UInt32 :=
  if n.toNat < UInt32.size then some n.toUInt32 else none

/-- The date reached by the months of the period and then by its days. -/
def addTo (p : Period) (date : Date) : Except PeriodError Date :=
  let reached := do
    let months ← narrow? p.totalMonths
    let date ← date.addMonths? months.toNat
    date.addDays? p.totalDays.toNat
  match reached with
  | some d => .ok d
  | none => .error (.overflow p.text)

/-- Numbers of 32 bits are multiplied and added in 64 bits without loss. -/
theorem toNat_mul_add (a b k : UInt32) :
    (a.toUInt64 * k.toUInt64 + b.toUInt64).toNat = k.toNat * a.toNat + b.toNat := by
  have hproduct : a.toNat * k.toNat ≤ (2 ^ 32 - 1) * (2 ^ 32 - 1) :=
    Nat.mul_le_mul (Nat.le_sub_one_of_lt a.toNat_lt) (Nat.le_sub_one_of_lt k.toNat_lt)
  have hsum := b.toNat_lt
  rw [UInt64.toNat_add, UInt64.toNat_mul, UInt32.toNat_toUInt64, UInt32.toNat_toUInt64,
    UInt32.toNat_toUInt64, Nat.mod_eq_of_lt (by omega : a.toNat * k.toNat < 2 ^ 64),
    Nat.mod_eq_of_lt (by omega), Nat.mul_comm]

theorem toNat_totalMonths (p : Period) :
    p.totalMonths.toNat = 12 * p.years.toNat + p.months.toNat :=
  toNat_mul_add p.years p.months 12

theorem toNat_totalDays (p : Period) :
    p.totalDays.toNat = 7 * p.weeks.toNat + p.days.toNat :=
  toNat_mul_add p.weeks p.days 7

end Period

end CaseAccess
