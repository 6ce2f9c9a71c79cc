import CaseAccess.Case.Record
import CaseAccess.Catalog.TypeDefinition
import CaseAccess.Text.Blank

/-!
# Archive dates

The archive keeps a case for the period of its result type, counted from a source
date, and acts on the date at which that period ends. The result type says how the
source date is found: from the end of the case or of its main case, from a property,
from decisions or from related cases. A method that has no date to offer yet gives
none, and a method that lacks what it needs is an error.
-/

namespace CaseAccess

inductive ArchiveError where
  | missingDateAttribute (method : String)
  | missingProperty (name : String)
  | invalidPropertyDate (name value : String)
  | missingProcessPeriod
  | noDecision
  | noExpiryDate
  | noRelatedCase
  | unsupported (method : String)
  | period (cause : PeriodError)
  deriving DecidableEq, Repr

def ArchiveError.message : ArchiveError → String
  | .missingDateAttribute method => s!"derivation '{method}' requires a date attribute"
  | .missingProperty name => s!"case property '{name}' is not set"
  | .invalidPropertyDate name value =>
      s!"case property '{name}' holds '{value}', which is not a date"
  | .missingProcessPeriod => "derivation 'termijn' requires a process period"
  | .noDecision => "no decision is attached to the case"
  | .noExpiryDate => "no decision on the case has an expiry date"
  | .noRelatedCase => "no related case has an end date"
  | .unsupported method => s!"derivation '{method}' is not supported"
  | .period cause => cause.message

/-- The date a period after another. -/
def dateAfter (p : Period) (d : Date) : Except ArchiveError Date :=
  match p.addTo d with
  | .ok d => .ok d
  | .error cause => .error (.period cause)

/-- The latest date of a list. -/
def latestDate : List Date → Option Date
  | [] => none
  | d :: rest => some (rest.foldl Date.latest d)

/-- A value, or the error that there is none. -/
def orError {α : Type} (e : ArchiveError) : Option α → Except ArchiveError (Option α)
  | some a => .ok (some a)
  | none => .error e

/-- The part of a text that takes its first ten bytes in UTF-8, unless the text is
shorter or the tenth byte is inside a character. -/
def firstTenBytes? (s : List Char) : Option (List Char) :=
  go s 10
where
  /-- The characters at the head of a text that take exactly that many bytes. -/
  go : List Char → Nat → Option (List Char)
    | _, 0 => some []
    | [], _ => none
    | c :: rest, n =>
        if c.utf8Size ≤ n then (go rest (n - c.utf8Size)).map (c :: ·) else none

/-- The date that a property holds: the text may go on after it, as a point in time
does. -/
def propertyDate? (value : String) : Option Date :=
  let text := trim value.toList
  Date.ofText? ((firstTenBytes? text).getD text)

/-- The date from which the archive counts, for a case that ends on `endDate`. -/
def sourceDate (derivation : ArchiveDerivation) (c : CaseRecord) (endDate : Date)
    (mainCaseEndDate : Option Date) : Except ArchiveError (Option Date) :=
  match derivation.method with
  | .afgehandeld => .ok (some endDate)
  | .hoofdzaak => .ok mainCaseEndDate
  | .anderDatumkenmerk => .ok none
  | .termijn =>
      match derivation.processPeriod with
      | none => .error .missingProcessPeriod
      | some p => (dateAfter p endDate).map some
  | .eigenschap =>
      match derivation.dateAttribute with
      | none => .error (.missingDateAttribute "eigenschap")
      | some name =>
          match c.properties.get? name with
          | none => .error (.missingProperty name)
          | some value => orError (.invalidPropertyDate name value) (propertyDate? value)
  | .ingangsdatumBesluit => orError .noDecision (latestDate (c.decisions.map (·.effective)))
  | .vervaldatumBesluit =>
      if c.decisions = [] then .error .noDecision
      else orError .noExpiryDate (latestDate (c.decisions.filterMap (·.expiry)))
  | .gerelateerdeZaak => orError .noRelatedCase (latestDate c.relatedEndDates)
  | .zaakobject => .error (.unsupported "zaakobject")

/-- The date at which the archive acts on a case with that result. -/
def actionDate (result : ResultType) (c : CaseRecord) (endDate : Date)
    (mainCaseEndDate : Option Date) : Except ArchiveError (Option Date) :=
  match result.archiveActionPeriod with
  | none => .ok none
  | some p => do
      match ← sourceDate result.derivation c endDate mainCaseEndDate with
      | none => return none
      | some source => return some (← dateAfter p source)

end CaseAccess
