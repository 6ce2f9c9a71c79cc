import CaseAccess.Catalog.TypeDefinition
import CaseAccess.LocalBases

/-!
# Documents of other catalogs

The catalog of another installation answers with a document about a type. Its
addresses become references, so that they compare equal to the references in
requests, and its periods are read; a document in which one of them cannot be read
defines nothing. Statuses are put in the order of their numbers, and those of one
number stay as they were. An empty text stands for no text.
-/

namespace CaseAccess

open Json (Layout)

/-- A status as a catalog describes it. -/
structure StatusDocument where
  url : String
  number : UInt32
  isFinal : Bool := false
  deriving DecidableEq, Repr, Inhabited

/-- How the archive dates a case, as a catalog describes it. -/
structure ProcedureDocument where
  method : DerivationMethod
  processPeriod : Option String := none
  dateAttribute : Option String := none
  deriving DecidableEq, Repr, Inhabited

/-- A result as a catalog describes it. -/
structure ResultDocument where
  url : String
  archiveNomination : Option String := none
  archiveActionPeriod : Option String := none
  procedure : Option ProcedureDocument := none
  deriving DecidableEq, Repr, Inhabited

/-- A type as a catalog describes it. -/
structure TypeDocument where
  url : String
  catalog : Option String := none
  documentTypes : List String := []
  decisionTypes : List String := []
  statusTypes : List StatusDocument := []
  resultTypes : List ResultDocument := []
  deriving DecidableEq, Repr, Inhabited

/-- The text, unless it is empty. -/
def nonEmpty (text : Option String) : Option String :=
  text.filter (· ≠ "")

/-! ## Definitions from documents -/

/-- What in a document cannot be read. -/
inductive DocumentFault where
  | reference (cause : RefError)
  | period (cause : PeriodError)
  deriving DecidableEq, Repr

def DocumentFault.message : DocumentFault → String
  | .reference cause => cause.message
  | .period cause => cause.message

/-- The member of a document that cannot be read, and why. -/
structure DocumentError where
  member : String
  fault : DocumentFault
  deriving DecidableEq, Repr

def DocumentError.message (e : DocumentError) : String :=
  s!"{e.member}: {e.fault.message}"

/-- The reference that an address in a document writes. -/
def LocalBases.readAddress (bases : LocalBases) (address : String) :
    Except DocumentFault TypeRef :=
  match bases.read address with
  | .ok r => .ok r
  | .error cause => .error (.reference cause)

/-- The period that a text in a document writes. -/
def readPeriod (text : String) : Except DocumentFault Period :=
  match Period.parse text with
  | .ok p => .ok p
  | .error cause => .error (.period cause)

/-- What went wrong, at a member of the document. -/
def atMember {α : Type} (member : String) : Except DocumentFault α → Except DocumentError α
  | .ok a => .ok a
  | .error fault => .error ⟨member, fault⟩

def ProcedureDocument.derivation (p : ProcedureDocument) :
    Except DocumentFault ArchiveDerivation := do
  let processPeriod ← (nonEmpty p.processPeriod).mapM readPeriod
  return ⟨p.method, processPeriod, nonEmpty p.dateAttribute⟩

/-- The derivation of a result; without a procedure its date is set by hand. -/
def ResultDocument.derivation (r : ResultDocument) : Except DocumentFault ArchiveDerivation :=
  match r.procedure with
  | some p => p.derivation
  | none => .ok { method := .anderDatumkenmerk }

def ResultDocument.definition (bases : LocalBases) (r : ResultDocument) :
    Except DocumentFault ResultType := do
  let derivation ← r.derivation
  let reference ← bases.readAddress r.url
  let period ← (nonEmpty r.archiveActionPeriod).mapM readPeriod
  return ⟨reference, nonEmpty r.archiveNomination, period, derivation⟩

def StatusDocument.definition (bases : LocalBases) (s : StatusDocument) :
    Except DocumentFault StatusType := do
  let reference ← bases.readAddress s.url
  return ⟨reference, s.number, s.isFinal⟩

/-- The statuses by their numbers; those of one number stay as they were. -/
def inOrder (statuses : List StatusType) : List StatusType :=
  statuses.mergeSort fun a b => decide (a.order ≤ b.order)

/-- The type that a document defines. Neither the reference nor the component is the
document's to say. -/
def TypeDocument.definition (bases : LocalBases) (d : TypeDocument) (reference : TypeRef)
    (component : Component) : Except DocumentError TypeDefinition := do
  let catalog ← atMember "catalogus" ((nonEmpty d.catalog).mapM bases.readAddress)
  let documentTypes ← atMember "informatieobjecttypen" (d.documentTypes.mapM bases.readAddress)
  let decisionTypes ← atMember "besluittypen" (d.decisionTypes.mapM bases.readAddress)
  let statusTypes ← atMember "statustypen" (d.statusTypes.mapM (·.definition bases))
  let resultTypes ← atMember "resultaattypen" (d.resultTypes.mapM (·.definition bases))
  return {
    reference := reference
    component := component
    catalog := catalog
    relations := {
      documentTypes := SortedSet.ofList documentTypes
      decisionTypes := SortedSet.ofList decisionTypes
      statusTypes := inOrder statusTypes
      resultTypes := resultTypes } }

/-! ## Documents -/

def StatusDocument.layout : Layout StatusDocument :=
  StatusDocument.mk <$> .required "url" Json.text? <*> .required "volgnummer" Json.uint32?
    <*> .defaulted "isEindstatus" Json.bool? false

def StatusDocument.toJson (s : StatusDocument) : Json :=
  .object [
    ("url", .string s.url),
    ("volgnummer", Json.ofNat s.number.toNat),
    ("isEindstatus", .bool s.isFinal)]

def ProcedureDocument.layout : Layout ProcedureDocument :=
  ProcedureDocument.mk <$> .required "afleidingswijze" Json.named?
    <*> .optional "procestermijn" Json.text? <*> .optional "datumkenmerk" Json.text?

def ProcedureDocument.toJson (p : ProcedureDocument) : Json :=
  .object [
    ("afleidingswijze", Json.ofNamed p.method),
    ("procestermijn", Json.ofOption .string p.processPeriod),
    ("datumkenmerk", Json.ofOption .string p.dateAttribute)]

def ResultDocument.layout : Layout ResultDocument :=
  ResultDocument.mk <$> .required "url" Json.text? <*> .optional "archiefnominatie" Json.text?
    <*> .optional "archiefactietermijn" Json.text?
    <*> .optional "brondatumArchiefprocedure" ProcedureDocument.layout.decode

def ResultDocument.toJson (r : ResultDocument) : Json :=
  .object [
    ("url", .string r.url),
    ("archiefnominatie", Json.ofOption .string r.archiveNomination),
    ("archiefactietermijn", Json.ofOption .string r.archiveActionPeriod),
    ("brondatumArchiefprocedure", Json.ofOption ProcedureDocument.toJson r.procedure)]

def TypeDocument.layout : Layout TypeDocument :=
  TypeDocument.mk <$> .required "url" Json.text? <*> .optional "catalogus" Json.text?
    <*> .defaulted "informatieobjecttypen" (Json.list? Json.text?) []
    <*> .defaulted "besluittypen" (Json.list? Json.text?) []
    <*> .defaulted "statustypen" (Json.list? StatusDocument.layout.decode) []
    <*> .defaulted "resultaattypen" (Json.list? ResultDocument.layout.decode) []

def TypeDocument.toJson (d : TypeDocument) : Json :=
  .object [
    ("url", .string d.url),
    ("catalogus", Json.ofOption .string d.catalog),
    ("informatieobjecttypen", Json.ofTexts d.documentTypes),
    ("besluittypen", Json.ofTexts d.decisionTypes),
    ("statustypen", Json.ofList StatusDocument.toJson d.statusTypes),
    ("resultaattypen", Json.ofList ResultDocument.toJson d.resultTypes)]

end CaseAccess
