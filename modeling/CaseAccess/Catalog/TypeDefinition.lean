import CaseAccess.Application
import CaseAccess.Calendar.Period

/-!
# Type definitions

A type belongs to a component and, where that is known, to a catalog. The type of a
case also says which document types, decision types, statuses and results go with
it; a status may be final, which closes the case, and a result says how long the
archive keeps the case and from which date that time runs.

A list of statuses or results may name one reference twice; the first entry counts.
-/

namespace CaseAccess

/-- How the date is found from which the archive counts. -/
inductive DerivationMethod where
  /-- the date the case was closed -/
  | afgehandeld
  /-- a date in a named property of the case -/
  | eigenschap
  /-- the end date of the main case -/
  | hoofdzaak
  /-- the end date and a further period -/
  | termijn
  /-- set by hand -/
  | anderDatumkenmerk
  /-- the last date a decision takes effect -/
  | ingangsdatumBesluit
  /-- the last date a decision expires -/
  | vervaldatumBesluit
  /-- the last end date of a related case -/
  | gerelateerdeZaak
  /-- a date of an object of the case -/
  | zaakobject
  deriving DecidableEq, Repr, Inhabited

namespace DerivationMethod

def name : DerivationMethod → String
  | .afgehandeld => "afgehandeld"
  | .eigenschap => "eigenschap"
  | .hoofdzaak => "hoofdzaak"
  | .termijn => "termijn"
  | .anderDatumkenmerk => "ander_datumkenmerk"
  | .ingangsdatumBesluit => "ingangsdatum_besluit"
  | .vervaldatumBesluit => "vervaldatum_besluit"
  | .gerelateerdeZaak => "gerelateerde_zaak"
  | .zaakobject => "zaakobject"

instance : Named DerivationMethod where
  all := [.afgehandeld, .eigenschap, .hoofdzaak, .termijn, .anderDatumkenmerk,
    .ingangsdatumBesluit, .vervaldatumBesluit, .gerelateerdeZaak, .zaakobject]
  name := name

end DerivationMethod

/-- What a type can be related to. -/
inductive Relation where
  | document
  | decision
  | status
  | result
  deriving DecidableEq, Repr, Inhabited

instance : Named Relation where
  all := [.document, .decision, .status, .result]
  name
    | .document => "document"
    | .decision => "decision"
    | .status => "status"
    | .result => "result"

structure StatusType where
  reference : TypeRef
  /-- The place of the status among those of its case type. -/
  order : UInt32
  isFinal : Bool
  deriving DecidableEq, Repr, Inhabited

structure ArchiveDerivation where
  method : DerivationMethod
  processPeriod : Option Period := none
  dateAttribute : Option String := none
  deriving DecidableEq, Repr, Inhabited

structure ResultType where
  reference : TypeRef
  archiveNomination : Option String
  archiveActionPeriod : Option Period
  derivation : ArchiveDerivation
  deriving DecidableEq, Repr, Inhabited

structure TypeRelations where
  documentTypes : SortedSet TypeRef := {}
  decisionTypes : SortedSet TypeRef := {}
  statusTypes : List StatusType := []
  resultTypes : List ResultType := []
  deriving DecidableEq, Repr, Inhabited

structure TypeDefinition where
  reference : TypeRef
  component : Component
  catalog : Option TypeRef
  relations : TypeRelations := {}
  deriving DecidableEq, Repr, Inhabited

namespace TypeDefinition

/-- The status of that reference. -/
def statusType? (d : TypeDefinition) (reference : TypeRef) : Option StatusType :=
  d.relations.statusTypes.find? (·.reference = reference)

/-- The result of that reference. -/
def resultType? (d : TypeDefinition) (reference : TypeRef) : Option ResultType :=
  d.relations.resultTypes.find? (·.reference = reference)

/-- The references of one relation. -/
def related (d : TypeDefinition) : Relation → SortedSet TypeRef
  | .document => d.relations.documentTypes
  | .decision => d.relations.decisionTypes
  | .status => SortedSet.ofList (d.relations.statusTypes.map (·.reference))
  | .result => SortedSet.ofList (d.relations.resultTypes.map (·.reference))

end TypeDefinition

/-! ## Documents -/

namespace Json

def period? : Reader Period := fun v => do
  let text ← text? v
  (Period.parse text).toOption

def ofPeriod (p : Period) : Json := .string p.text

def uint32? : Reader UInt32 := fun v => (natural? 32 v).map UInt32.ofNat

end Json

open Json (Layout)

def StatusType.layout : Layout StatusType :=
  StatusType.mk <$> .required "reference" Json.typeRef? <*> .required "order" Json.uint32?
    <*> .required "is_final" Json.bool?

def StatusType.toJson (s : StatusType) : Json :=
  .object [
    ("reference", Json.ofTypeRef s.reference),
    ("order", Json.ofNat s.order.toNat),
    ("is_final", .bool s.isFinal)]

def ArchiveDerivation.layout : Layout ArchiveDerivation :=
  ArchiveDerivation.mk <$> .required "method" Json.named?
    <*> .optional "process_period" Json.period? <*> .optional "date_attribute" Json.text?

def ArchiveDerivation.toJson (d : ArchiveDerivation) : Json :=
  .object [
    ("method", Json.ofNamed d.method),
    ("process_period", Json.ofOption Json.ofPeriod d.processPeriod),
    ("date_attribute", Json.ofOption .string d.dateAttribute)]

def ResultType.layout : Layout ResultType :=
  ResultType.mk <$> .required "reference" Json.typeRef?
    <*> .optional "archive_nomination" Json.text?
    <*> .optional "archive_action_period" Json.period?
    <*> .required "derivation" ArchiveDerivation.layout.decode

def ResultType.toJson (r : ResultType) : Json :=
  .object [
    ("reference", Json.ofTypeRef r.reference),
    ("archive_nomination", Json.ofOption .string r.archiveNomination),
    ("archive_action_period", Json.ofOption Json.ofPeriod r.archiveActionPeriod),
    ("derivation", r.derivation.toJson)]

def TypeRelations.layout : Layout TypeRelations :=
  TypeRelations.mk <$> .defaulted "document_types" (Json.set? Json.typeRef?) {}
    <*> .defaulted "decision_types" (Json.set? Json.typeRef?) {}
    <*> .defaulted "status_types" (Json.list? StatusType.layout.decode) []
    <*> .defaulted "result_types" (Json.list? ResultType.layout.decode) []

def TypeRelations.toJson (r : TypeRelations) : Json :=
  .object [
    ("document_types", Json.ofList Json.ofTypeRef r.documentTypes.toList),
    ("decision_types", Json.ofList Json.ofTypeRef r.decisionTypes.toList),
    ("status_types", Json.ofList StatusType.toJson r.statusTypes),
    ("result_types", Json.ofList ResultType.toJson r.resultTypes)]

def TypeDefinition.layout : Layout TypeDefinition :=
  TypeDefinition.mk <$> .required "reference" Json.typeRef?
    <*> .required "component" Json.component? <*> .nullable "catalog" Json.typeRef?
    <*> .defaulted "relations" TypeRelations.layout.decode {}

def TypeDefinition.toJson (d : TypeDefinition) : Json :=
  .object [
    ("reference", Json.ofTypeRef d.reference),
    ("component", Json.ofNamed d.component),
    ("catalog", Json.ofOption Json.ofTypeRef d.catalog),
    ("relations", d.relations.toJson)]

end CaseAccess
