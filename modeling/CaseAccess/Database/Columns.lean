import CaseAccess.Database.Row

/-!
# Records in columns

For each kind of record, the columns of its table, the values that it writes to them and
the record that such values are read as. Sets of scopes, the properties and the dates of a
case, and the relations of a type are documents in a column of their own.

The number of a row is given by the table, and is the first of its columns. A type is read
without the column that holds its reference, which whoever asks for it knows.
-/

namespace CaseAccess

/-! ## Clients and applications -/

namespace ClientSecret

def columns : List String := ["client_id", "secret"]

def row (c : ClientSecret) : SqlRow := .of columns [.text c.clientId, .text c.secret]

end ClientSecret

namespace ClientRow

def columns : List String := ["client_id", "application"]

def row (c : ClientRow) : SqlRow := .of columns [.text c.clientId, .text c.application]

end ClientRow

namespace ApplicationRow

def columns : List String := ["uuid", "label", "has_all_permissions"]

def row (a : ApplicationRow) : SqlRow :=
  .of columns [.text a.uuid, .text a.label, .ofBool a.hasAllPermissions]

def ofValues? : List SqlValue → Option ApplicationRow
  | [uuid, label, hasAllPermissions] => do
      let uuid ← uuid.text?
      let label ← label.text?
      let hasAllPermissions ← hasAllPermissions.bool?
      return { uuid, label, hasAllPermissions }
  | _ => none

end ApplicationRow

/-- The text in a column that is read alone. -/
def SqlValue.textOf? : List SqlValue → Option String
  | [v] => v.text?
  | _ => none

/-! ## Grants -/

namespace Grant

def columns : List String :=
  ["id", "application", "component", "scopes", "type_ref", "max_confidentiality"]

def row (g : Grant) : SqlRow :=
  .of columns [.integer g.id, .text g.application, .ofNamed g.component,
    .ofJson (.ofTextSet g.scopes), .ofOption .ofTypeRef g.typeRef, .ofOption .ofNamed g.ceiling]

def ofValues? : List SqlValue → Option Grant
  | [id, application, component, scopes, typeRef, ceiling] => do
      let id ← id.number?
      let application ← application.text?
      let component ← component.named?
      let scopes ← scopes.json? Json.scopes?
      let typeRef ← typeRef.optional? SqlValue.typeRef?
      let ceiling ← ceiling.optional? SqlValue.named?
      return { id, application, component, scopes, typeRef, ceiling }
  | _ => none

end Grant

namespace CatalogGrant

def columns : List String :=
  ["id", "application", "component", "catalog", "scopes", "max_confidentiality"]

def row (g : CatalogGrant) : SqlRow :=
  .of columns [.integer g.id, .text g.application, .ofNamed g.component, .ofTypeRef g.catalog,
    .ofJson (.ofTextSet g.scopes), .ofOption .ofNamed g.ceiling]

def ofValues? : List SqlValue → Option CatalogGrant
  | [id, application, component, catalog, scopes, ceiling] => do
      let id ← id.number?
      let application ← application.text?
      let component ← component.named?
      let catalog ← catalog.typeRef?
      let scopes ← scopes.json? Json.scopes?
      let ceiling ← ceiling.optional? SqlValue.named?
      return { id, application, component, catalog, scopes, ceiling }
  | _ => none

end CatalogGrant

/-! ## Types -/

namespace TypeDefinition

def columns : List String := ["reference", "component", "catalog", "relations"]

def row (d : TypeDefinition) : SqlRow :=
  .of columns [.ofTypeRef d.reference, .ofNamed d.component, .ofOption .ofTypeRef d.catalog,
    .ofJson d.relations.toJson]

/-- The type of that reference, from the other columns of its row. -/
def ofValues? (reference : TypeRef) : List SqlValue → Option TypeDefinition
  | [component, catalog, relations] => do
      let relations ← relations.json? TypeRelations.layout.decode
      let component ← component.named?
      let catalog ← catalog.optional? SqlValue.typeRef?
      return { reference, component, catalog, relations }
  | _ => none

end TypeDefinition

/-! ## Cases, statuses and results -/

namespace CaseRecord

def columns : List String :=
  ["id", "case_type", "confidentiality", "lifecycle", "end_date", "main_case", "suspended",
    "suspension_reason", "ever_suspended", "archive_nomination", "archive_action_date",
    "properties", "decisions", "related_end_dates"]

def row (c : CaseRecord) : SqlRow :=
  .of columns [.text c.id, .ofTypeRef c.caseType, .ofNamed c.confidentiality,
    .ofNamed c.lifecycle, .ofOption .ofDate c.endDate, .ofOption .text c.mainCase,
    .ofBool c.suspended, .ofOption .text c.suspensionReason, .ofBool c.everSuspended,
    .ofOption .text c.archiveNomination, .ofOption .ofDate c.archiveActionDate,
    .ofJson (.ofTextMap c.properties), .ofJson (.ofList DecisionDates.toJson c.decisions),
    .ofJson (.ofList Json.ofDate c.relatedEndDates)]

/-- The columns of a case that change, which are all but its id. -/
def changedColumns : List String :=
  ["case_type", "confidentiality", "lifecycle", "end_date", "main_case", "suspended",
    "suspension_reason", "ever_suspended", "archive_nomination", "archive_action_date",
    "properties", "decisions", "related_end_dates"]

def changedValues (c : CaseRecord) : List SqlValue :=
  [.ofTypeRef c.caseType, .ofNamed c.confidentiality, .ofNamed c.lifecycle,
    .ofOption .ofDate c.endDate, .ofOption .text c.mainCase, .ofBool c.suspended,
    .ofOption .text c.suspensionReason, .ofBool c.everSuspended,
    .ofOption .text c.archiveNomination, .ofOption .ofDate c.archiveActionDate,
    .ofJson (.ofTextMap c.properties), .ofJson (.ofList DecisionDates.toJson c.decisions),
    .ofJson (.ofList Json.ofDate c.relatedEndDates)]

def ofValues? : List SqlValue → Option CaseRecord
  | [id, caseType, confidentiality, lifecycle, endDate, mainCase, suspended, suspensionReason,
      everSuspended, archiveNomination, archiveActionDate, properties, decisions,
      relatedEndDates] => do
      let id ← id.text?
      let caseType ← caseType.typeRef?
      let confidentiality ← confidentiality.named?
      let lifecycle ← lifecycle.named?
      let endDate ← endDate.optional? SqlValue.date?
      let mainCase ← mainCase.optional? SqlValue.text?
      let suspended ← suspended.bool?
      let suspensionReason ← suspensionReason.optional? SqlValue.text?
      let everSuspended ← everSuspended.bool?
      let archiveNomination ← archiveNomination.optional? SqlValue.text?
      let archiveActionDate ← archiveActionDate.optional? SqlValue.date?
      let properties ← properties.json? (Json.table? Json.text?)
      let decisions ← decisions.json? (Json.list? DecisionDates.layout.decode)
      let relatedEndDates ← relatedEndDates.json? (Json.list? Json.date?)
      return {
        id, caseType, confidentiality, lifecycle, endDate, mainCase, suspended,
        suspensionReason, everSuspended, archiveNomination, archiveActionDate, properties,
        decisions, relatedEndDates }
  | _ => none

end CaseRecord

namespace StatusRecord

def columns : List String := ["id", "case_id", "status_type", "set_at", "is_final"]

def row (r : StatusRecord) : SqlRow :=
  .of columns [.integer r.id, .text r.caseId, .ofTypeRef r.statusType, .text (r.setAt.text 6),
    .ofBool r.isFinal]

def ofValues? : List SqlValue → Option StatusRecord
  | [id, caseId, statusType, setAt, isFinal] => do
      let id ← id.number?
      let caseId ← caseId.text?
      let statusType ← statusType.typeRef?
      let setAt ← setAt.text? >>= Instant.parse?
      let isFinal ← isFinal.bool?
      return { id, caseId, statusType, setAt, isFinal }
  | _ => none

end StatusRecord

namespace ResultRecord

def columns : List String := ["case_id", "result_type"]

def row (r : ResultRecord) : SqlRow := .of columns [.text r.caseId, .ofTypeRef r.resultType]

end ResultRecord

end CaseAccess
