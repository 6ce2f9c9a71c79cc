import CaseAccess.Database.Columns
import CaseAccess.Proofs.RecordDocuments
import CaseAccess.Proofs.ViewEntitlement

/-!
# Records are read from the rows that are written of them

A record goes into a row by one list of columns and comes out of it by another, so each
value has to be found in its column before it is read. Once the columns are looked up, the
two lists of values are compared place by place. What is left is that every kind of value
is read as it was written, and for documents in a column that was seen before.

A change of a case writes all columns but one, and the row is then the row of the changed
case.
-/

namespace CaseAccess

namespace SqlValue

/-! ## Values -/

variable {α : Type}

theorem optional?_ofOption {write : α → SqlValue} {read : Reader α}
    (h : ∀ a, read (write a) = some a) (hnull : read .null = none) (o : Option α) :
    optional? read (ofOption write o) = some o := by
  cases o with
  | none => rfl
  | some a =>
      have ha := h a
      rw [ofOption, optional?.eq_def]
      split
      · next heq =>
          rw [heq, hnull] at ha
          cases ha
      · rw [ha, Option.map_some]

theorem text?_text (s : String) : text? (.text s) = some s := rfl

theorem number?_integer (n : Nat) : number? (.integer n) = some n := rfl

theorem bool?_ofBool (b : Bool) : bool? (ofBool b) = some b := by
  cases b <;> rfl

theorem typeRef?_ofTypeRef (r : TypeRef) : typeRef? (ofTypeRef r) = some r := rfl

theorem date?_ofDate (d : Date) : date? (ofDate d) = some d := by
  simp only [date?, ofDate, text?, Option.bind_eq_bind, Option.bind_some, d.parse?_text]

theorem json?_ofJson {write : α → Json} {read : Json.Reader α} (h : Json.Kept write read)
    (a : α) : json? read (ofJson (write a)) = some a := by
  simp only [json?, ofJson, text?_text, h.parse?, h.read, Option.bind_eq_bind, Option.bind_some]

end SqlValue

open SqlValue
open Json (Kept)

theorem Component.named?_ofNamed (c : Component) : named? (ofNamed c) = some c := c.ofName?_name

theorem Confidentiality.named?_ofNamed (c : Confidentiality) : named? (ofNamed c) = some c :=
  c.ofName?_name

theorem Lifecycle.named?_ofNamed (l : Lifecycle) : named? (ofNamed l) = some l := l.ofName?_name

/-! ## Records -/

theorem ApplicationRow.ofValues?_row (a : ApplicationRow) :
    ofValues? (a.row.select columns) = some a := by
  have hvalues : a.row.select columns =
      [.text a.uuid, .text a.label, .ofBool a.hasAllPermissions] := rfl
  simp only [hvalues, ofValues?, text?_text, bool?_ofBool, Option.bind_eq_bind, Option.bind_some,
    Option.pure_def]

theorem Grant.ofValues?_row (g : Grant) : ofValues? (g.row.select columns) = some g := by
  have hvalues : g.row.select columns = [.integer g.id, .text g.application,
      .ofNamed g.component, .ofJson (.ofTextSet g.scopes), .ofOption .ofTypeRef g.typeRef,
      .ofOption .ofNamed g.ceiling] := rfl
  simp only [hvalues, ofValues?, number?_integer, text?_text, Component.named?_ofNamed,
    show json? Json.scopes? (ofJson (.ofTextSet g.scopes)) = some g.scopes from
      json?_ofJson Kept.text.set g.scopes,
    optional?_ofOption typeRef?_ofTypeRef rfl, optional?_ofOption Confidentiality.named?_ofNamed rfl,
    Option.bind_eq_bind, Option.bind_some, Option.pure_def]

theorem CatalogGrant.ofValues?_row (g : CatalogGrant) :
    ofValues? (g.row.select columns) = some g := by
  have hvalues : g.row.select columns = [.integer g.id, .text g.application,
      .ofNamed g.component, .ofTypeRef g.catalog, .ofJson (.ofTextSet g.scopes),
      .ofOption .ofNamed g.ceiling] := rfl
  simp only [hvalues, ofValues?, number?_integer, text?_text, Component.named?_ofNamed,
    typeRef?_ofTypeRef,
    show json? Json.scopes? (ofJson (.ofTextSet g.scopes)) = some g.scopes from
      json?_ofJson Kept.text.set g.scopes,
    optional?_ofOption Confidentiality.named?_ofNamed rfl, Option.bind_eq_bind, Option.bind_some,
    Option.pure_def]

theorem TypeDefinition.ofValues?_row (d : TypeDefinition) :
    ofValues? d.reference (d.row.select ["component", "catalog", "relations"]) = some d := by
  have hvalues : d.row.select ["component", "catalog", "relations"] =
      [.ofNamed d.component, .ofOption .ofTypeRef d.catalog, .ofJson d.relations.toJson] := rfl
  simp only [hvalues, ofValues?, json?_ofJson TypeRelations.kept, Component.named?_ofNamed,
    optional?_ofOption typeRef?_ofTypeRef rfl, Option.bind_eq_bind, Option.bind_some,
    Option.pure_def]

theorem CaseRecord.ofValues?_row (c : CaseRecord) : ofValues? (c.row.select columns) = some c := by
  have hvalues : c.row.select columns = .text c.id :: c.changedValues := rfl
  simp only [hvalues, changedValues, ofValues?, text?_text, typeRef?_ofTypeRef, bool?_ofBool,
    Confidentiality.named?_ofNamed, Lifecycle.named?_ofNamed,
    optional?_ofOption date?_ofDate rfl, optional?_ofOption text?_text rfl,
    json?_ofJson Kept.textMap, json?_ofJson DecisionDates.kept.list, json?_ofJson Kept.date.list,
    Option.bind_eq_bind, Option.bind_some, Option.pure_def]

/-! ## Rows that change -/

theorem ApplicationRow.set_row {a b : ApplicationRow} (h : b.uuid = a.uuid) :
    b.row.set ["label", "has_all_permissions"] [.text a.label, .ofBool a.hasAllPermissions] =
      a.row := by
  obtain ⟨uuid, label, hasAllPermissions⟩ := b
  obtain rfl : uuid = a.uuid := h
  rfl

theorem CaseRecord.set_row {c e : CaseRecord} (h : e.id = c.id) :
    e.row.set changedColumns c.changedValues = c.row := by
  have hrow : e.row.set changedColumns c.changedValues =
      .of columns (.text e.id :: c.changedValues) := rfl
  rw [hrow, h]
  rfl

end CaseAccess
