import CaseAccess.Proofs.StorageReturns

/-!
# Periods are kept as they were given

A period is kept as its text: in the document that is written of a type with results, and in
the column of the database that holds such a document. Its text is read as the same period
again, so it comes back from wherever it was kept, whatever else is kept there.
-/

namespace CaseAccess

/-! ## Definitions with periods -/

open Json (Kept)
open Json.Layout (decode_object read_defaulted read_map read_nullable read_required read_seq)

theorem TypeDefinition.kept : Kept TypeDefinition.toJson TypeDefinition.layout.decode where
  plain d := ⟨Kept.typeRef.plain _, (Kept.named Component.ofName?_name).plain _,
    (Kept.typeRef.option rfl).plain _, TypeRelations.kept.plain _, trivial⟩
  read d := by
    rw [TypeDefinition.toJson, decode_object (by rfl)]
    exact read_seq (read_seq (read_seq (read_map (read_required rfl (Kept.typeRef.read _)))
      (read_required rfl ((Kept.named Component.ofName?_name).read _)))
      (read_nullable rfl ((Kept.typeRef.option rfl).read _)))
      (read_defaulted rfl (TypeRelations.kept.read _))

namespace Database

/-- No command touches a type. -/
theorem spares_type (t : TypeDefinition) (d : Database) (commands : List StorageCommand) :
    Spares (.type t) d commands := by
  induction commands generalizing d with
  | nil => exact trivial
  | cons command rest ih =>
      have hnot : ¬ command.Touches (.type t) := by cases command <;> exact id
      exact ⟨fun htouches => absurd htouches hnot, ih _⟩

/-- A type that was stored is there from then on. -/
theorem type?_after {earlier later : List StorageCommand} {t : TypeDefinition} {d : Database}
    (h : (after {} earlier).execute (.createType t) = .ok d) :
    (d.after later).type? t.reference = .ok (some t) := by
  have hs : (Store.after {} earlier).Regular := Store.regular_empty.after earlier
  have hearlier : after {} earlier = (Store.after {} earlier).database :=
    Store.database_after Store.regular_empty earlier
  rw [hearlier, Store.database_execute hs.statuses] at h
  obtain ⟨s, hexecute, rfl⟩ := except_of_map_ok h
  have hregular : s.Regular := (Store.executes_of_ok hexecute).regular hs
  have hholds : s.Holds (.type t) := Store.holds_of_stores (.createType t) hexecute
  rw [Store.database_after hregular]
  exact (Store.returns_type (hholds.after hregular (spares_type t _ later))).1

end Database

/-- A period is read of its text, which is in the notation and in order. So the text of what
was read is read as the same again. It is read of a document that says it, and a type that
has it is read of its document and, whatever else is stored before and after it, of the
database. -/
theorem period_comes_back (p : Period) :
    Period.parse p.text = .ok p ∧
    (Period.IsWriting p.text p.parts ∧ Period.InOrder p.parts ∧
      (p ≠ {} → ∀ part ∈ p.parts, part.number ≠ 0)) ∧
    (∀ text, Period.parse text = .ok p → Period.parse p.text = Period.parse text) ∧
    (Json.parse? (Json.ofPeriod p).compact).bind Json.period? = some p ∧
    ∀ t : TypeDefinition,
      (Json.parse? t.toJson.compact).bind TypeDefinition.layout.decode = some t ∧
      ∀ earlier later d, (Database.after {} earlier).execute (.createType t) = .ok d →
        (d.after later).type? t.reference = .ok (some t) := by
  refine ⟨p.parse_text, ⟨p.isWriting_text, p.inOrder_parts, fun hp _ => Period.number_ne_zero hp⟩,
    fun text htext => p.parse_text.trans htext.symm, ?_, fun t => ⟨?_, fun _ _ _ hcreated =>
      Database.type?_after hcreated⟩⟩
  · rw [Kept.period.parse?, Option.bind_some, Kept.period.read]
  · rw [TypeDefinition.kept.parse?, Option.bind_some, TypeDefinition.kept.read]

/-- As many days as there can be, after a year and a half. -/
def longPeriod : Period := { months := 18, days := 4294967295 }

/-- A type with two results of one reference, each with the period and a period of nothing. -/
def longKeptType : TypeDefinition where
  reference := ⟨"file"⟩
  component := .zrc
  catalog := none
  relations := {
    resultTypes := [
      ⟨⟨"kept"⟩, some "bewaren", some longPeriod, ⟨.termijn, some {}, none⟩⟩,
      ⟨⟨"kept"⟩, none, some {}, ⟨.termijn, some longPeriod, none⟩⟩] }

theorem long_period_comes_back :
    Period.parse "P018M4294967295D" = .ok longPeriod ∧
      Period.parse longPeriod.text = Period.parse "P018M4294967295D" ∧
      ∃ d, (Database.after {} []).execute (.createType longKeptType) = .ok d ∧
        (d.after [.createType { longKeptType with relations := {} }]).type? ⟨"file"⟩ =
          .ok (some longKeptType) := by
  obtain ⟨-, -, hstable, -, hkept⟩ := period_comes_back longPeriod
  have hread : Period.parse "P018M4294967295D" = .ok longPeriod := by decide +kernel
  obtain ⟨-, hstored⟩ := hkept longKeptType
  exact ⟨hread, hstable _ hread, _, rfl, hstored [] _ _ rfl⟩

end CaseAccess
