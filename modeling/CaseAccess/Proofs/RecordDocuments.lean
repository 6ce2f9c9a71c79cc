import CaseAccess.Case.Record
import CaseAccess.Catalog.TypeDefinition
import CaseAccess.Proofs.CalendarText
import CaseAccess.Proofs.PeriodNotation
import CaseAccess.Proofs.RecordReading

/-!
# Records are read from the documents that are written of them

Where a record is kept as a document, one function writes it and another reads it, and the
two have only the names of the members in common. `Kept` says of such a pair that nothing
is lost between them: what is written has a text of its own, and from what is written the
record is read again. It is shown for each way in which documents are put together, and
then for the records by the members that they have.
-/

namespace CaseAccess

namespace Json

variable {α : Type}

theorem arePlain_map {write : α → Json} (h : ∀ a, (write a).IsPlain) (items : List α) :
    ArePlain (items.map write) := by
  induction items with
  | nil => exact trivial
  | cons a rest ih => exact ⟨h a, ih⟩

theorem havePlain_map {write : α → Json} {name : α → String} (h : ∀ a, (write a).IsPlain)
    (items : List α) : HavePlain (items.map fun a => (name a, write a)) := by
  induction items with
  | nil => exact trivial
  | cons a rest ih => exact ⟨h a, ih⟩

/-- What is written has a text, and is read as what it was written of. -/
structure Kept (write : α → Json) (read : Reader α) : Prop where
  plain : ∀ a, (write a).IsPlain
  read : ∀ a, read (write a) = some a

namespace Kept

variable {write : α → Json} {read : Reader α}

theorem parse? (h : Kept write read) (a : α) :
    Json.parse? (write a).compact = some (write a) :=
  parse?_compact (h.plain a)

/-! ## Ways to put documents together -/

theorem text : Kept .string text? where
  plain _ := trivial
  read _ := rfl

theorem bool : Kept .bool bool? where
  plain _ := trivial
  read _ := rfl

theorem uint32 : Kept (fun n : UInt32 => ofNat n.toNat) uint32? where
  plain n := by
    have hn : n.toNat < UInt32.size := n.toNat_lt
    have hsize : UInt32.size = 4294967296 := rfl
    simp only [ofNat, IsPlain]
    omega
  read n := by
    have hn : n.toNat < UInt32.size := n.toNat_lt
    have hsize : UInt32.size = 4294967296 := rfl
    have hbits : Nat.pow 2 32 - 1 = 4294967295 := rfl
    have hrange : 0 ≤ (n.toNat : Int) ∧ (n.toNat : Int) ≤ (Nat.pow 2 32 - 1 : Nat) := by
      rw [hbits]
      omega
    simp only [uint32?, natural?, ofNat, integer?, if_pos hrange, Option.map_some,
      Int.toNat_natCast, UInt32.ofNat_toNat]

theorem named [Named α] (h : ∀ a : α, Named.ofName? (Named.name a) = some a) :
    Kept (ofNamed (α := α)) named? where
  plain _ := trivial
  read := h

theorem list (h : Kept write read) : Kept (ofList write) (list? read) where
  plain := arePlain_map h.plain
  read items := by
    have hitems := mapM_eq_some (g := id) h.read items
    rwa [List.map_id] at hitems

theorem set [Ord α] [Std.TransOrd α] (h : Kept write read) :
    Kept (fun s : SortedSet α => ofList write s.toList) (set? read) where
  plain s := h.list.plain s.toList
  read s := by
    rw [set?, h.list.read, Option.map_some, s.ofList_toList]

theorem textMap : Kept ofTextMap (table? text?) where
  plain m := by
    have hvalue : ∀ p : String × String, (Json.string p.2).IsPlain := fun _ => trivial
    exact havePlain_map hvalue m.toList
  read m := by
    have hentries : (m.toList.map fun p => (p.1, Json.string p.2)).mapM
        (fun q => (text? q.2).map (q.1, ·)) = some (m.toList.map id) := by
      refine mapM_eq_some ?_ _
      exact fun _ => rfl
    rw [ofTextMap, table?, hentries, List.map_id, Option.map_some, m.ofList_toList]

/-- `null` is none, so nothing else may be read of it. -/
theorem option (h : Kept write read) (hnull : read .null = none) :
    Kept (ofOption write) (optional? read) where
  plain
    | none => trivial
    | some a => h.plain a
  read
    | none => rfl
    | some a => by
        have ha := h.read a
        rw [ofOption, optional?.eq_def]
        split
        · next heq =>
            rw [heq, hnull] at ha
            cases ha
        · rw [ha, Option.map_some]

theorem typeRef : Kept ofTypeRef typeRef? where
  plain _ := trivial
  read _ := rfl

theorem date : Kept ofDate date? where
  plain _ := trivial
  read d := by
    simp only [date?, ofDate, text?, Option.bind_eq_bind, Option.bind_some, d.parse?_text]

theorem period : Kept ofPeriod period? where
  plain _ := trivial
  read p := by
    show (Period.parse p.text).toOption = some p
    rw [p.parse_text]
    rfl

end Kept

end Json

open Json (Kept)
open Json.Layout (decode_object read_defaulted read_map read_nullable read_required read_seq)

/-! ## Records -/

theorem Lifecycle.ofName?_name (l : Lifecycle) : Named.ofName? (Named.name l) = some l := by
  cases l <;> rfl

theorem DerivationMethod.ofName?_name (m : DerivationMethod) :
    Named.ofName? (Named.name m) = some m := by
  cases m <;> rfl

theorem DecisionDates.kept : Kept DecisionDates.toJson DecisionDates.layout.decode where
  plain d := ⟨Kept.date.plain d.effective, (Kept.date.option rfl).plain d.expiry, trivial⟩
  read d := by
    rw [DecisionDates.toJson, decode_object (by rfl)]
    exact read_seq (read_map (read_required rfl (Kept.date.read _)))
      (read_nullable rfl ((Kept.date.option rfl).read _))

theorem StatusType.kept : Kept StatusType.toJson StatusType.layout.decode where
  plain s := ⟨Kept.typeRef.plain _, Kept.uint32.plain _, Kept.bool.plain _, trivial⟩
  read s := by
    rw [StatusType.toJson, decode_object (by rfl)]
    exact read_seq (read_seq (read_map (read_required rfl (Kept.typeRef.read _)))
      (read_required rfl (Kept.uint32.read _))) (read_required rfl (Kept.bool.read _))

theorem ArchiveDerivation.kept :
    Kept ArchiveDerivation.toJson ArchiveDerivation.layout.decode where
  plain d := ⟨(Kept.named DerivationMethod.ofName?_name).plain _,
    (Kept.period.option rfl).plain _, (Kept.text.option rfl).plain _, trivial⟩
  read d := by
    rw [ArchiveDerivation.toJson, decode_object (by rfl)]
    exact read_seq (read_seq (read_map
      (read_required rfl ((Kept.named DerivationMethod.ofName?_name).read _)))
      (read_defaulted rfl ((Kept.period.option rfl).read _)))
      (read_defaulted rfl ((Kept.text.option rfl).read _))

theorem ResultType.kept : Kept ResultType.toJson ResultType.layout.decode where
  plain r := ⟨Kept.typeRef.plain _, (Kept.text.option rfl).plain _,
    (Kept.period.option rfl).plain _, ArchiveDerivation.kept.plain _, trivial⟩
  read r := by
    rw [ResultType.toJson, decode_object (by rfl)]
    exact read_seq (read_seq (read_seq (read_map (read_required rfl (Kept.typeRef.read _)))
      (read_defaulted rfl ((Kept.text.option rfl).read _)))
      (read_defaulted rfl ((Kept.period.option rfl).read _)))
      (read_required rfl (ArchiveDerivation.kept.read _))

theorem TypeRelations.kept : Kept TypeRelations.toJson TypeRelations.layout.decode where
  plain r := ⟨Kept.typeRef.set.plain _, Kept.typeRef.set.plain _, StatusType.kept.list.plain _,
    ResultType.kept.list.plain _, trivial⟩
  read r := by
    rw [TypeRelations.toJson, decode_object (by rfl)]
    exact read_seq (read_seq (read_seq (read_map
      (read_defaulted rfl (Kept.typeRef.set.read _)))
      (read_defaulted rfl (Kept.typeRef.set.read _)))
      (read_defaulted rfl (StatusType.kept.list.read _)))
      (read_defaulted rfl (ResultType.kept.list.read _))

end CaseAccess
