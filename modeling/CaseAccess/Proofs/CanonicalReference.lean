import CaseAccess.Proofs.RecordColumns
import CaseAccess.Proofs.ReferenceReading

/-!
# A reference is read of its own key

Whoever reads a text knows where the object is that it names: here, if the text is an
identifier or an address below one of the bases, and elsewhere if it is any other address.
`PlacedRef` keeps that knowledge. What is stored of a reference is the key alone, and the
place is found again by the mark of a scheme in it.

Nothing is lost by that. An address keeps its mark, for it is kept as it was written, and an
identifier has none: it has no mark to begin with, or it is a segment of a path and has no
slash. Nor does reading the key again change it, for a segment can be seen from end to end
and an address is below a base as much as it was before.
-/

namespace CaseAccess

/-- A reference that says by itself where its object is held. -/
inductive PlacedRef where
  | here (name : String)
  | elsewhere (address : String)
  deriving DecidableEq, Repr

namespace PlacedRef

def key : PlacedRef → String
  | .here name => name
  | .elsewhere address => address

/-- What a stored key says of the place. -/
def ofKey (key : String) : PlacedRef :=
  if hasSchemeMark key.toList then .elsewhere key else .here key

def isElsewhere : PlacedRef → Bool
  | .here _ => false
  | .elsewhere _ => true

/-- What is stored of the reference. -/
def reference (p : PlacedRef) : TypeRef := ⟨p.key⟩

end PlacedRef

namespace LocalBases

variable {bases : LocalBases} {text : String} {p : PlacedRef}

/-- The reference that a text writes, with its place. -/
def readPlaced (bases : LocalBases) (text : String) : Except RefError PlacedRef :=
  let chars := trim text.toList
  let raw := String.ofList chars
  if chars = [] then .error .empty
  else if !hasSchemeMark chars then .ok (.here raw)
  else
    match Url.ofText chars with
    | .error cause => .error (.malformed raw cause)
    | .ok url =>
        if url.isOpaque then .error (.withoutSegments raw)
        else if bases.covers url.chars then
          match url.names.getLast? with
          | some name => .ok (.here (String.ofList name))
          | none => .error (.withoutName raw)
        else .ok (.elsewhere raw)

/-- The place is all that is known beside the reference. -/
theorem map_readPlaced (bases : LocalBases) (text : String) :
    (bases.readPlaced text).map PlacedRef.reference = bases.read text := by
  rw [readPlaced, read]
  by_cases hnil : trim text.toList = []
  · rw [if_pos hnil, if_pos hnil]
    rfl
  · rw [if_neg hnil, if_neg hnil]
    cases hasSchemeMark (trim text.toList) with
    | false => rfl
    | true =>
        cases Url.ofText (trim text.toList) with
        | error cause => rfl
        | ok url =>
            dsimp only
            cases url.isOpaque with
            | true => rfl
            | false =>
                cases bases.covers url.chars with
                | false => rfl
                | true => cases url.names.getLast? <;> rfl

theorem ofKey_of_noMark {chars : List Char} (h : hasSchemeMark chars = false) :
    PlacedRef.ofKey (String.ofList chars) = .here (String.ofList chars) := by
  rw [PlacedRef.ofKey, String.toList_ofList, h, if_neg Bool.false_ne_true]

theorem ofKey_of_mark {chars : List Char} (h : hasSchemeMark chars = true) :
    PlacedRef.ofKey (String.ofList chars) = .elsewhere (String.ofList chars) := by
  rw [PlacedRef.ofKey, String.toList_ofList, if_pos h]

/-- The key of what was read says where the object is. -/
theorem ofKey_of_readPlaced (h : bases.readPlaced text = .ok p) :
    PlacedRef.ofKey p.key = p := by
  simp only [readPlaced] at h
  split at h
  · cases h
  · split at h
    · next hmark =>
      cases h
      exact ofKey_of_noMark (by simpa using hmark)
    · next hmark =>
      split at h
      · cases h
      · next url hparsed =>
        split at h
        · cases h
        · split at h
          · split at h
            · next name hlast =>
              cases h
              have hslash : '/' ∉ name := (isSegment_of_last hparsed hlast).noSlash
              exact ofKey_of_noMark (hasSchemeMark_of_not_mem hslash)
            · cases h
          · cases h
            exact ofKey_of_mark (by simpa using hmark)

/-- So the place is read with the key or found in it, which is the same. -/
theorem readPlaced_eq (bases : LocalBases) (text : String) :
    bases.readPlaced text = (bases.read text).map fun r => PlacedRef.ofKey r.key := by
  rw [← map_readPlaced]
  cases h : bases.readPlaced text with
  | error e => rfl
  | ok p => exact congrArg Except.ok (ofKey_of_readPlaced h).symm

/-- An identifier is read as itself. -/
theorem read_local {r : TypeRef} (h : bases.read text = .ok r) (hr : r.isRemote = false) :
    bases.read r.key = .ok r := by
  obtain ⟨htrim, hne⟩ := trim_of_local h hr
  rw [read_iff, htrim]
  have hself : ReadAs bases r.key.toList ⟨String.ofList r.key.toList⟩ := .identifier hne hr
  rwa [String.ofList_toList] at hself

theorem read_key {r : TypeRef} (h : bases.read text = .ok r) : bases.read r.key = .ok r := by
  cases hr : r.isRemote with
  | false => exact read_local h hr
  | true => exact read_remote h hr

theorem isRemote_reference (p : PlacedRef) :
    p.reference.isRemote = (PlacedRef.ofKey p.key).isElsewhere := by
  rw [PlacedRef.ofKey, PlacedRef.reference, TypeRef.isRemote]
  cases hasSchemeMark p.key.toList <;> rfl

end LocalBases

open Json (Kept)

/-- What was read of a text is read of its own key again, and the key alone says whether the
object is held here. So it stays the same reference where its key is stored, where it is
written into a document, and where it is read of either. -/
theorem reference_is_canonical {bases : LocalBases} {text : String} {p : PlacedRef}
    (h : bases.readPlaced text = .ok p) :
    bases.readPlaced p.key = .ok p ∧ PlacedRef.ofKey p.key = p ∧
    bases.read text = .ok p.reference ∧ bases.read p.key = .ok p.reference ∧
    p.reference.isRemote = p.isElsewhere ∧
    (∃ stored, SqlValue.typeRef? (.ofTypeRef p.reference) = some stored ∧
      stored.isRemote = p.isElsewhere ∧ bases.readPlaced stored.key = .ok p) ∧
    ∃ written, (Json.parse? (Json.ofTypeRef p.reference).compact).bind Json.typeRef? =
        some written ∧
      written.isRemote = p.isElsewhere ∧ bases.readPlaced written.key = .ok p := by
  have hplace : PlacedRef.ofKey p.key = p := LocalBases.ofKey_of_readPlaced h
  have hread : bases.read text = .ok p.reference := by
    rw [← LocalBases.map_readPlaced, h]
    rfl
  have hkey : bases.read p.key = .ok p.reference := LocalBases.read_key hread
  have hagain : bases.readPlaced p.key = .ok p := by
    rw [LocalBases.readPlaced_eq, hkey]
    exact congrArg Except.ok hplace
  have hremote : p.reference.isRemote = p.isElsewhere := by
    rw [LocalBases.isRemote_reference, hplace]
  refine ⟨hagain, hplace, hread, hkey, hremote,
    ⟨p.reference, SqlValue.typeRef?_ofTypeRef _, hremote, hagain⟩, p.reference, ?_, hremote, hagain⟩
  rw [Kept.typeRef.parse?, Option.bind_some, Kept.typeRef.read]

/-- One base, of a catalog that is held here. -/
def ownBases : LocalBases := ⟨["https://zgw.example.nl/catalogi/".toList]⟩

/-- Between blanks, an address below the base that is not in normal form: its host is in capitals,
its port goes without saying, and it has a segment that leads nowhere. -/
theorem own_address_is_canonical :
    ownBases.readPlaced "\u00a0HTTPS://ZGW.example.nl:443/./catalogi/zaaktypen/caf é/?v=1 " =
        .ok (.here "caf%20%C3%A9") ∧
      ownBases.readPlaced "caf%20%C3%A9" = .ok (.here "caf%20%C3%A9") ∧
      PlacedRef.ofKey "caf%20%C3%A9" = .here "caf%20%C3%A9" := by
  have hread : ownBases.readPlaced
      "\u00a0HTTPS://ZGW.example.nl:443/./catalogi/zaaktypen/caf é/?v=1 " =
        .ok (.here "caf%20%C3%A9") := by decide +kernel
  obtain ⟨hagain, hplace, -⟩ := reference_is_canonical hread
  exact ⟨hread, hagain, hplace⟩

end CaseAccess
