import CaseAccess.Named

/-!
# Components

The interfaces that a grant can be scoped to. Three of them hold objects that have
a type; a grant on one of these names the type in a field of its own. Cases and
documents also have a level of confidentiality.
-/

namespace CaseAccess

inductive Component where
  /-- cases -/
  | zrc
  /-- documents -/
  | drc
  /-- decisions -/
  | brc
  /-- catalogs -/
  | ztc
  /-- authorisations -/
  | ac
  /-- notifications -/
  | nrc
  deriving DecidableEq, Repr, Inhabited

namespace Component

def name : Component → String
  | .zrc => "zrc"
  | .drc => "drc"
  | .brc => "brc"
  | .ztc => "ztc"
  | .ac => "ac"
  | .nrc => "nrc"

/-- All components, in their order. -/
def all : List Component := [.zrc, .drc, .brc, .ztc, .ac, .nrc]

instance : Named Component := ⟨all, name⟩
instance : ToString Component := ⟨name⟩

/-- What is said of a text that names no component. -/
def unknownMessage (text : String) : String := s!"unknown component '{text}'"

/-- The place of a component among all. -/
def rank : Component → Nat
  | .zrc => 0
  | .drc => 1
  | .brc => 2
  | .ztc => 3
  | .ac => 4
  | .nrc => 5

/-- The field that names the type of an object of this component. -/
def typeField? : Component → Option String
  | .zrc => some "zaaktype"
  | .drc => some "informatieobjecttype"
  | .brc => some "besluittype"
  | _ => none

/-- Whether objects of this component have a level of confidentiality. -/
def hasConfidentiality : Component → Bool
  | .zrc | .drc => true
  | _ => false

/-- The collection of a catalog that holds the types of this component. -/
def typeCollection? : Component → Option String
  | .zrc => some "zaaktypen"
  | .drc => some "informatieobjecttypen"
  | .brc => some "besluittypen"
  | _ => none

/-- The component whose types a collection of a catalog holds. -/
def ofTypeCollection? (collection : String) : Option Component :=
  all.find? (·.typeCollection? == some collection)

end Component

end CaseAccess
