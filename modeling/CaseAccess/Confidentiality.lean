import CaseAccess.Named

/-!
# Levels of confidentiality

Seven levels, from open to most secret. A grant has a ceiling or none, and a
request names a level or none. A request that names no level passes every grant; a
level passes a ceiling that is not below it, and a grant without a ceiling passes
no level.
-/

namespace CaseAccess

inductive Confidentiality where
  | openbaar
  | beperktOpenbaar
  | intern
  | zaakvertrouwelijk
  | vertrouwelijk
  | geheim
  | zeerGeheim
  deriving DecidableEq, Repr, Inhabited

namespace Confidentiality

def name : Confidentiality → String
  | .openbaar => "openbaar"
  | .beperktOpenbaar => "beperkt_openbaar"
  | .intern => "intern"
  | .zaakvertrouwelijk => "zaakvertrouwelijk"
  | .vertrouwelijk => "vertrouwelijk"
  | .geheim => "geheim"
  | .zeerGeheim => "zeer_geheim"

/-- All levels, the open one first. -/
def all : List Confidentiality :=
  [.openbaar, .beperktOpenbaar, .intern, .zaakvertrouwelijk, .vertrouwelijk, .geheim, .zeerGeheim]

instance : Named Confidentiality := ⟨all, name⟩
instance : ToString Confidentiality := ⟨name⟩

/-- What is said of a text that names no level. -/
def unknownMessage (text : String) : String := s!"unknown confidentiality level '{text}'"

/-- The place of a level, the open one being the first. -/
def rank : Confidentiality → Nat
  | .openbaar => 1
  | .beperktOpenbaar => 2
  | .intern => 3
  | .zaakvertrouwelijk => 4
  | .vertrouwelijk => 5
  | .geheim => 6
  | .zeerGeheim => 7

/-- The list of the levels is in the order of their ranks, and no two levels are of one rank. -/
theorem pairwise_rank_lt : all.Pairwise fun lower higher => lower.rank < higher.rank := by
  decide

/-- Whether an object of that level may be used under this ceiling. -/
def permits (ceiling level : Confidentiality) : Bool :=
  level.rank ≤ ceiling.rank

/-- Whether a grant with that ceiling passes a request for that level. -/
def passes (ceiling level : Option Confidentiality) : Bool :=
  match level, ceiling with
  | none, _ => true
  | some level, some ceiling => ceiling.permits level
  | some _, none => false

end Confidentiality

end CaseAccess
