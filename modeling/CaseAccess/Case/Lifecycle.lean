import CaseAccess.Named

/-!
# The life of a case

A case begins as new. A final status closes it; another status takes it back into
progress, and on a closed case reopens it.
-/

namespace CaseAccess

inductive Lifecycle where
  | new
  | inProgress
  | closed
  | reopened
  deriving DecidableEq, Repr, Inhabited

namespace Lifecycle

def name : Lifecycle → String
  | .new => "new"
  | .inProgress => "in_progress"
  | .closed => "closed"
  | .reopened => "reopened"

instance : Named Lifecycle := ⟨[.new, .inProgress, .closed, .reopened], name⟩

/-- What is said of a text that names no state. -/
def unknownMessage (text : String) : String := s!"unknown case lifecycle '{text}'"

/-- The state after a status has been recorded. -/
def next (s : Lifecycle) (isFinal : Bool) : Lifecycle :=
  if isFinal then .closed
  else
    match s with
    | .closed => .reopened
    | _ => .inProgress

def isClosed (s : Lifecycle) : Bool := s = .closed

end Lifecycle

end CaseAccess
