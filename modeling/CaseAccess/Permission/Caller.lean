import CaseAccess.Application
import CaseAccess.Token.Basic

/-!
# Callers

The caller of a request is known by its credential. Its applications are looked up
when they are first needed and then kept for the rest of the request; a lookup that
fails is not kept, so the next one tries again.
-/

namespace CaseAccess

structure Caller where
  credential : Credential
  /-- The applications of the client, once they have been found. -/
  applications : Option (List Application) := none
  deriving DecidableEq, Repr

/-- The applications of the caller, and the caller as it is known after that. The
lookup is asked only if they are not known yet. -/
def Caller.resolve {ε : Type} (c : Caller) (lookup : String → Except ε (List Application)) :
    Except ε (List Application) × Caller :=
  match c.applications with
  | some applications => (.ok applications, c)
  | none =>
      match lookup c.credential.clientId with
      | .ok applications => (.ok applications, { c with applications := some applications })
      | .error e => (.error e, c)

end CaseAccess
