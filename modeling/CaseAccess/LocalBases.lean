import CaseAccess.Text.Blank
import CaseAccess.TypeRef
import CaseAccess.Url.Parser
import CaseAccess.Component

/-!
# Reading references

Documents name an object by its identifier or by its address. An address below one
of the bases of this installation names an object that is held here, by the last
segment of its path; every other address is a remote reference and is kept as it
was written. Blanks around a reference do not count.
-/

namespace CaseAccess

/-- Why a text is no reference. -/
inductive RefError where
  | empty
  | malformed (text : String) (cause : Url.UrlError)
  | withoutSegments (text : String)
  | withoutName (text : String)
  deriving DecidableEq, Repr

namespace RefError

/-- What is wrong, without the cause behind it. -/
def summary : RefError → String
  | .empty => "reference cannot be empty"
  | .malformed text _ | .withoutSegments text => s!"invalid url '{text}'"
  | .withoutName text => s!"url '{text}' does not name an object"

/-- What is wrong, with the cause behind it. -/
def message : RefError → String
  | .malformed text cause => s!"invalid url '{text}': {cause.message}"
  | e => e.summary

end RefError

/-- The addresses below which objects are held here, each ending in a slash. -/
structure LocalBases where
  roots : List (List Char)
  deriving DecidableEq, Repr, Inhabited

/-- A base that cannot be read. -/
structure BaseError where
  text : String
  cause : Url.UrlError
  deriving DecidableEq, Repr

def BaseError.message (e : BaseError) : String :=
  s!"parse local base url '{e.text}': {e.cause.message}"

/-- A text that ends in a slash. -/
def withSlash (s : List Char) : List Char :=
  if s.getLast? = some '/' then s else s ++ ['/']

namespace LocalBases

/-- The bases of a list of addresses, in their normal form. -/
def of? (addresses : List String) : Except BaseError LocalBases := do
  let roots ← addresses.mapM fun text =>
    match Url.parse text with
    | .ok url => Except.ok (withSlash url.chars)
    | .error cause => .error ⟨text, cause⟩
  return ⟨roots⟩

/-- Whether an address in normal form is below one of the bases. -/
def covers (bases : LocalBases) (address : List Char) : Bool :=
  bases.roots.any fun root => root.isPrefixOf address

/-- The reference that a text writes. -/
def read (bases : LocalBases) (text : String) : Except RefError TypeRef :=
  let chars := trim text.toList
  let raw := String.ofList chars
  if chars = [] then .error .empty
  else if !hasSchemeMark chars then .ok ⟨raw⟩
  else
    match Url.ofText chars with
    | .error cause => .error (.malformed raw cause)
    | .ok url =>
        if url.isOpaque then .error (.withoutSegments raw)
        else if bases.covers url.chars then
          match url.names.getLast? with
          | some name => .ok ⟨String.ofList name⟩
          | none => .error (.withoutName raw)
        else .ok ⟨raw⟩

end LocalBases

/-- The component whose objects are typed by the type at an address: the last name
but one of the path is the collection that holds the type. -/
def Component.ofTypeUrl? (address : String) : Option Component :=
  match Url.parse address with
  | .error _ => none
  | .ok url =>
      match url.names.reverse with
      | _ :: collection :: _ => Component.ofTypeCollection? (String.ofList collection)
      | _ => none

end CaseAccess
