import CaseAccess.Json.Basic
import CaseAccess.Text.Utf8
import CaseAccess.Url.Host
import CaseAccess.Url.Percent

/-!
# Requests and responses

A request has a method, a path as it was sent, a query, and perhaps a credential and
a body. Paths are compared with their encoded characters decoded, except for those
that would change how the path is split. A query is a form: names and values between
`&`, with `+` for a blank.
-/

namespace CaseAccess

structure HttpRequest where
  method : String
  path : String
  query : String := ""
  authorization : Option String := none
  body : String := ""
  peer : Option String := none
  deriving DecidableEq, Repr, Inhabited

structure HttpResponse where
  status : Nat
  contentType : Option String := none
  body : Option Json := none
  deriving Repr, Inhabited

namespace HttpRequest

/-- The path and the query of a request target. -/
def splitTarget (target : String) : String × String :=
  let target := target.toList.takeWhile (· ≠ '#')
  let path := target.takeWhile (· ≠ '?')
  (String.ofList (if path = [] then ['/'] else path),
    String.ofList ((target.drop path.length).drop 1))

/-- The bytes of a path with its encoded characters decoded, except for a percent
sign, a slash and a plus sign. -/
def routeBytes : List Char → List UInt8
  | [] => []
  | '%' :: a :: b :: rest =>
      match Url.hexValue? a, Url.hexValue? b with
      | some x, some y =>
          let byte := UInt8.ofNat (x * 16 + y)
          if byte = 0x25 ∨ byte = 0x2F ∨ byte = 0x2B then
            0x25 :: routeBytes (a :: b :: rest)
          else byte :: routeBytes rest
      | _, _ => 0x25 :: routeBytes (a :: b :: rest)
  | c :: rest => String.utf8EncodeChar c ++ routeBytes rest

/-- The path by which the handler of a request is found. -/
def route (r : HttpRequest) : List Char :=
  Utf8.decodeWith ['\ufffd'] (routeBytes r.path.toList)

/-- The text of a name or a value of a form. -/
def formText (s : List Char) : String :=
  Utf8.lossy (Url.decodeBytes (s.map fun c => if c = '+' then ' ' else c))

/-- The name and the value that a field of a form writes. -/
def formField (s : List Char) : String × String :=
  let name := s.takeWhile (· ≠ '=')
  (formText name, formText ((s.drop name.length).drop 1))

/-- The names and values of a form. -/
def formFields (query : String) : List (String × String) :=
  ((Url.splitOn '&' query.toList).filter (· ≠ [])).map formField

/-- The first value of that name in the query, unless it is empty. -/
def queryValue? (r : HttpRequest) (name : String) : Option String :=
  ((formFields r.query).lookup name).filter (· ≠ "")

/-- Whether a character may stand in a header that is text. -/
def isHeaderChar (c : Char) : Bool :=
  c = '\t' || (' ' ≤ c && c ≤ '~')

/-- The credential of a request, if it is text. -/
def credential? (r : HttpRequest) : Option String :=
  r.authorization.filter (·.toList.all isHeaderChar)

end HttpRequest

namespace HttpResponse

def json (status : Nat) (v : Json) : HttpResponse :=
  ⟨status, some "application/json", some v⟩

end HttpResponse

end CaseAccess
