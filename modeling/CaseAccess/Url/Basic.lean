import CaseAccess.Url.Host

/-!
# Addresses

An address is a scheme, an authority, a path, a query and a fragment. The path of
most addresses is a list of segments; without an authority and a leading slash it
is a text that has no segments, and then nothing can be relative to the address.

The text of an address is its normal form: reading the text of an address gives the
address again.
-/

namespace CaseAccess

open Url (joinWith)

inductive UrlPath where
  | opaqueText (text : List Char)
  | segments (list : List (List Char))
  deriving DecidableEq, Repr

structure Url where
  scheme : List Char
  authority : Option (List Char)
  path : UrlPath
  query : Option (List Char)
  fragment : Option (List Char)
  deriving DecidableEq, Repr

namespace Url

/-- The segments of the path, if it has any. -/
def segments (u : Url) : List (List Char) :=
  match u.path with
  | .opaqueText _ => []
  | .segments list => list

/-- Whether the path is a text without segments. -/
def isOpaque (u : Url) : Bool :=
  match u.path with
  | .opaqueText _ => true
  | .segments _ => false

/-- A slash before each segment. -/
def slashed (segments : List (List Char)) : List Char :=
  segments.flatMap ('/' :: ·)

/-- The text of the path. Without an authority a path must not begin with two
slashes, so `/.` goes in front of it. -/
def pathText (u : Url) : List Char :=
  match u.path, u.authority with
  | .opaqueText text, _ => text
  | .segments ([] :: s :: rest), none => '/' :: '.' :: slashed ([] :: s :: rest)
  | .segments list, _ => slashed list

/-- A mark and the text after it, or nothing. -/
def marked (mark : Char) : Option (List Char) → List Char
  | some text => mark :: text
  | none => []

/-- The normal form. -/
def chars (u : Url) : List Char :=
  u.scheme ++ ':' ::
    ((match u.authority with | some a => '/' :: '/' :: a | none => [])
      ++ u.pathText ++ marked '?' u.query ++ marked '#' u.fragment)

/-- The normal form as a string. -/
def text (u : Url) : String := String.ofList u.chars

instance : ToString Url := ⟨text⟩

/-- The segments of the path that are not empty. -/
def names (u : Url) : List (List Char) :=
  u.segments.filter fun s => !s.isEmpty

end Url

end CaseAccess
