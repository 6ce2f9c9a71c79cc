import CaseAccess.Url.Basic

/-!
# Reading addresses

Reading is the one that web browsers use: control characters and blanks at the ends
and tabs and line breaks anywhere are dropped, `\` counts as `/` in a special
scheme, `.` and `..` are resolved, and what a part cannot hold is percent encoded.
The special schemes always have a host; of them `file` may leave it empty.

Every address read here stands on its own: a text without a scheme is refused.
-/

namespace CaseAccess.Url

def isSpecial (scheme : List Char) : Bool :=
  (["http", "https", "ws", "wss", "ftp", "file"].map String.toList).contains scheme

/-- The number after a host that goes without saying for a scheme. -/
def defaultPort? (scheme : List Char) : Option Nat :=
  if scheme = "http".toList ∨ scheme = "ws".toList then some 80
  else if scheme = "https".toList ∨ scheme = "wss".toList then some 443
  else if scheme = "ftp".toList then some 21
  else none

/-- The text without what is dropped before reading. -/
def cleaned (s : List Char) : List Char :=
  let isEdge (c : Char) : Bool := c.toNat ≤ 32
  let inner := ((s.dropWhile isEdge).reverse.dropWhile isEdge).reverse
  inner.filter fun c => c ≠ '\t' ∧ c ≠ '\n' ∧ c ≠ '\r'

def isSchemeChar (c : Char) : Bool :=
  c.isAlphanum || c = '+' || c = '-' || c = '.'

/-- The scheme in lower case, and the text after its colon. -/
def scheme? (s : List Char) : Option (List Char × List Char) :=
  match s with
  | c :: _ =>
      if c.isAlpha then
        match s.dropWhile isSchemeChar with
        | ':' :: rest => some ((s.takeWhile isSchemeChar).map Char.toLower, rest)
        | _ => none
      else none
  | [] => none

/-- A character that ends the part before the path. -/
def endsAuthority (special : Bool) (c : Char) : Bool :=
  c = '/' || c = '?' || c = '#' || (special && c = '\\')

/-- The texts before and after the last occurrence of a character. -/
def splitLast (mark : Char) (s : List Char) : Option (List Char × List Char) :=
  match s.reverse.span (· ≠ mark) with
  | (after, _ :: before) => some (before.reverse, after.reverse)
  | (_, []) => none

/-- The user and password before the host, with the `@` that ends them. A password
that is empty loses its colon, and nothing at all its `@`. -/
def userText (s : List Char) : List Char :=
  let (user, rest) := s.span (· ≠ ':')
  let password := encode userSet (rest.drop 1)
  let both := encode userSet user ++ (if password.isEmpty then [] else ':' :: password)
  if both.isEmpty then [] else both ++ ['@']

/-- The texts of a host and of the number after it, which is there if a colon is. -/
def splitPort (inBrackets : Bool) : List Char → List Char × Option (List Char)
  | [] => ([], none)
  | c :: rest =>
      if c = ':' ∧ !inBrackets then ([], some rest)
      else
        let inside := if c = '[' then true else if c = ']' then false else inBrackets
        let (host, number) := splitPort inside rest
        (c :: host, number)

/-- The number after a host with its colon, or nothing where it is empty or goes without
saying. -/
def portText (scheme : List Char) (s : List Char) : Except UrlError (List Char) :=
  let digits := s.takeWhile Char.isDigit
  let n := Decimal.value digits
  if 65535 < n then .error .invalidPort
  else if digits.length < s.length then .error .invalidPort
  else if digits.isEmpty ∨ defaultPort? scheme = some n then .ok []
  else .ok (':' :: Decimal.digits n)

/-- The authority that a text after `//` writes; `atEnd` says that nothing follows
it. A user needs a host, and so does a number. -/
def readAuthority (scheme : List Char) (s : List Char) (atEnd : Bool) :
    Except UrlError (List Char) := do
  let special := isSpecial scheme
  let (user, address) := match splitLast '@' s with
    | some (user, address) => (some user, address)
    | none => (none, s)
  let userPart := (user.map userText).getD []
  let (hostText, number) := splitPort false address
  if user = some [] ∧ address = [] ∧ !atEnd then throw .emptyHost
  if special ∧ hostText = [] then throw .emptyHost
  let host ← if special then specialHost hostText else opaqueHost hostText
  if host = [] ∧ (number.isSome ∨ userPart ≠ []) then throw .emptyHost
  let number ← match number with
    | some text => portText scheme text
    | none => pure []
  return userPart ++ host ++ number

/-- Whether a segment stands for its container. -/
def isDoubleDot (s : List Char) : Bool :=
  let s := String.ofList (s.map Char.toLower)
  s = ".." || s = ".%2e" || s = "%2e." || s = "%2e%2e"

/-- Whether a segment stands for itself. -/
def isSingleDot (s : List Char) : Bool :=
  let s := String.ofList (s.map Char.toLower)
  s = "." || s = "%2e"

/-- A letter and a colon or a bar: the name of a drive. -/
def isDrive : List Char → Bool
  | [c, m] => c.isAlpha && (m = ':' || m = '|')
  | _ => false

/-- The list without its last segment; the drive of a file stays. -/
def parent (file : Bool) (path : List (List Char)) : List (List Char) :=
  match path with
  | [s] => if file && isDrive s then path else []
  | _ => path.dropLast

/-- Adds one segment as it is written to the segments before it. -/
def addSegment (file : Bool) (path : List (List Char)) (segment : List Char) (last : Bool) :
    List (List Char) :=
  if isDoubleDot segment then parent file path ++ (if last then [[]] else [])
  else if isSingleDot segment then path ++ (if last then [[]] else [])
  else if file && path.isEmpty && isDrive segment then path ++ [[segment.headD ' ', ':']]
  else path ++ [encode pathSet segment]

/-- The segments that a text writes, after those of `path`. -/
def resolve (file : Bool) (path : List (List Char)) : List (List Char) → List (List Char)
  | [] => path
  | [segment] => addSegment file path segment true
  | segment :: rest => resolve file (addSegment file path segment false) rest

/-- The segments between the slashes of a text. -/
def rawSegments (special : Bool) (s : List Char) : List (List Char) :=
  splitOn '/' (if special then s.map fun c => if c = '\\' then '/' else c else s)

/-- The segments of a path, without empty ones at the start of the path of a file. -/
def pathSegments (scheme : List Char) (s : List Char) : List (List Char) :=
  let special := isSpecial scheme
  let raw := rawSegments special s
  if scheme = "file".toList then
    let path := resolve true [] (match raw.dropWhile List.isEmpty with | [] => [[]] | rest => rest)
    match path.dropWhile List.isEmpty with
    | [] => [[]]
    | rest => rest
  else resolve false [] raw

/-- A text up to its query or fragment, the query and the fragment. -/
def splitTail (s : List Char) : List Char × Option (List Char) × Option (List Char) :=
  let (front, fragment) := s.span (· ≠ '#')
  let (path, query) := front.span (· ≠ '?')
  (path, (if query.isEmpty then none else some (query.drop 1)),
    if fragment.isEmpty then none else some (fragment.drop 1))

/-- The address with that path, and the query and fragment as they are written. -/
def build (scheme : List Char) (authority : Option (List Char)) (path : UrlPath)
    (query fragment : Option (List Char)) : Url where
  scheme := scheme
  authority := authority
  path := path
  query := query.map (encode (if isSpecial scheme then specialQuerySet else querySet))
  fragment := fragment.map (encode fragmentSet)

/-- The rest of an address after the scheme and the two slashes. -/
def afterSlashes (scheme : List Char) (s : List Char) : Except UrlError Url := do
  let special := isSpecial scheme
  let (front, query, fragment) := splitTail s
  let host := front.takeWhile fun c => !endsAuthority special c
  let rest := front.drop host.length
  let authority ← readAuthority scheme host (host.length = s.length)
  let path := match rest with
    | [] => if special then [[]] else []
    | '/' :: rest => pathSegments scheme rest
    | rest => pathSegments scheme (if special then rest.drop 1 else rest)
  return build scheme (some authority) (.segments path) query fragment

/-- The rest of the address of a file after its colon. -/
def ofFile (s : List Char) : Except UrlError Url := do
  let (front, query, fragment) := splitTail s
  let front := front.map fun c => if c = '\\' then '/' else c
  let build (authority : List Char) (path : List Char) : Url :=
    Url.build "file".toList (some authority) (.segments (pathSegments "file".toList path)) query
      fragment
  match front with
  | '/' :: '/' :: rest =>
      let host := rest.takeWhile (· ≠ '/')
      let path := rest.drop host.length
      if host.isEmpty then return build [] path
      else if isDrive host then return build [] rest
      else
        let host ← specialHost host
        let drive := match pathSegments "file".toList path with
          | first :: _ => isDrive first
          | [] => false
        return build (if host == "localhost".toList || drive then [] else host) path
  | _ => return build [] front

/-- The address that a text writes. -/
def ofText (s : List Char) : Except UrlError Url :=
  match scheme? (cleaned s) with
  | none => .error .relative
  | some (scheme, rest) =>
      if scheme = "file".toList then ofFile rest
      else if isSpecial scheme then
        afterSlashes scheme (rest.dropWhile fun c => c = '/' || c = '\\')
      else
        match rest with
        | '/' :: '/' :: rest => afterSlashes scheme rest
        | '/' :: rest =>
            let (path, query, fragment) := splitTail rest
            .ok (build scheme none (.segments (pathSegments scheme path)) query fragment)
        | _ =>
            let (path, query, fragment) := splitTail rest
            .ok (build scheme none (.opaqueText (encode [] path)) query fragment)

/-- The address that a string writes. -/
def parse (s : String) : Except UrlError Url :=
  ofText s.toList

end CaseAccess.Url
