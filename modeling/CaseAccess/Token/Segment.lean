import CaseAccess.Json.Parser
import CaseAccess.Json.Record
import CaseAccess.Text.Utf8
import CaseAccess.Token.Base64Url
import CaseAccess.Url.Host

/-!
# The segments of a token

A token has three segments: a header, a payload and a signature. The first two are
documents. They are read twice. The first reading takes any document, and the
padding that some issuers add, and only looks for the name of the client. The
second, strict one is that of the signed content: the header must name its
algorithm, and in the payload the registered claims must stand once and in a form
that they can have.
-/

namespace CaseAccess.Token

open Json (Layout)

/-- The document that bytes write. -/
def document? (bytes : List UInt8) : Option Json :=
  Json.parse? (Utf8.document bytes)

/-- How deep containers may be nested in a document that is read as it is. -/
def maxDepth : Nat := 127

/-- A document with no token that cannot be read, and not nested too deep. -/
def isWhole (v : Json) : Bool :=
  v.readable && v.depth ≤ maxDepth

/-- The text of a member that is a string. -/
def memberText? (name : String) : Json → Option String
  | .object members =>
      match Json.Members.last? members name with
      | some (.string s) => some s
      | _ => none
  | _ => none

/-- The algorithms that a header can name. -/
inductive Algorithm where
  | hs256
  | hs384
  | hs512
  | es256
  | es384
  | rs256
  | rs384
  | rs512
  | ps256
  | ps384
  | ps512
  | edDsa
  deriving DecidableEq, Repr

instance : Named Algorithm where
  all := [.hs256, .hs384, .hs512, .es256, .es384, .rs256, .rs384, .rs512, .ps256, .ps384, .ps512,
    .edDsa]
  name
    | .hs256 => "HS256"
    | .hs384 => "HS384"
    | .hs512 => "HS512"
    | .es256 => "ES256"
    | .es384 => "ES384"
    | .rs256 => "RS256"
    | .rs384 => "RS384"
    | .rs512 => "RS512"
    | .ps256 => "PS256"
    | .ps384 => "PS384"
    | .ps512 => "PS512"
    | .edDsa => "EdDSA"

/-- Whether a member is one of the listed names. -/
def isOneOf (names : List String) : Json → Bool
  | .string s => names.contains s
  | .object [(s, .null)] => names.contains s
  | _ => false

/-- A key inside a header: of a curve, of two numbers, of bytes or of a pair. -/
def key? : Json.Reader Unit
  | .object members =>
      let once := ["use", "key_ops", "alg", "kid", "x5u", "x5c", "x5t", "x5t#S256"].all fun name =>
        (members.filter (·.1 == name)).length ≤ 1
      let text (name : String) : Bool := (members.lookup name >>= Json.text?).isSome
      let optional (name : String) : Bool :=
        match members.lookup name with
        | none => true
        | some v => (Json.optional? Json.text? v).isSome
      let common := once && ["use", "alg", "kid", "x5u", "x5t", "x5t#S256"].all optional
        && (match members.lookup "key_ops" with
          | none => true
          | some v => (Json.optional? (Json.list? Json.text?) v).isSome)
        && (match members.lookup "x5c" with
          | none => true
          | some v => (Json.optional? (Json.list? Json.text?) v).isSome)
      let kind (name : String) : Bool := ((members.lookup "kty").map (isOneOf [name])).getD false
      let curve := ((members.lookup "crv").map
        (isOneOf ["P-256", "P-384", "P-521", "Ed25519"])).getD false
      if common && ((kind "EC" && curve && text "x" && text "y")
          || (kind "RSA" && text "n" && text "e")
          || (kind "oct" && text "k")
          || (kind "OKP" && curve && text "x")) then some ()
      else none
  | _ => none

/-- A header: what counts of it is the algorithm, and that the other members which
have a meaning hold what they should. -/
def headerLayout : Layout Algorithm :=
  (fun _ a _ _ _ _ _ _ _ _ => a) <$> .nullable "typ" Json.text? <*> .required "alg" Json.named?
    <*> .nullable "cty" Json.text? <*> .nullable "jku" Json.text? <*> .nullable "jwk" key?
    <*> .nullable "kid" Json.text? <*> .nullable "x5u" Json.text?
    <*> .nullable "x5c" (Json.list? Json.text?) <*> .nullable "x5t" Json.text?
    <*> .nullable "x5t#S256" Json.text?

/-- The claims of a payload. -/
structure Claims where
  issuer : Option String
  issuedAt : Option Int
  clientId : Option String
  userId : Option String
  userRepresentation : Option String
  deriving DecidableEq, Repr, Inhabited

def Claims.layout : Layout Claims :=
  Claims.mk <$> .optional "iss" Json.text? <*> .optional "iat" Json.int64?
    <*> .optional "client_id" Json.text? <*> .optional "user_id" Json.text?
    <*> .optional "user_representation" Json.text?

def Claims.toJson (c : Claims) : Json :=
  .object [
    ("iss", Json.ofOption .string c.issuer),
    ("iat", Json.ofOption .integer c.issuedAt),
    ("client_id", Json.ofOption .string c.clientId),
    ("user_id", Json.ofOption .string c.userId),
    ("user_representation", Json.ofOption .string c.userRepresentation)]

/-- Whether a time can be skipped over: anything but a container that holds
something. -/
def skipsTime : Json → Bool
  | .array (_ :: _) | .object (_ :: _) | .unreadable => false
  | _ => true

/-- Whether a subject can be skipped over: anything but a container. -/
def skipsSubject : Json → Bool
  | .array _ | .object _ | .unreadable => false
  | _ => true

/-- Whether the registered claims stand at most once, in a form they can have. As an
array a payload must have a place for each of them. -/
def registeredClaims : Json → Bool
  | .object members =>
      let holds (name : String) (p : Json → Bool) : Bool :=
        match members.filter (·.1 == name) with
        | [] => true
        | [m] => p m.2
        | _ => false
      holds "exp" skipsTime && holds "nbf" skipsTime && holds "sub" skipsSubject
        && holds "iss" (fun _ => true) && holds "aud" fun v => v.readable && v.depth < maxDepth
  | .array items => items.length = 5
  | _ => false

/-- The claims of a payload, read strictly. -/
def claims? (v : Json) : Option Claims :=
  if registeredClaims v then Claims.layout.decode v else none

/-- A text without the padding at its end. -/
def withoutPadding (s : List Char) : List Char :=
  (s.reverse.dropWhile (· = '=')).reverse

/-- The segments of a token. -/
def segments (token : String) : List (List Char) :=
  Url.splitOn '.' token.toList

end CaseAccess.Token
