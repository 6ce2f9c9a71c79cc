import CaseAccess.ApiError
import CaseAccess.Text.Blank

/-!
# Bearer tokens

A caller presents a token that names its client and is signed with the secret of
that client. What a verified token says is a credential; what is wrong with another
one is a `TokenError`.
-/

namespace CaseAccess

/-- What a verified token says. -/
structure Credential where
  clientId : String
  /-- Seconds since 1 January 1970. -/
  issuedAt : Int
  issuer : Option String
  userId : Option String
  userRepresentation : Option String
  deriving DecidableEq, Repr, Inhabited

/-- Why a text is no token. -/
inductive Malformation where
  | scheme (name : String)
  | trailingData
  | segmentCount
  | segmentBase64
  | segmentJson
  | clientMissing
  | strictBase64
  | strictJson
  | algorithm
  | issueTimeMissing
  | described (text : String)
  deriving DecidableEq, Repr

def Malformation.message : Malformation → String
  | .scheme name => s!"unsupported authorization scheme '{name}'"
  | .trailingData => "unexpected data after bearer token"
  | .segmentCount => "token should have three segments"
  | .segmentBase64 => "decode base64: the segment is not in the alphabet of tokens"
  | .segmentJson => "decode json: the segment is not a document"
  | .clientMissing => "token does not identify a client"
  | .strictBase64 => "Base64 error: the segment is not in the alphabet of tokens"
  | .strictJson => "JSON error: the segment does not hold what it should"
  | .algorithm => "InvalidAlgorithm"
  | .issueTimeMissing => "missing 'iat' claim"
  | .described text => text

inductive TokenError where
  | missing
  | malformed (why : Malformation)
  | unknownClient (clientId : String)
  | signatureInvalid
  | expired
  | notYetValid
  deriving DecidableEq, Repr

namespace TokenError

def message : TokenError → String
  | .missing => "no bearer token presented"
  | .malformed why => s!"malformed token: {why.message}"
  | .unknownClient clientId => s!"no secret known for client '{clientId}'"
  | .signatureInvalid => "token signature does not verify"
  | .expired => "token expired"
  | .notYetValid => "token is not valid yet"

def code : TokenError → String
  | .missing => "missing-token"
  | .malformed _ => "malformed-token"
  | .unknownClient _ => "unknown-client"
  | .signatureInvalid => "signature-invalid"
  | .expired => "token-expired"
  | .notYetValid => "token-not-yet-valid"

/-- The error that the caller is told. -/
def toApiError (e : TokenError) : ApiError where
  kind := match e with
    | .missing => .notAuthenticated
    | _ => .tokenInvalid
  code := e.code
  detail := e.message

end TokenError

/-- How long a token is taken after its time of issue, and how far the clocks of
issuer and verifier may differ, in seconds. -/
structure TokenWindow where
  expiry : Nat := 3600
  leeway : Nat := 0
  deriving DecidableEq, Repr, Inhabited

namespace TokenWindow

open Integer64 (clamp)

/-- The times of issue that are taken run from `now - expiry - leeway` to
`now + leeway`, where every sum stays within 64 bits. -/
def check (w : TokenWindow) (now issuedAt : Int) : Except TokenError Unit :=
  let expiry := clamp w.expiry
  let leeway := clamp w.leeway
  if clamp (now + leeway) < issuedAt then .error .notYetValid
  else if issuedAt < clamp (clamp (now - expiry) - leeway) then .error .expired
  else .ok ()

end TokenWindow

/-- The words of a text, between blanks. -/
def wordsOf (s : List Char) : List (List Char) :=
  go [] s
where
  /-- The words of the rest, after the characters read of the first of them. -/
  go (word : List Char) : List Char → List (List Char)
    | [] => if word = [] then [] else [word.reverse]
    | c :: rest =>
        if isBlank c then
          if word = [] then go [] rest else word.reverse :: go [] rest
        else go (c :: word) rest

/-- The token in the value of an `Authorization` header: the word after `Bearer`, of
which the case does not count. -/
def bearerToken (header : Option String) : Except TokenError String :=
  match header.map fun h => wordsOf h.toList with
  | none | some [] => .error .missing
  | some (scheme :: rest) =>
      if scheme.map Char.toLower ≠ "bearer".toList then
        .error (.malformed (.scheme (String.ofList scheme)))
      else
        match rest with
        | [] => .error .missing
        | [token] => .ok (String.ofList token)
        | _ => .error (.malformed .trailingData)

/-! ## Documents -/

open Json (Layout)

def Credential.layout : Layout Credential :=
  Credential.mk <$> .required "client_id" Json.text? <*> .required "issued_at" Json.int64?
    <*> .nullable "issuer" Json.text? <*> .nullable "user_id" Json.text?
    <*> .nullable "user_representation" Json.text?

def Credential.toJson (c : Credential) : Json :=
  .object [
    ("client_id", .string c.clientId),
    ("issued_at", .integer c.issuedAt),
    ("issuer", Json.ofOption .string c.issuer),
    ("user_id", Json.ofOption .string c.userId),
    ("user_representation", Json.ofOption .string c.userRepresentation)]

end CaseAccess
