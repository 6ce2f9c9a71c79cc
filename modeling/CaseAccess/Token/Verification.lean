import CaseAccess.Token.Basic
import CaseAccess.Token.Segment
import CaseAccess.Token.Sha256

/-!
# Verifying tokens

The client is the one that the header names in `client_identifier`, or else the one
that the payload names in `client_id`. Its secret must have signed the text of the
first two segments with HS256, and the time of issue must lie within the window.
-/

namespace CaseAccess.Token

/-- The secret of a client, if it has one. -/
abbrev Secrets := String → Option String

/-- The document of a segment, with or without padding. -/
def lenientDocument (segment : List Char) : Except TokenError Json :=
  match Base64Url.decode? (withoutPadding segment) with
  | none => .error (.malformed .segmentBase64)
  | some bytes =>
      match document? bytes with
      | some v => if isWhole v then .ok v else .error (.malformed .segmentJson)
      | none => .error (.malformed .segmentJson)

/-- A client that is named by a text which is not empty. -/
def namedClient? (name : String) (v : Json) : Option String :=
  (memberText? name v).filter (· ≠ "")

/-- The client that an unverified token names. -/
def client (token : String) : Except TokenError String :=
  match segments token with
  | [header, payload, _] => do
      let header ← lenientDocument header
      match namedClient? "client_identifier" header with
      | some clientId => return clientId
      | none =>
          let payload ← lenientDocument payload
          match namedClient? "client_id" payload with
          | some clientId => return clientId
          | none => throw (.malformed .clientMissing)
  | _ => .error (.malformed .segmentCount)

/-- The signature of a text under a secret, as it stands in a token. -/
def signature (secret : String) (text : List Char) : List Char :=
  Base64Url.encode (Sha256.hmac (Utf8.encode secret) (Utf8.encode (String.ofList text)))

/-- The document of a segment without padding. -/
def strictDocument (segment : List Char) : Except TokenError Json :=
  match Base64Url.decode? segment with
  | none => .error (.malformed .strictBase64)
  | some bytes =>
      match document? bytes with
      | some v => .ok v
      | none => .error (.malformed .strictJson)

/-- The claims of a token that the secret has signed. -/
def signedClaims (secret token : String) : Except TokenError Claims :=
  match segments token with
  | [header, payload, sign] => do
      let h ← strictDocument header
      match headerLayout.decode h with
      | none => throw (.malformed .strictJson)
      | some algorithm =>
          if algorithm ≠ .hs256 then throw (.malformed .algorithm)
          if sign ≠ signature secret (header ++ '.' :: payload) then throw .signatureInvalid
          let p ← strictDocument payload
          match claims? p with
          | some claims => return claims
          | none => throw (.malformed .strictJson)
  | _ => .error (.malformed .segmentCount)

/-- What a token says, if it can be trusted at the time `now`. -/
def verify (secrets : Secrets) (window : TokenWindow) (now : Int) (token : String) :
    Except TokenError Credential := do
  let clientId ← client token
  match secrets clientId with
  | none => throw (.unknownClient clientId)
  | some secret =>
      let claims ← signedClaims secret token
      match claims.issuedAt with
      | none => throw (.malformed .issueTimeMissing)
      | some issuedAt =>
          window.check now issuedAt
          return ⟨clientId, issuedAt, claims.issuer, claims.userId, claims.userRepresentation⟩

/-- What the token in an `Authorization` header says. -/
def authenticate (secrets : Secrets) (window : TokenWindow) (now : Int) (header : Option String) :
    Except TokenError Credential := do
  let token ← bearerToken header
  verify secrets window now token

end CaseAccess.Token
