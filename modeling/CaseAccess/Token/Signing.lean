import CaseAccess.Json.Printer
import CaseAccess.Token.Verification

/-!
# Signing tokens

A signer holds the name and the secret of one client, neither of them empty. The
members of the header are in the order of their names; a payload names the client
twice, as its issuer and as the client.
-/

namespace CaseAccess.Token

/-- Why there is no signer. -/
inductive SignerError where
  | clientEmpty
  | secretEmpty
  deriving DecidableEq, Repr

def SignerError.message : SignerError → String
  | .clientEmpty => "client id for token generation cannot be empty"
  | .secretEmpty => "secret for token generation cannot be empty"

structure Signer where
  clientId : String
  secret : String
  deriving DecidableEq, Repr

def Signer.of? (clientId secret : String) : Except SignerError Signer :=
  if clientId = "" then .error .clientEmpty
  else if secret = "" then .error .secretEmpty
  else .ok ⟨clientId, secret⟩

/-- The segment of a document. -/
def segment (v : Json) : List Char :=
  Base64Url.encode (Utf8.encode v.compact)

/-- The header of a token of that client. -/
def headerOf (clientId : String) : Json :=
  .object [
    ("alg", .string "HS256"),
    ("client_identifier", .string clientId),
    ("typ", .string "JWT")]

/-- The claims of a token that the client issues at `now` for a user. -/
def claimsOf (clientId : String) (now : Int) (userId userRepresentation : Option String) :
    Claims where
  issuer := some clientId
  issuedAt := some now
  clientId := some clientId
  userId := some (userId.getD "")
  userRepresentation := some (userRepresentation.getD "")

/-- A token issued at `now`. -/
def Signer.sign (s : Signer) (now : Int) (userId userRepresentation : Option String) : String :=
  let text := segment (headerOf s.clientId)
    ++ '.' :: segment (claimsOf s.clientId now userId userRepresentation).toJson
  String.ofList (text ++ '.' :: signature s.secret text)

end CaseAccess.Token
