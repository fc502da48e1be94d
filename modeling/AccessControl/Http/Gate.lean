import AccessControl.Access
import AccessControl.Http.Message
import AccessControl.Http.Path
import AccessControl.Token

/-!
# The gate

Every request passes the gate first.  It reads the bearer token and finds out
who calls; a request without a usable token is answered there.  Preflights and
the paths that end like a public one pass without a token, and then nobody
calls.
-/

namespace AccessControl.Http

namespace Gate

/-- The endings of the paths that are open to everybody. -/
def publicEndings : List String :=
  ["/health", "/openapi.json", "/api/docs", "/redoc"]

def isOpen (request : Request) : Bool :=
  request.method == "OPTIONS" ||
    publicEndings.any (Path.endsIn (Path.logged request.path))

/-- What stands before a bearer token. -/
def bearer : List Char := "Bearer ".toList

/-- The token of an authorization header. -/
def token (header : String) : Except Refusal (List Char) :=
  if header = "" then
    .error (.unauthenticated (.text "Missing Authorization header"))
  else if bearer.isPrefixOf header.toList then
    .ok (Text.trim Text.isBlank (header.toList.drop bearer.length))
  else
    .error (.unauthenticated
      (.text "Invalid token format. Expected 'Bearer <token>'"))

/-- The principal and the unit that claims name. -/
def claimant (claims : Fields) : Except Refusal Claimant :=
  let principal := (Fields.get? claims "sub").getD .null
  let unit := (Fields.get? claims "unit").getD .null
  if principal.isTruthy && unit.isTruthy then .ok ⟨principal, unit⟩
  else .error (.unauthenticated (.text "Token carries no principal"))

/-- Who makes the request. -/
def pass (signer : Signer) (now : Except Clock.Fault Timestamp)
    (request : Request) : Except Failure Claimant :=
  if isOpen request then .ok Claimant.nobody
  else do
    let text ←
      (token ((request.header? "authorization").getD "")).mapError
        Failure.refused
    let claims ← Token.claimsOf signer now (Token.bytesOf text)
    (claimant claims).mapError Failure.refused

end Gate

end AccessControl.Http
