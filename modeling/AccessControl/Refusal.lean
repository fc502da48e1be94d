import AccessControl.Value

/-!
# Refusals

The answers that the service gives on purpose to a request it does not carry
out.  Each has a status and a detail, mostly in words; one that asks for a token
says so in a header.
-/

namespace AccessControl

inductive Refusal where
  | badRequest (detail : Value)
  | unauthenticated (detail : Value)
  | forbidden (verb subjectType : Value)
  | notFound (detail : Value)
  | duplicate (detail : Value)

namespace Refusal

def status : Refusal → Nat
  | badRequest _ => 400
  | unauthenticated _ => 401
  | forbidden _ _ => 403
  | notFound _ => 404
  | duplicate _ => 409

/-- The words that belong to the status. -/
def phrase : Refusal → String
  | badRequest _ => "Bad Request"
  | unauthenticated _ => "Unauthorized"
  | forbidden _ _ => "Forbidden"
  | notFound _ => "Not Found"
  | duplicate _ => "Conflict"

/-- What was given as the detail. -/
def given : Refusal → Value
  | badRequest detail => detail
  | unauthenticated detail => detail
  | forbidden verb subjectType =>
      .text s!"Forbidden: cannot {verb.plain} on {subjectType.plain}"
  | notFound detail => detail
  | duplicate detail => detail

/-- The detail; where it is null, the words that belong to the status. -/
def detail (refusal : Refusal) : Value :=
  match refusal.given with
  | .null => .text refusal.phrase
  | other => other

/-- The header in which an answer asks for a bearer token. -/
def challenge : String × String := ("WWW-Authenticate", "Bearer")

def headers : Refusal → List (String × String)
  | unauthenticated _ => [challenge]
  | _ => []

def authenticationRequired : Refusal :=
  unauthenticated (.text "Authentication required")

def resourceNotFound : Refusal :=
  notFound (.text "Resource not found")

def resourceExists : Refusal :=
  duplicate (.text "Resource already exists")

end Refusal

end AccessControl
