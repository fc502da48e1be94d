import AccessControl.Configuration
import AccessControl.Http.Message

/-!
# Requests from other origins

A page from another origin may use an answer only when the answer says so.  A
request that names its origin is answered with the headers for that, and a
preflight, which asks beforehand what is allowed, gets an answer of its own.
-/

namespace AccessControl.Http

namespace Origin

/-- The methods that a wildcard stands for. -/
def allMethods : List String :=
  ["DELETE", "GET", "HEAD", "OPTIONS", "PATCH", "POST", "PUT", "QUERY"]

/-- The headers that are always allowed. -/
def safeHeaders : List String :=
  ["accept", "accept-language", "content-language", "content-type"]

def allowOrigin : String := "access-control-allow-origin"

def allowCredentials : String := "access-control-allow-credentials"

/-- Whether a list of settings has this text. -/
def lists (settings : List Value) (text : String) : Bool :=
  settings.any fun setting => setting.same (.text text)

def wildcard : String := "*"

def anyOrigin (configuration : Configuration) : Bool :=
  lists configuration.origins wildcard

/-- Whether credentials may be sent. -/
def takesCredentials (configuration : Configuration) : Bool :=
  configuration.credentials.isTruthy

def admits (configuration : Configuration) (origin : String) : Bool :=
  anyOrigin configuration ||
    lists configuration.origins (Request.received origin)

/-- The headers for an origin.  It is named to those that may send credentials and
where not all are allowed. -/
def originHeaders (configuration : Configuration) (origin : String) :
    List (String × String) :=
  if anyOrigin configuration && !takesCredentials configuration then
    [(allowOrigin, wildcard)]
  else if admits configuration origin then [(allowOrigin, origin)]
  else []

/-- Says that credentials may be sent, when they may. -/
def credentialHeaders (configuration : Configuration) :
    List (String × String) :=
  if takesCredentials configuration then [(allowCredentials, "true")] else []

/-- The headers that an answer to this origin gets. -/
def headers (configuration : Configuration) (origin : String) :
    List (String × String) :=
  originHeaders configuration origin ++ credentialHeaders configuration

/-- The pieces of a text between its commas. -/
def listed : List Char → List (List Char)
  | [] => [[]]
  | c :: rest =>
      if c = ',' then [] :: listed rest
      else
        match listed rest with
        | first :: others => (c :: first) :: others
        | [] => [[c]]

def admitsMethod (configuration : Configuration) (method : String) : Bool :=
  if lists configuration.methods wildcard then allMethods.contains method
  else lists configuration.methods method

/-- Whether a requested header is allowed. -/
def admitsHeader (configuration : Configuration) (header : List Char) : Bool :=
  let name :=
    String.ofList (Text.trim Text.isBlank (header.flatMap Text.lower))
  safeHeaders.contains name ||
    configuration.headers.any fun setting => Text.lowered setting.plain = name

def admitsHeaders (configuration : Configuration) (requested : Option String) :
    Bool :=
  lists configuration.headers wildcard ||
    match requested with
    | some names => (listed names.toList).all (admitsHeader configuration)
    | none => true

/-- What a preflight asks for: an origin as it was sent, a method, headers, and
whether a private network is to be reached. -/
structure Preflight where
  origin : String
  method : String
  headers : Option String
  privateNetwork : Bool

/-- The preflight that a request is. -/
def preflight? (request : Request) : Option Preflight := do
  let origin ← request.sent? "origin"
  let method ← request.header? "access-control-request-method"
  if request.method = "OPTIONS" then
    some
      ⟨origin, method, request.header? "access-control-request-headers",
        (request.header? "access-control-request-private-network").isSome⟩
  else none

/-- What a preflight asks for and does not get. -/
def failures (configuration : Configuration) (preflight : Preflight) :
    List String :=
  (if admits configuration preflight.origin then [] else ["origin"]) ++
    (if admitsMethod configuration preflight.method then []
     else ["method"]) ++
    (if admitsHeaders configuration preflight.headers then []
     else ["headers"]) ++
    (if preflight.privateNetwork then ["private-network"] else [])

def answer (configuration : Configuration) (preflight : Preflight) :
    Response :=
  let headers := headers configuration preflight.origin
  match failures configuration preflight with
  | [] => ⟨200, headers, .text "OK"⟩
  | found =>
      ⟨400, headers,
        .text ("Disallowed CORS " ++ ", ".intercalate found)⟩

/-- The headers for the origin that a request names, if it names one. -/
def answerHeaders (configuration : Configuration) (request : Request) :
    List (String × String) :=
  match request.sent? "origin" with
  | some origin => headers configuration origin
  | none => []

end Origin

end AccessControl.Http
