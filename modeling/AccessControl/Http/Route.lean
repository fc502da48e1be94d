import AccessControl.Http.Pattern

/-!
# Routes

Which endpoint answers a method on a path.  A path may have several endpoints,
one a method; they stand in a fixed order, and the first of them is named to a
request whose method none of them has.  A path that leads nowhere but would
with a slash less or more at its end is sent there.  The version of the
interface is a part of most paths and may itself be a pattern.
-/

namespace AccessControl.Http

inductive Endpoint where
  | createPolicy
  | listPolicies
  | getPolicy (policy : String)
  | updatePolicy (policy : String)
  | deletePolicy (policy : String)
  | attachPolicy (principal policy : String)
  | detachPolicy (principal policy : String)
  | health
deriving DecidableEq, Repr

/-- Whether the endpoint reads the body of the request. -/
def Endpoint.takesBody : Endpoint → Bool
  | createPolicy => true
  | updatePolicy _ => true
  | _ => false

/-- A method, the paths, and the endpoint for what fills the holes of a path. -/
structure Route where
  method : String
  pattern : Pattern
  endpoint : Holes → Endpoint

namespace Route

def policyHole : String := "policy_id"

def principalHole : String := "principal_id"

/-- What stands for a body, so that no hole of a route with one has this name. -/
def bodyName : String := "body"

/-- A name as the text of a hole that a segment fills. -/
def hole (name : String) : String :=
  String.ofList ('\x7b' :: name.toList ++ ['\x7d'])

/-- The beginning of the paths of this version of the interface. -/
def base (version : String) : String :=
  s!"/api/{version}/iam/"

def policiesPath (version : String) : String :=
  base version ++ "policies/"

def policyPath (version : String) : String :=
  policiesPath version ++ hole policyHole

def attachmentPath (version : String) : String :=
  base version ++ "principals/" ++ hole principalHole ++ "/policies/" ++
    hole policyHole

/-- Methods, paths and endpoints, in order.  The pages on which the interface
describes itself, `/openapi.json`, `/api/docs`, `/docs/oauth2-redirect` and
`/redoc`, are not among them: they show neither documents nor decisions, and what
stands on them is not modelled.  A request for one of them is sent nowhere here. -/
def table (version : String) : List (String × String × (Holes → Endpoint)) :=
  let policy (holes : Holes) : String := holes.text policyHole
  let principal (holes : Holes) : String := holes.text principalHole
  [("POST", policiesPath version, fun _ => .createPolicy),
   ("GET", policiesPath version, fun _ => .listPolicies),
   ("GET", policyPath version, fun holes => .getPolicy (policy holes)),
   ("PUT", policyPath version, fun holes => .updatePolicy (policy holes)),
   ("DELETE", policyPath version, fun holes => .deletePolicy (policy holes)),
   ("PUT", attachmentPath version,
    fun holes => .attachPolicy (principal holes) (policy holes)),
   ("DELETE", attachmentPath version,
    fun holes => .detachPolicy (principal holes) (policy holes)),
   ("GET", "/health", fun _ => .health)]

/-- Why there is no such route. -/
inductive Fault where
  | pattern (fault : Pattern.Fault)
  /-- A hole has the name that stands for the body. -/
  | takenName
deriving DecidableEq, Repr

/-- The route of one line of the table. -/
def ofLine (line : String × String × (Holes → Endpoint)) :
    Except Fault Route := do
  let (method, path, endpoint) := line
  let pattern ← (Pattern.ofText path).mapError Fault.pattern
  if (endpoint []).takesBody && pattern.names.contains bodyName then
    .error .takenName
  else .ok ⟨method, pattern, endpoint⟩

def all (version : String) : Except Fault (List Route) :=
  (table version).mapM ofLine

/-- The methods and endpoints of a path, in order. -/
def candidates (routes : List Route) (path : List Char) :
    List (String × Endpoint) :=
  routes.filterMap fun route =>
    (route.pattern.fit? path).map fun holes =>
      (route.method, route.endpoint holes)

/-- Where a request is sent. -/
inductive Destination where
  | endpoint (endpoint : Endpoint)
  | notAllowed (allowed : String)
  | elsewhere (path : String)
  | nowhere
deriving DecidableEq, Repr

/-- The path without the slashes at its end, or with one when it has none. -/
def slashed (path : List Char) : List Char :=
  if path.getLast? = some '/' then
    (path.reverse.dropWhile (· = '/')).reverse
  else path ++ ['/']

/-- The destination of a path that no endpoint has. -/
def redirected (routes : List Route) (path : List Char) : Destination :=
  if path = ['/'] then .nowhere
  else if (candidates routes (slashed path)).isEmpty then .nowhere
  else .elsewhere (String.ofList (slashed path))

/-- The destination of a method on a path. -/
def find (routes : List Route) (method path : String) : Destination :=
  match candidates routes path.toList with
  | [] => redirected routes path.toList
  | (allowed, endpoint) :: rest =>
      match ((allowed, endpoint) :: rest).lookup method with
      | some found => .endpoint found
      | none => .notAllowed allowed

end Route

end AccessControl.Http
