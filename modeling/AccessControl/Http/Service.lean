import AccessControl.Connection
import AccessControl.Http.Endpoint
import AccessControl.Http.Gate
import AccessControl.Http.Origin
import AccessControl.Registry.Session

/-!
# The service

A request passes the gate, is logged, gets the headers for its origin, and is
answered by its endpoint.  A failure that is no refusal passes all these layers
outwards and becomes an answer only at the very end.
-/

namespace AccessControl.Http

/-- The configuration, the routes that follow from it, the documents with the
clock, and the database connection. -/
structure Service where
  configuration : Configuration
  routes : List Route
  session : Session
  connection : Connection
  /-- The milliseconds, rounded to hundredths, that the clock goes on while a request
  is answered. -/
  elapsed : Double

/-- What happens around a request: how the database answers a first message, and
what somebody else does to the store in the meantime. -/
structure Occasion where
  ping : Connection.Ping
  interfere : Command → Store → Store

/-- What a layer gives: an answer or a failure, the records it wrote, and the
service after it. -/
abbrev Layer := Except Failure Response × List LogRecord × Service

namespace Service

/-- Why there is no service. -/
inductive Fault where
  | unnamed
  | unversioned
  | route (fault : Route.Fault)
deriving DecidableEq, Repr

/-- A service that is not connected yet.  It has to have a name and a version.  While
it answers, the clock stands still unless something else is said. -/
def make (configuration : Configuration) (session : Session)
    (elapsed : Double := ⟨0⟩) : Except Fault Service :=
  if !configuration.appName.isTruthy then .error .unnamed
  else if !configuration.appVersion.isTruthy then .error .unversioned
  else
    ((Route.all configuration.apiVersion.plain).mapError Fault.route).map
      fun routes =>
        ⟨configuration, routes, session, Connection.fresh, elapsed⟩

def databaseName (service : Service) : String :=
  service.configuration.databaseName.plain

def health (service : Service) : Value :=
  .record
    [("status", .text "healthy"),
     ("app", service.configuration.appName),
     ("version", service.configuration.appVersion),
     ("database", .boolean service.connection.connected)]

/-- A refusal as the answer that it is. -/
def answered : Except Failure Response → Except Failure Response
  | .error (.refused refusal) => .ok (Response.ofRefusal refusal)
  | result => result

/-- Connects to the database if needed and runs the program of an endpoint. -/
def serve (service : Service) (occasion : Occasion) (claimant : Claimant)
    (endpoint : Endpoint) (body : Body) : Layer :=
  let (handle, connecting, connection) :=
    service.connection.obtain service.databaseName occasion.ping
  let connected := { service with connection := connection }
  match handle with
  | .error failure => (.error failure, connecting, connected)
  | .ok _ =>
      let (result, records, session) :=
        connected.session.run occasion.interfere
          (endpoint.serve claimant connected.session.stamp body)
      (answered result, connecting ++ records,
        { connected with session := session })

/-- The answer of an endpoint.  A body that is not JSON, or cannot be read, is
answered before anything else is done. -/
def reach (service : Service) (occasion : Occasion) (claimant : Claimant)
    (endpoint : Endpoint) (request : Request) : Layer :=
  match endpoint with
  | .health => (.ok (Response.json 200 service.health), [], service)
  | _ =>
      let body :=
        if endpoint.takesBody then
          Body.ofRequest service.configuration.depth request
        else .absent
      match body, body.check (fun _ => Except.ok ()) with
      | .malformed _, .error issues =>
          (Response.ofIssues issues, [], service)
      | .unreadable, _ =>
          (.ok (Response.ofRefusal Body.unreadableRefusal), [], service)
      | _, _ => service.serve occasion claimant endpoint body

/-- Sends a request where its method and path lead. -/
def route (service : Service) (occasion : Occasion) (claimant : Claimant)
    (request : Request) : Layer :=
  match Route.find service.routes request.method request.path with
  | .endpoint endpoint =>
      service.reach occasion claimant endpoint request
  | .notAllowed allowed =>
      (.ok (Response.detail 405 (.text "Method Not Allowed")
          [("allow", allowed)]), [],
        service)
  | .elsewhere path =>
      (.ok ⟨307, [("location", Path.address request.host path)], .text ""⟩, [],
        service)
  | .nowhere => (.ok (Response.detail 404 (.text "Not Found") []), [], service)

/-! ## Layers -/

/-- Answers preflights, and adds the headers for the origin to other answers. -/
def withOrigin (service : Service) (occasion : Occasion) (claimant : Claimant)
    (request : Request) : Layer :=
  match Origin.preflight? request with
  | some preflight =>
      (.ok (Origin.answer service.configuration preflight), [], service)
  | none =>
      let (result, records, next) := service.route occasion claimant request
      (result.map
        (Response.adding
          (Origin.answerHeaders service.configuration request)),
        records, next)

def note (level : Level) (text : String) : LogRecord :=
  ⟨level, .request, text⟩

/-- The method and the path of a request, as records name them. -/
def title (request : Request) : String :=
  s!"{request.method} {Path.logged request.path}"

def arrival (request : Request) : LogRecord :=
  let client := request.client.getD "unknown"
  note .info s!"--> {title request} (from {client})"

/-- The level of a record about an answer with this status. -/
def levelOf (status : Nat) : Level :=
  if 500 ≤ status then .error
  else if 400 ≤ status then .warning
  else .info

def departure (request : Request) (elapsed : Double) (status : Nat) :
    LogRecord :=
  let duration := String.ofList elapsed.text
  note (levelOf status) s!"<-- {title request} | {status} | {duration}ms"

/-- The records of how a request ended.  The one with the calls that a failure came
through is left out. -/
def ending (request : Request) (elapsed : Double) :
    Except Failure Response → List LogRecord
  | .ok response => [departure request elapsed response.status]
  | .error failure =>
      [departure request elapsed 500,
       note .error s!"    Exception: {failure.message}"]

/-- Logs a request before and after it is answered. -/
def withRecords (service : Service) (occasion : Occasion)
    (claimant : Claimant) (request : Request) : Layer :=
  let (result, records, next) := service.withOrigin occasion claimant request
  (result,
    arrival request :: records ++ ending request service.elapsed result, next)

/-- Lets a request in when somebody makes it, or when it is open to everybody. -/
def withGate (service : Service) (occasion : Occasion) (request : Request) :
    Layer :=
  let passage :=
    Gate.pass service.configuration.signer service.session.now request
  match passage with
  | .ok claimant => service.withRecords occasion claimant request
  | .error failure => (answered (.error failure), [], service)

/-- The words for a failure: they are shown only where faults are looked for. -/
def failureText (configuration : Configuration) (failure : Failure) : String :=
  if configuration.debug.isTruthy then failure.message
  else "Internal server error"

/-- The answer to a request that failed at this time. -/
def failed (service : Service) (now : Timestamp) (failure : Failure) :
    Response :=
  Response.json 500
    (.record
      [("success", .boolean false),
       ("error",
        .record
          [("code", .integer 500),
           ("message", .text (failureText service.configuration failure))]),
       ("timestamp", .text (String.ofList now.text))])

/-- The answer to a request that failed, and what it failed with in the end: where
there is no time to put into the answer, the answer is empty. -/
def ended (service : Service) (failure : Failure) : Response × Failure :=
  match service.session.now with
  | .ok now => (service.failed now failure, failure)
  | .error fault => (⟨500, [], .text ""⟩, .clock fault)

/-- An answer, the failure behind it if there was one, and the records written. -/
structure Answer where
  response : Response
  failure : Option Failure
  records : List LogRecord

/-- The answer to a request, and the service after it.  Of a failure that gets this
far, the record with the calls that it came through is left out. -/
def answer (service : Service) (occasion : Occasion) (request : Request) :
    Answer × Service :=
  let (result, records, next) := service.withGate occasion request
  match result with
  | .ok response => (⟨response, none, records⟩, next)
  | .error failure =>
      let last := note .error s!"Unhandled exception on {title request}:"
      let (response, final) := next.ended failure
      (⟨response, some final, records ++ [last]⟩, next)

/-- Connects to the database before the first request. -/
def start (service : Service) (ping : Connection.Ping) : Service :=
  let (_, _, connection) :=
    service.connection.connect service.databaseName ping
  { service with connection := connection }

def stop (service : Service) : Service :=
  let (_, _, connection) := service.connection.close
  { service with connection := connection }

end Service

end AccessControl.Http
