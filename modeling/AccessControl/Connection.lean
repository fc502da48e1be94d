import AccessControl.Failure
import AccessControl.Log

/-!
# Database connection

The service holds at most one connection to its database.  A connection counts
as made only when the database answers; an attempt that fails leaves its handle
behind, which a later attempt replaces and closing takes away.
-/

namespace AccessControl

/-- A client's handle on a database: which client it is, in the order in which
they were made, and the name of the database. -/
structure Handle where
  serial : Nat
  database : String
deriving DecidableEq, Repr

/-- The handle, whether the database answered, and how many clients were made and
closed. -/
structure Connection where
  handle : Option Handle
  connected : Bool
  opened : Nat
  closed : Nat
deriving DecidableEq, Repr

namespace Connection

def fresh : Connection := ⟨none, false, 0, 0⟩

/-- What a step gives: its result, what it reports, and the connection after it. -/
abbrev Step (α : Type) := Except Failure α × List LogRecord × Connection

/-- The answer of the database to a first message: nothing, or a fault in words. -/
abbrev Ping := Option String

def report (level : Level) (text : String) : LogRecord :=
  ⟨level, .database, text⟩

/-- Makes a connection to the named database unless there is one. -/
def connect (database : String) (ping : Ping) (connection : Connection) :
    Step Unit :=
  if connection.connected then (.ok (), [], connection)
  else
    let attempt : Connection :=
      { connection with
        handle := some ⟨connection.opened, database⟩
        opened := connection.opened + 1 }
    match ping with
    | none =>
        (.ok (), [report .info s!"Connected to MongoDB [{database}]"],
          { attempt with connected := true })
    | some fault =>
        (.error (.connection fault),
          [report .error s!"Failed to connect to MongoDB: {fault}"], attempt)

def close (connection : Connection) : Step Unit :=
  match connection.handle with
  | none => (.ok (), [], connection)
  | some _ =>
      (.ok (), [report .info "MongoDB connection closed"],
        { connection with
          handle := none
          connected := false
          closed := connection.closed + 1 })

def database (connection : Connection) : Except Failure Handle :=
  match connection.handle with
  | some handle => .ok handle
  | none => .error .notConnected

/-- The handle on the database, after connecting when that is needed. -/
def obtain (name : String) (ping : Ping) (connection : Connection) :
    Step Handle :=
  let (outcome, records, next) := connection.connect name ping
  match outcome with
  | .ok () => (next.database, records, next)
  | .error failure => (.error failure, records, next)

end Connection

end AccessControl
