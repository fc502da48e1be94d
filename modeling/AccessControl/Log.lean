/-!
# Log records

What the parts of the service report while they work.
-/

namespace AccessControl

inductive Level where
  | debug
  | info
  | warning
  | error
deriving DecidableEq, Repr

namespace Level

def name : Level → String
  | debug => "DEBUG"
  | info => "INFO"
  | warning => "WARNING"
  | error => "ERROR"

end Level

/-- The part of the service that a record comes from. -/
inductive Reporter where
  | compiler
  | checkpoint
  | database
  | service
  | request
deriving DecidableEq, Repr

namespace Reporter

def name : Reporter → String
  | compiler => "iam.abac.compiler"
  | checkpoint => "iam.abac.checkpoint"
  | database => "iam.config.database"
  | service => "iam.policies.service"
  | request => "request"

end Reporter

structure LogRecord where
  level : Level
  reporter : Reporter
  text : String
deriving DecidableEq, Repr

namespace LogRecord

/-- The text up to its first line feed. -/
def headline (record : LogRecord) : String :=
  String.ofList (record.text.toList.takeWhile (· != '\n'))

end LogRecord

end AccessControl
