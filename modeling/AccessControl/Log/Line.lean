import AccessControl.Log
import AccessControl.Text.Template

/-!
# Log lines

A record is written as columns with bars between them: the level in eight
places, the name of its logger, and the message.  A message with arguments is a
template; when its slots cannot be filled there are no lines but a fault.
-/

namespace AccessControl

/-- A message for a logger, and the fault it is about, if any. -/
structure LogCall where
  level : Level
  message : Value
  arguments : List Value
  fault : Option String

namespace LogCall

/-- The message with its arguments; without any it stands for itself. -/
def text (call : LogCall) : Except Text.TemplateFault String :=
  if call.arguments.isEmpty then .ok call.message.plain
  else Text.template call.message.plain call.arguments

/-- The level in eight places. -/
def column (level : Level) : String :=
  level.name ++ String.ofList (List.replicate (8 - level.name.length) ' ')

/-- What is written below a message about a fault. -/
def trace : Option String → List String
  | none => []
  | some fault => ["Traceback (most recent call last):", fault]

/-- The lines that the named logger writes. -/
def lines (name : String) (call : LogCall) :
    Except Text.TemplateFault (List String) :=
  call.text.map fun text =>
    s!"{column call.level} | {name} | {text}" :: trace call.fault

end LogCall

end AccessControl
