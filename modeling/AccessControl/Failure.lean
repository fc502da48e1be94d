import AccessControl.Clock
import AccessControl.Issue
import AccessControl.Refusal
import AccessControl.Store
import AccessControl.Token.Key

/-!
# Failures

Everything that can end an operation without an answer: the refusals that the
service gives on purpose, documents that are not valid, and faults of the data
or of the database that nothing catches.
-/

namespace AccessControl

inductive Failure where
  | refused (refusal : Refusal)
  /-- A document is not what the model asks for. -/
  | invalid (model : String) (issues : List Issue)
  /-- A tenant name has another form than a tenant's. -/
  | badUnit (unit : String)
  /-- A value that is to be taken apart as a text is none; the word is for what was
  to be done first. -/
  | notText (value : Value) (deed : String)
  /-- A condition or a resource has a shape that cannot be evaluated. -/
  | evaluation (fault : EvaluationFault)
  /-- A value that has to be a list of identifiers has no items. -/
  | notIterable (value : Value)
  /-- What has to hold identifiers can hold nothing. -/
  | noContainer (value : Value)
  /-- A text is asked for something that is no text. -/
  | notPart (value : Value)
  /-- A list or record stands where a key of an index is needed. -/
  | notKey (value : Value)
  /-- Documents are sorted by values that have no order. -/
  | unordered (fault : Unordered)
  /-- Changes that have to be fields are none. -/
  | notFields (value : Value)
  | connection (text : String)
  | notConnected
  /-- An answer holds a value that has no written form. -/
  | unwritable (value : Value)
  /-- An answer holds a number that is not finite. -/
  | outOfRange
  /-- The status of an answer is no number. -/
  | notStatus (status : Value)
  /-- A claim that has to be a time cannot be made a number. -/
  | claimNotNumeric (value : Value)
  /-- A claim that has to be a time is an infinity. -/
  | claimInfinite
  | key (fault : Key.Fault)
  /-- The time is asked for, and the clock shows none. -/
  | clock (fault : Clock.Fault)
  /-- Lists or records in a text are nested too deep to be read. -/
  | tooDeep (isList : Bool)

namespace Failure

/-- What is said about a tenant name of another form. -/
def badUnitMessage (unit : String) : String :=
  s!"Invalid unit '{unit}'. " ++
    "Must be lowercase alphanumeric with optional hyphens."

def message : Failure → String
  | refused refusal => s!"{refusal.status}: {refusal.detail.plain}"
  | invalid model issues => Issue.report model issues
  | badUnit unit => badUnitMessage unit
  | notText value deed =>
      s!"'{value.kind}' object has no attribute '{deed}'"
  | evaluation .conditionNotRecord => "a condition has to hold operators"
  | evaluation .expectationsNotRecord => "an operator has to hold fields"
  | evaluation .resourceNotRecord => "a resource has to hold fields"
  | notIterable value => s!"'{value.kind}' object is not iterable"
  | noContainer value => s!"argument of type '{value.kind}' is not iterable"
  | notPart value =>
      s!"'in <string>' requires string as left operand, not {value.kind}"
  | notKey value => s!"unhashable type: '{value.kind}'"
  | unordered ⟨.date _, .date _⟩ =>
      "can't compare offset-naive and offset-aware datetimes"
  | unordered ⟨first, second⟩ =>
      s!"'<' not supported between instances of '{first.kind}' and " ++
        s!"'{second.kind}'"
  | notFields value => s!"'{value.kind}' object has no attribute 'items'"
  | connection text => text
  | notConnected => "Database not connected. Call connect() first."
  | unwritable value =>
      s!"Object of type {value.shortKind} is not JSON serializable"
  | outOfRange => "Out of range float values are not JSON compliant"
  | notStatus status =>
      s!"'<' not supported between instances of '{status.kind}' and 'int'"
  | claimNotNumeric value =>
      "int() argument must be a string, a bytes-like object or a real " ++
        s!"number, not '{value.kind}'"
  | claimInfinite => "cannot convert float infinity to integer"
  | key fault => fault.message
  | clock fault => fault.message
  | tooDeep isList =>
      "maximum recursion depth exceeded while decoding a JSON " ++
        (if isList then "array" else "object") ++ " from a unicode string"

end Failure

end AccessControl
