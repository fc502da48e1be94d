import AccessControl.Http.Message
import AccessControl.Json.Encoding
import AccessControl.Validation

/-!
# Request bodies

The body of a request that stores or changes a policy is read as JSON when that
is its content type.  What is wrong with it is answered as a list of issues,
each with the place it was found at and the part of the body that has it; a body
that cannot even be taken for a text is refused.
-/

namespace AccessControl.Http

inductive Body where
  | absent
  | malformed (position : Nat)
  /-- The bytes make up no text, or one that is nested too deep or has an integer
  of too many digits. -/
  | unreadable
  | value (value : Value)
  | otherType (text : String)

namespace Body

def isJsonType (contentType : String) : Bool :=
  let plain := contentType.toList.takeWhile (· != ';')
  let lowered := (Text.trim Text.isBlank plain).flatMap Text.lower
  lowered = "application/json".toList ||
    ("application/".toList.isPrefixOf lowered &&
      "+json".toList.isSuffixOf lowered &&
      lowered.countP (· = '/') = 1)

def ofJson (depth : Nat) (bytes : List UInt8) : Body :=
  match (Json.textOf? bytes).map (Json.read · depth) with
  | some (.ok read) => .value read
  | some (.error (.malformed position)) => .malformed position
  | _ => .unreadable

def ofRequest (depth : Nat) (request : Request) : Body :=
  if request.body = "" then .absent
  else if isJsonType ((request.header? "content-type").getD "") then
    ofJson depth request.body.toUTF8.toList
  else .otherType request.body

/-- What is said about a body that cannot be read. -/
def unreadableRefusal : Refusal :=
  .badRequest (.text "There was an error parsing the body")

/-- Where the body of a request stands. -/
def place : Step := .field "body"

/-- Checks the fields of the body. -/
def check {α : Type} (ofFields : Fields → Verdict α) : Body → Verdict α
  | .absent | .unreadable | .value .null =>
      Verdict.refuse .missing [place] .null
  | .malformed position =>
      Verdict.refuse .notJson [place, .index position] (.record [])
  | .value (.record fields) =>
      (ofFields fields).mapError fun issues => issues.map (Issue.under place)
  | .value other => Verdict.refuse .notAttributes [place] other
  | .otherType text => Verdict.refuse .notAttributes [place] (.text text)

end Body

/-- A step on the way to a part of a body, as a value. -/
def stepValue : Step → Value
  | .field name => .text name
  | .index position => .integer position

def issueValue (issue : Issue) : Value :=
  .record
    [("type", .text issue.defect.code),
     ("loc", .list (issue.place.map stepValue)),
     ("msg", .text issue.defect.message),
     ("input", issue.input)]

/-- The answer to a body with issues, when their parts of the body can be
written. -/
def Response.ofIssues (issues : List Issue) : Except Failure Response :=
  (Value.record [("detail", .list (issues.map issueValue))]).written.map
    (Response.json 422)

end AccessControl.Http
