import AccessControl.Serialized

/-!
# Envelopes

The record in which the service wraps what it answers: whether it succeeded, a
message, and the data when there are any.
-/

namespace AccessControl

structure Envelope where
  status : Value
  body : Value

namespace Envelope

/-- The data field; null data are left out. -/
def dataField (data : Value) : Fields :=
  if data.isNull then [] else [("data", data)]

def successMessage : Value := .text "Success"

/-- The status of a success without another one. -/
def successStatus : Value := .integer 200

/-- The status of an error without another one. -/
def errorStatus : Value := .integer 400

/-- The record with its status, which has to be a number. -/
def ofContent (status : Value) (content : Fields) : Except Failure Envelope := do
  let body ← (Value.record content).written
  if status.asNumber?.isSome then .ok ⟨status, body⟩
  else .error (.notStatus status)

def success (data message status : Value) :
    Except Failure Envelope :=
  ofContent status
    ([("success", .boolean true), ("message", message)] ++ dataField data)

def error (message status data : Value) :
    Except Failure Envelope :=
  ofContent status
    ([("success", .boolean false),
      ("error", .record [("code", status), ("message", message)])] ++
      dataField data)

end Envelope

end AccessControl
