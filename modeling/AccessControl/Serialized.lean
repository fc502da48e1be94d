import AccessControl.Failure

/-!
# Documents as answers

A stored document is answered with its identifiers as hexadecimal digits and
its points in time as text.  Only the values of fields are converted: an
identifier or a point in time that stands directly in a list stays as it is,
and an answer that holds one cannot be written.
-/

namespace AccessControl

namespace Value

/-- The value of a field, when it is an identifier or a point in time, as text. -/
def spelled : Value → Value
  | id value => text value.hex
  | date value => text (String.ofList value.text)
  | other => other

mutual

def serialized : Value → Value
  | list items => list (serializedItems items)
  | record fields => record (serializedFields fields)
  | other => other

def serializedItems : List Value → List Value
  | [] => []
  | item :: rest => serialized item :: serializedItems rest

def serializedFields : Fields → Fields
  | [] => []
  | (name, value) :: rest =>
      (name, (serialized value).spelled) :: serializedFields rest

end

mutual

/-- The first part of the value, in order, that has no written form. -/
def writingFault? : Value → Option Failure
  | list items => itemsFault? items
  | record fields => fieldsFault? fields
  | number n => if n.isFinite then none else some .outOfRange
  | id value => some (.unwritable (id value))
  | date value => some (.unwritable (date value))
  | _ => none

def itemsFault? : List Value → Option Failure
  | [] => none
  | item :: rest => (writingFault? item).or (itemsFault? rest)

def fieldsFault? : Fields → Option Failure
  | [] => none
  | (_, value) :: rest => (writingFault? value).or (fieldsFault? rest)

end

/-- The value, when all of it can be written. -/
def written (value : Value) : Except Failure Value :=
  match value.writingFault? with
  | some failure => .error failure
  | none => .ok value

end Value

end AccessControl
