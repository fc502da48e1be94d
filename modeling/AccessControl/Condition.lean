import AccessControl.Text.Basic
import AccessControl.Value

/-!
# Attribute conditions

A condition names operators, and for each of them expected values of fields.  It
holds for a resource when every operator is known and every named field is
found and stands in the operator's relation to the expected value.  A field is
looked up under its literal name first and then, when the name has dots, by
following its segments through nested records.
-/

namespace AccessControl

inductive Operator where
  | stringEquals
  | stringNotEquals
  | numberEquals
  | numberNotEquals
  | numberGreaterThan
  | numberGreaterThanEquals
  | numberLessThan
  | numberLessThanEquals
  | bool
deriving DecidableEq, Repr

namespace Operator

def all : List Operator :=
  [stringEquals, stringNotEquals, numberEquals, numberNotEquals,
   numberGreaterThan, numberGreaterThanEquals, numberLessThan,
   numberLessThanEquals, bool]

def name : Operator → String
  | stringEquals => "StringEquals"
  | stringNotEquals => "StringNotEquals"
  | numberEquals => "NumberEquals"
  | numberNotEquals => "NumberNotEquals"
  | numberGreaterThan => "NumberGreaterThan"
  | numberGreaterThanEquals => "NumberGreaterThanEquals"
  | numberLessThan => "NumberLessThan"
  | numberLessThanEquals => "NumberLessThanEquals"
  | bool => "Bool"

def ofName? (name : String) : Option Operator :=
  all.find? fun operator => operator.name == name

theorem mem_all (operator : Operator) : operator ∈ all := by
  cases operator <;> decide

theorem ofName?_eq_some_iff {name : String} {operator : Operator} :
    ofName? name = some operator ↔ operator.name = name := by
  constructor
  · intro found
    simpa using List.find?_some found
  · rintro rfl
    cases operator <;> decide

/-- The kind of value an operator expects. -/
inductive Expects where
  | text
  | number
  | boolean
deriving DecidableEq, Repr

def expects : Operator → Expects
  | stringEquals | stringNotEquals => .text
  | bool => .boolean
  | _ => .number

/-- Whether a value is of the expected kind; booleans are no numbers. -/
def Expects.admits : Expects → Value → Bool
  | .text, .text _ => true
  | .number, .number _ => true
  | .boolean, .boolean _ => true
  | _, _ => false

/-- Whether two numbers stand in the operator's relation.  What is not a number is
unequal to everything and stands in no other relation. -/
def relatesNumbers (operator : Operator) (actual expected : Number) : Bool :=
  match operator, actual.compare? expected with
  | numberEquals, order => order == some .eq
  | numberNotEquals, order => order != some .eq
  | numberGreaterThan, order => order == some .gt
  | numberGreaterThanEquals, order => order == some .gt || order == some .eq
  | numberLessThan, order => order == some .lt
  | numberLessThanEquals, order => order == some .lt || order == some .eq
  | _, _ => false

/-- Whether the value found stands in the operator's relation to the expected
one. -/
def relates (operator : Operator) (actual expected : Value) : Bool :=
  match operator, actual, expected with
  | stringEquals, .text a, .text b => a == b
  | stringNotEquals, .text a, .text b => a != b
  | stringNotEquals, .text _, _ => true
  | bool, .boolean a, .boolean b => a == b
  | operator, .number a, .number b => operator.relatesNumbers a b
  | _, _, _ => false

end Operator

/-- Why a condition could not be decided. -/
inductive EvaluationFault where
  | conditionNotRecord
  | expectationsNotRecord
  | resourceNotRecord
deriving DecidableEq, Repr

/-- The parts of a text between its dots. -/
def segments : List Char → List (List Char)
  | [] => [[]]
  | c :: rest =>
      if c = '.' then [] :: segments rest
      else
        match segments rest with
        | first :: others => (c :: first) :: others
        | [] => [[c]]

namespace Value

/-- Follows the segments of a path through nested records. -/
def follow : Value → List String → Option Value
  | value, [] => some value
  | record fields, segment :: rest =>
      match Fields.get? fields segment with
      | some inner => follow inner rest
      | none => none
  | _, _ :: _ => none

/-- Asks a resource for a field.  A text or a list that holds the name itself, and
a value that holds nothing, cannot be asked. -/
def field (resource : Value) (name : String) :
    Except EvaluationFault (Option Value) :=
  match resource with
  | record fields => .ok (Fields.get? fields name)
  | text value =>
      if Text.occursIn name.toList value.toList then .error .resourceNotRecord
      else .ok none
  | list items =>
      if items.any (same (text name)) then .error .resourceNotRecord
      else .ok none
  | _ => .error .resourceNotRecord

/-- The value under the literal name, or else at the end of the dotted path. -/
def lookUp (resource : Value) (path : String) :
    Except EvaluationFault (Option Value) := do
  match ← resource.field path with
  | some found => .ok (some found)
  | none =>
      if path.toList.contains '.' then
        .ok (resource.follow ((segments path.toList).map String.ofList))
      else .ok none

/-- A resource that counts as nothing has no fields. -/
def orEmpty (resource : Value) : Value :=
  if resource.isTruthy then resource else record []

end Value

/-- Operator names with the values that fields are expected to have. -/
abbrev Condition := List (String × Value)

namespace Condition

/-- Whether all expectations of one operator are met. -/
def meets (operator : Operator) (resource : Value) :
    Fields → Except EvaluationFault Bool
  | [] => .ok true
  | (path, expected) :: rest => do
      match ← resource.lookUp path with
      | some actual =>
          if operator.relates actual expected then meets operator resource rest
          else .ok false
      | none => .ok false

/-- Whether every operator is known and all its expectations are met, decided from
the first operator on. -/
def satisfied (resource : Value) : Condition → Except EvaluationFault Bool
  | [] => .ok true
  | (name, expectations) :: rest =>
      match Operator.ofName? name with
      | none => .ok false
      | some operator =>
          match expectations with
          | .record fields => do
              if ← meets operator resource fields then satisfied resource rest
              else .ok false
          | _ => .error .expectationsNotRecord

/-- Whether a condition, given as a value, holds for a resource; null stands for no
condition, which always holds. -/
def holds (condition resource : Value) : Except EvaluationFault Bool :=
  match condition with
  | .null => .ok true
  | .record entries => satisfied resource.orEmpty entries
  | _ => .error .conditionNotRecord

/-- A condition that may be missing, as a value. -/
def toValue : Option Condition → Value
  | some entries => .record entries
  | none => .null

end Condition

end AccessControl
