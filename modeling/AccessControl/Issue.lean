import AccessControl.Condition
import AccessControl.Text.Quoted

/-!
# Issues of validation

An issue says what is wrong with one part of an input, and where that part is.
A verdict is the checked value or all the issues found.  A report tells of all
the issues of an input, with the inputs cut short where they are long.
-/

namespace AccessControl

/-- A step on the way to a part of an input. -/
inductive Step where
  | field (name : String)
  | index (position : Nat)
deriving DecidableEq, Repr

namespace Step

/-- A step as a report shows it: a name with a point in it stands between grave
accents, because points part the steps. -/
def shown : Step → String
  | field name =>
      if name.toList.contains '.' then "\x60" ++ name ++ "\x60" else name
  | index position => toString position

end Step

/-- What is wrong. -/
inductive Defect where
  | missing
  | notModel (model : String)
  | notAttributes
  | notString
  | emptyString
  | notEffect
  | notList
  | emptyList
  | notDictionary
  | notOperator
  | wrongExpectation (operator : Operator) (field : String)
  | notBoolean
  | unreadableBoolean
  | notInteger
  | unreadableInteger
  | excessiveInteger
  | fractionalInteger
  | infiniteInteger
  | notJson
deriving DecidableEq, Repr

namespace Operator

/-- The kind of value an operator expects, in words. -/
def Expects.words : Expects → String
  | .text => "a string"
  | .number => "a number"
  | .boolean => "a boolean"

end Operator

/-- Words in quotes, with commas between them and `or` before the last. -/
def alternatives : List String → String
  | [] => ""
  | [last] => s!"'{last}'"
  | [first, last] => s!"'{first}' or '{last}'"
  | first :: rest => s!"'{first}', " ++ alternatives rest

namespace Defect

def code : Defect → String
  | missing => "missing"
  | notModel _ => "model_type"
  | notAttributes => "model_attributes_type"
  | notString => "string_type"
  | emptyString => "string_too_short"
  | notEffect => "enum"
  | notList => "list_type"
  | emptyList => "too_short"
  | notDictionary => "dict_type"
  | notOperator => "enum"
  | wrongExpectation _ _ => "value_error"
  | notBoolean => "bool_type"
  | unreadableBoolean => "bool_parsing"
  | notInteger => "int_type"
  | unreadableInteger => "int_parsing"
  | excessiveInteger => "int_parsing_size"
  | fractionalInteger => "int_from_float"
  | infiniteInteger => "finite_number"
  | notJson => "json_invalid"

def message : Defect → String
  | missing => "Field required"
  | notModel model =>
      s!"Input should be a valid dictionary or instance of {model}"
  | notAttributes =>
      "Input should be a valid dictionary or object to extract fields from"
  | notString => "Input should be a valid string"
  | emptyString => "String should have at least 1 character"
  | notEffect => "Input should be " ++ alternatives ["Allow", "Deny"]
  | notList => "Input should be a valid list"
  | emptyList => "List should have at least 1 item after validation, not 0"
  | notDictionary => "Input should be a valid dictionary"
  | notOperator =>
      "Input should be " ++ alternatives (Operator.all.map Operator.name)
  | wrongExpectation operator field =>
      s!"Value error, {operator.name}.{field} must be " ++ operator.expects.words
  | notBoolean => "Input should be a valid boolean"
  | unreadableBoolean =>
      "Input should be a valid boolean, unable to interpret input"
  | notInteger => "Input should be a valid integer"
  | unreadableInteger =>
      "Input should be a valid integer, unable to parse string as an integer"
  | excessiveInteger =>
      "Unable to parse input string as an integer, exceeded maximum size"
  | fractionalInteger =>
      "Input should be a valid integer, got a number with a fractional part"
  | infiniteInteger => "Input should be a finite number"
  | notJson => "JSON decode error"

/-- Where the defects are explained, and for which release. -/
def explanations : List String := ["errors.pydantic.dev", "2.14", "v"]

/-- The address of the page that explains a defect. -/
def page (defect : Defect) : String :=
  "https://" ++ "/".intercalate (explanations ++ [defect.code])

end Defect

/-- A defect, its place, and the part of the input that has it. -/
structure Issue where
  defect : Defect
  place : List Step
  input : Value

namespace Issue

/-- The same issue in an input that is itself a part of a larger one. -/
def under (step : Step) (issue : Issue) : Issue :=
  ⟨issue.defect, step :: issue.place, issue.input⟩

/-- The bytes of an input that a report shows. -/
def inputLimit : Nat := 50

/-- The input as a report shows it. -/
def inputShown (issue : Issue) : String :=
  String.ofList (Text.shortened inputLimit issue.input.shown)

/-- The line for the place of an issue; the whole input has none. -/
def placeLines (issue : Issue) : List String :=
  match issue.place with
  | [] => []
  | steps => [".".intercalate (steps.map Step.shown)]

/-- The lines that tell of an issue: its place, what is wrong with which input, and
where more is said about it. -/
def lines (issue : Issue) : List String :=
  issue.placeLines ++
    ["  " ++ issue.defect.message ++ " [type=" ++ issue.defect.code ++
      ", input_value=" ++ issue.inputShown ++
      ", input_type=" ++ issue.input.shortKind ++ "]",
     "    For further information visit " ++ issue.defect.page]

def heading (model : String) (count : Nat) : String :=
  s!"{count} validation error" ++ (if count = 1 then "" else "s") ++
    s!" for {model}"

/-- What is said about all the issues of one input. -/
def report (model : String) (issues : List Issue) : String :=
  "\n".intercalate (heading model issues.length :: issues.flatMap lines)

end Issue

/-- A checked value, or all issues found. -/
abbrev Verdict (α : Type) := Except (List Issue) α

namespace Verdict

def issues {α : Type} : Verdict α → List Issue
  | .ok _ => []
  | .error found => found

/-- Refuses one value for one defect. -/
def refuse {α : Type} (defect : Defect) (place : List Step) (input : Value) :
    Verdict α :=
  .error [⟨defect, place, input⟩]

/-- All the values when there is no issue in any, else all issues in order. -/
def all {α : Type} : List (Verdict α) → Verdict (List α)
  | [] => .ok []
  | first :: rest =>
      match first, all rest with
      | .ok value, .ok values => .ok (value :: values)
      | one, others => .error (one.issues ++ others.issues)

end Verdict

end AccessControl
