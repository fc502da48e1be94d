import AccessControl.Issue

/-!
# Checks of values

A check takes a value that stands at some place and gives what it was looked
for, or the issues with their places.  Fields of a record are required or
optional.
-/

namespace AccessControl

namespace Validation

def text (place : List Step) : Value → Verdict String
  | .text value => .ok value
  | other => Verdict.refuse .notString place other

def nonEmptyText (place : List Step) (input : Value) : Verdict String :=
  match text place input with
  | .ok "" => Verdict.refuse .emptyString place input
  | verdict => verdict

def texts (place : List Step) : Value → Verdict (List String)
  | .list items =>
      Verdict.all (items.zipIdx.map fun item =>
        text (place ++ [.index item.2]) item.1)
  | other => Verdict.refuse .notList place other

def nonEmptyTexts (place : List Step) (input : Value) :
    Verdict (List String) :=
  match texts place input with
  | .ok [] => Verdict.refuse .emptyList place input
  | verdict => verdict

def required {α : Type} (name : String)
    (check : List Step → Value → Verdict α) (fields : Fields) : Verdict α :=
  match Fields.get? fields name with
  | some value => check [.field name] value
  | none => Verdict.refuse .missing [.field name] (.record fields)

/-- A field that may be absent or null. -/
def optional {α : Type} (name : String)
    (check : List Step → Value → Verdict α) (fields : Fields) :
    Verdict (Option (Option α)) :=
  match Fields.get? fields name with
  | none => .ok none
  | some .null => .ok (some none)
  | some value => (check [.field name] value).map fun found => some (some found)

end Validation

end AccessControl
