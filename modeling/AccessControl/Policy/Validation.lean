import AccessControl.Policy
import AccessControl.Validation

/-!
# Validation of policy documents

A document is a policy when its name is a non-empty text, its effect one of the
two, its actions and resources non-empty lists of texts, and its condition
absent, null or well formed.  All issues are found, in the order of the fields
and then of the positions; a wrong expected value is looked for only in a
condition that has no other issue.
-/

namespace AccessControl

namespace Validation

def effect (place : List Step) (input : Value) : Verdict Effect :=
  match input with
  | .text name =>
      match Effect.ofName? name with
      | some effect => .ok effect
      | none => Verdict.refuse .notEffect place input
  | _ => Verdict.refuse .notEffect place input

/-- The issues of one operator name with its expectations. -/
def entryIssues (place : List Step) (entry : String × Value) : List Issue :=
  (match Operator.ofName? entry.1 with
   | some _ => []
   | none =>
       [⟨.notOperator, place ++ [.field entry.1, .field "[key]"],
         .text entry.1⟩]) ++
  (match entry.2 with
   | .record _ => []
   | other => [⟨.notDictionary, place ++ [.field entry.1], other⟩])

/-- The first expected value that is not of the kind its operator expects. -/
def misfit? : Condition → Option (Operator × String)
  | [] => none
  | (name, expectations) :: rest =>
      match Operator.ofName? name, expectations with
      | some operator, .record fields =>
          match fields.find? (fun field => !operator.expects.admits field.2) with
          | some field => some (operator, field.1)
          | none => misfit? rest
      | _, _ => misfit? rest

/-- A condition: null or operators with the values they expect. -/
def condition (place : List Step) (input : Value) :
    Verdict (Option Condition) :=
  match input with
  | .null => .ok none
  | .record entries =>
      match entries.flatMap (entryIssues place) with
      | [] =>
          match misfit? entries with
          | none => .ok (some entries)
          | some (operator, field) =>
              Verdict.refuse (.wrongExpectation operator field) place input
      | found => .error found
  | other => Verdict.refuse .notDictionary place other

end Validation

namespace Policy

/-- The condition of a document; an absent one counts as null. -/
def conditionOf (fields : Fields) : Verdict (Option Condition) :=
  match Fields.get? fields "condition" with
  | some value => Validation.condition [.field "condition"] value
  | none => .ok none

def ofFields (fields : Fields) : Verdict Policy :=
  match
    Validation.required "name" Validation.nonEmptyText fields,
    Validation.required "effect" Validation.effect fields,
    Validation.required "actions" Validation.nonEmptyTexts fields,
    Validation.required "resources" Validation.nonEmptyTexts fields,
    conditionOf fields with
  | .ok name, .ok effect, .ok actions, .ok resources, .ok condition =>
      .ok ⟨name, effect, actions, resources, condition⟩
  | name, effect, actions, resources, condition =>
      .error (name.issues ++ effect.issues ++ actions.issues ++
        resources.issues ++ condition.issues)

/-- Checks a document that is called `model` in the message about one that is no
record. -/
def ofValue (model : String) : Value → Verdict Policy
  | .record fields => ofFields fields
  | other => Verdict.refuse (.notModel model) [] other

/-- What a stored policy is called in messages. -/
def modelName : String := "Policy"

/-- What a policy in a request is called in messages. -/
def requestName : String := "CreatePolicyRequest"

end Policy

/-- The fields that a change request holds; `some none` is a null. -/
structure PolicyPatch where
  name : Option (Option String)
  effect : Option (Option Effect)
  actions : Option (Option (List String))
  resources : Option (Option (List String))
  condition : Option (Option Condition)

namespace PolicyPatch

/-- What a change request is called in messages. -/
def requestName : String := "UpdatePolicyRequest"

def ofFields (fields : Fields) : Verdict PolicyPatch :=
  match
    Validation.optional "name" Validation.nonEmptyText fields,
    Validation.optional "effect" Validation.effect fields,
    Validation.optional "actions" Validation.nonEmptyTexts fields,
    Validation.optional "resources" Validation.nonEmptyTexts fields,
    Validation.optional "condition" Validation.condition fields with
  | .ok name, .ok effect, .ok actions, .ok resources, .ok condition =>
      .ok ⟨name, effect, actions, resources, condition.map Option.join⟩
  | name, effect, actions, resources, condition =>
      .error (name.issues ++ effect.issues ++ actions.issues ++
        resources.issues ++ condition.issues)

def ofValue : Value → Verdict PolicyPatch
  | .record fields => ofFields fields
  | other => Verdict.refuse (.notModel requestName) [] other

/-- One field of the dump, when the request holds it. -/
def dumpField {α : Type} (name : String) (write : α → Value) :
    Option (Option α) → Fields
  | none => []
  | some none => [(name, .null)]
  | some (some value) => [(name, write value)]

/-- The fields that the request holds, with their values. -/
def dump (patch : PolicyPatch) : Fields :=
  dumpField "name" .text patch.name ++
    dumpField "effect" (fun effect => .text effect.name) patch.effect ++
    dumpField "actions" .texts patch.actions ++
    dumpField "resources" .texts patch.resources ++
    dumpField "condition" (fun entries => (Value.record entries).finite)
      patch.condition

end PolicyPatch

end AccessControl
