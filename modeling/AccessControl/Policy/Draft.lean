import AccessControl.Failure
import AccessControl.Rule

/-!
# Drafts of policies

A draft is a policy whose fields are changed one by one without a check.  It
compiles like a policy as far as its fields allow: actions and resources are
whatever can be gone through one by one, and a field that cannot ends the
compilation.  A draft that was not changed gives what its policy gives.
-/

namespace AccessControl

structure Draft where
  name : Value
  effect : Effect
  actions : Value
  resources : Value
  condition : Value

namespace Draft

/-- The draft of a policy that was not changed yet. -/
def ofPolicy (policy : Policy) : Draft :=
  ⟨.text policy.name, policy.effect, .texts policy.actions,
    .texts policy.resources, Condition.toValue policy.condition⟩

/-- Why a draft is not changed. -/
inductive EditFault where
  | unknownField (name : String)
  | notEffect (value : Value)
  | unknownOperator (name : String)
  /-- Nothing can be added at the end of what is not a list. -/
  | notList
  /-- The condition holds no operators. -/
  | conditionNotRecord
  /-- The operator holds no expectations. -/
  | expectationsNotRecord

def field? (draft : Draft) (name : String) : Option Value :=
  if name = "name" then some draft.name
  else if name = "effect" then some (.text draft.effect.name)
  else if name = "actions" then some draft.actions
  else if name = "resources" then some draft.resources
  else if name = "condition" then some draft.condition
  else none

/-- Gives a field a value; only an effect has to be one. -/
def set (draft : Draft) (name : String) (value : Value) :
    Except EditFault Draft :=
  if name = "name" then .ok { draft with name := value }
  else if name = "effect" then
    match value with
    | .text word =>
        match Effect.ofName? word with
        | some effect => .ok { draft with effect := effect }
        | none => .error (.notEffect value)
    | other => .error (.notEffect other)
  else if name = "actions" then .ok { draft with actions := value }
  else if name = "resources" then .ok { draft with resources := value }
  else if name = "condition" then .ok { draft with condition := value }
  else .error (.unknownField name)

/-- Adds an item at the end of a field that is a list. -/
def append (draft : Draft) (name : String) (item : Value) :
    Except EditFault Draft :=
  match draft.field? name with
  | some (.list items) => draft.set name (.list (items ++ [item]))
  | _ => .error .notList

/-- Expects a value of a field under an operator, which is added when the condition
does not have it. -/
def expect (draft : Draft) (operator field : String) (value : Value) :
    Except EditFault Draft :=
  match draft.condition with
  | .record entries =>
      match Operator.ofName? operator with
      | none => .error (.unknownOperator operator)
      | some _ =>
          match (Fields.get? entries operator).getD (.record []) with
          | .record expectations =>
              let changed := Value.record (Fields.set expectations field value)
              .ok
                { draft with
                  condition := .record (Fields.set entries operator changed) }
          | _ => .error .expectationsNotRecord
  | _ => .error .conditionNotRecord

/-- What can be gone through one by one in a field. -/
def itemsOf (value : Value) : Except Failure (List Value) :=
  match value.members? with
  | some items => .ok items
  | none => .error (.notIterable value)

/-- The rule of an action with this target, or the report on it. -/
def ruleFor (draft : Draft) (action : Value) (target : Target) :
    Except Failure (Except LogRecord Rule) := do
  let resources ← itemsOf draft.resources
  let rule := (Policy.identitiesOf action resources).map fun ids =>
    (⟨draft.effect, target.subjectType, target.verb, ids, draft.condition,
      draft.name⟩ : Rule)
  .ok (rule.mapError (Policy.CompileFault.report draft.name))

/-- What one action of a draft gives: a rule or a report.  The resources are looked
at only when the action can be read. -/
def outcome (draft : Draft) (action : Value) :
    Except Failure (Except LogRecord Rule) :=
  match Policy.targetOf action with
  | .error fault => .ok (.error (fault.report draft.name))
  | .ok target => draft.ruleFor action target

/-- What each action of a draft gives, in order. -/
def outcomes (draft : Draft) : Except Failure (List (Except LogRecord Rule)) := do
  (← itemsOf draft.actions).mapM draft.outcome

/-- What all actions of all drafts give, in order. -/
def compile (drafts : List Draft) :
    Except Failure (List (Except LogRecord Rule)) :=
  (drafts.mapM outcomes).map List.flatten

theorem outcome_ofPolicy (policy : Policy) (action : String) :
    (ofPolicy policy).outcome (.text action) = .ok (policy.outcome action) := by
  have resources :
      itemsOf (ofPolicy policy).resources =
        .ok (policy.resources.map .text) := rfl
  unfold outcome Policy.outcome Policy.rule
  cases Policy.targetOf (.text action) with
  | error fault => rfl
  | ok target =>
      simp only [ruleFor, resources, bind, Except.bind]
      cases Policy.identitiesOf (.text action)
          (policy.resources.map .text) <;> rfl

theorem mapM_outcome_ofPolicy (policy : Policy) (actions : List String) :
    (actions.map Value.text).mapM (ofPolicy policy).outcome =
      .ok (actions.map policy.outcome) := by
  induction actions with
  | nil => rfl
  | cons action rest inductionHypothesis =>
      simp only [List.map_cons, List.mapM_cons, outcome_ofPolicy,
        inductionHypothesis]
      rfl

theorem outcomes_ofPolicy (policy : Policy) :
    (ofPolicy policy).outcomes = .ok policy.outcomes := by
  unfold outcomes
  exact mapM_outcome_ofPolicy policy policy.actions

/-- A draft that was not changed gives what its policy gives. -/
theorem compile_ofPolicy (policies : List Policy) :
    compile (policies.map ofPolicy) = .ok (Policy.compile policies) := by
  have each :
      (policies.map ofPolicy).mapM outcomes =
        .ok (policies.map Policy.outcomes) := by
    induction policies with
    | nil => rfl
    | cons policy rest inductionHypothesis =>
        simp only [List.map_cons, List.mapM_cons, outcomes_ofPolicy,
          inductionHypothesis]
        rfl
  simp [compile, each, Policy.compile, Except.map, List.flatMap_def]

/-- A point in time as it is dumped: universal time is marked by a letter. -/
def dumpedDate (date : Timestamp) : String :=
  String.ofList
    (if date.offset = some 0 then
      Timestamp.text ⟨date.reading, none⟩ ++ ['Z']
    else date.text)

mutual

/-- A value as it is dumped; an identifier cannot be. -/
def dumped? : Value → Option Value
  | .number n => some (if n.isFinite then .number n else .null)
  | .date date => some (.text (dumpedDate date))
  | .id _ => none
  | .list items => (dumpedItems? items).map .list
  | .record fields => (dumpedFields? fields).map .record
  | other => some other

def dumpedItems? : List Value → Option (List Value)
  | [] => some []
  | item :: rest => do
      let first ← dumped? item
      let others ← dumpedItems? rest
      some (first :: others)

def dumpedFields? : Fields → Option Fields
  | [] => some []
  | (name, value) :: rest => do
      let first ← dumped? value
      let others ← dumpedFields? rest
      some ((name, first) :: others)

end

/-- The record of a draft, when all of it can be dumped. -/
def dump? (draft : Draft) : Option Fields :=
  dumpedFields?
    [("name", draft.name),
     ("effect", .text draft.effect.name),
     ("actions", draft.actions),
     ("resources", draft.resources),
     ("condition", draft.condition)]

end Draft

end AccessControl
