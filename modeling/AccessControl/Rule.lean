import AccessControl.Action
import AccessControl.Identity
import AccessControl.Log
import AccessControl.Policy

/-!
# Rules

A policy becomes one rule for each of its actions, in the order of the policies
and, inside a policy, of its actions.  An action whose token cannot be read, or
whose policy names a resource that is no identity, gives no rule and is
reported instead; the other actions are not affected.  A rule keeps the name
and the condition of its policy as they are, and only using it shows whether
they are of any use.
-/

namespace AccessControl

/-- One action of one policy, ready to be matched. -/
structure Rule where
  effect : Effect
  subjectType : String
  verb : String
  /-- The identities that a resource may have; all are allowed when missing. -/
  resourceIds : Option IdSet
  condition : Value
  policyName : Value

namespace Rule

def unconstrained (rule : Rule) : Bool :=
  rule.resourceIds.isNone

end Rule

namespace ResourceConstraint

/-- Reads every resource as an identity, up to the first that is none. -/
def identities : List Value → Except Value (List ObjectId)
  | [] => .ok []
  | resource :: rest =>
      match resource.identity? with
      | some id => (identities rest).map (id :: ·)
      | none => .error resource

/-- The identities that the resources admit: all of them when the wildcard is
listed anywhere, otherwise the set of those listed. -/
def ofValues (resources : List Value) : Except Value (Option IdSet) :=
  if resources.any (Value.same (.text wildcard)) then .ok none
  else (identities resources).map fun ids => some (IdSet.ofList ids)

/-- What is said about a resource that is no identity. -/
def message (resource : Value) : String :=
  "invalid resource identifier " ++ String.ofList resource.shown

end ResourceConstraint

namespace Policy

/-- Why an action gives no rule. -/
inductive CompileFault where
  | action (fault : Action.Fault)
  | resource (token : Value) (entry : Value)

/-- The target of an action. -/
def targetOf (action : Value) : Except CompileFault Target :=
  (Action.ofValue action).mapError CompileFault.action

/-- The identities that an action is about. -/
def identitiesOf (action : Value) (resources : List Value) :
    Except CompileFault (Option IdSet) :=
  (ResourceConstraint.ofValues resources).mapError
    (CompileFault.resource action)

def rule (policy : Policy) (action : String) : Except CompileFault Rule := do
  let target ← targetOf (.text action)
  let ids ← identitiesOf (.text action) (policy.resources.map .text)
  .ok ⟨policy.effect, target.subjectType, target.verb, ids,
    Condition.toValue policy.condition, .text policy.name⟩

/-- The report on an action of the named policy that gives no rule. -/
def CompileFault.report (policy : Value) (fault : CompileFault) : LogRecord :=
  let start := s!"Error creating policy '{policy.plain}'"
  match fault with
  | .action fault => ⟨.error, .compiler, start ++ s!": {fault.message}"⟩
  | .resource token entry =>
      ⟨.error, .compiler,
        start ++ s!" for action '{token.plain}': " ++
          ResourceConstraint.message entry⟩

/-- What one action of a policy gives: a rule or a report. -/
def outcome (policy : Policy) (action : String) : Except LogRecord Rule :=
  (policy.rule action).mapError (CompileFault.report (.text policy.name))

/-- What each action of a policy gives, in order. -/
def outcomes (policy : Policy) : List (Except LogRecord Rule) :=
  policy.actions.map policy.outcome

/-- What all actions of all policies give, in order. -/
def compile (policies : List Policy) : List (Except LogRecord Rule) :=
  policies.flatMap outcomes

end Policy

def rulesOf (outcomes : List (Except LogRecord Rule)) : List Rule :=
  outcomes.filterMap Except.toOption

def reportsOf (outcomes : List (Except LogRecord Rule)) : List LogRecord :=
  outcomes.filterMap fun outcome =>
    match outcome with
    | .ok _ => none
    | .error report => some report

namespace Policy

theorem compile_append (first second : List Policy) :
    compile (first ++ second) = compile first ++ compile second := by
  simp [compile]

theorem length_compile (policies : List Policy) :
    (compile policies).length =
      (policies.flatMap fun policy => policy.actions).length := by
  induction policies with
  | nil => rfl
  | cons policy rest inductionHypothesis =>
      have step : compile (policy :: rest) = policy.outcomes ++ compile rest :=
        rfl
      rw [step, List.length_append, inductionHypothesis]
      simp [outcomes]

end Policy

end AccessControl
