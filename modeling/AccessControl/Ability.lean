import AccessControl.Rule

/-!
# Abilities

An ability is the ordered list of rules that answers queries.  The last rule
that matches a query decides it, so a later policy overrides an earlier one;
where no rule matches, the answer is no.
-/

namespace AccessControl

namespace Value

/-- The fields that may hold the identity of a resource, in order of
precedence. -/
def identityFields : List String := ["_id", "id"]

/-- The first identity found in the given fields; a field whose value is no
identity is passed over. -/
def identityIn (resource : Value) :
    List String → Except EvaluationFault (Option ObjectId)
  | [] => .ok none
  | name :: rest => do
      match (← resource.field name).bind identity? with
      | some identity => .ok (some identity)
      | none => identityIn resource rest

/-- The identity of a resource, when it has one. -/
def resourceIdentity (resource : Value) :
    Except EvaluationFault (Option ObjectId) :=
  if resource.isTruthy then resource.identityIn identityFields else .ok none

end Value

/-- May this be done to a subject of this type, given the fields of the resource?
A null resource stands for none. -/
structure Query where
  verb : String
  subjectType : String
  resource : Value

namespace Rule

/-- Whether the rule is about the queried verb and subject type. -/
def covers (rule : Rule) (query : Query) : Bool :=
  (rule.subjectType == allSubjects || rule.subjectType == query.subjectType) &&
    (rule.verb == manage || rule.verb == query.verb)

/-- Whether a resource with this identity is among those the rule is about. -/
def admits (rule : Rule) (identity : Option ObjectId) : Bool :=
  match rule.resourceIds, identity with
  | none, _ => true
  | some ids, some id => ids.contains id
  | some _, none => false

/-- Whether the rule applies to a query about a resource with this identity. -/
def applies (rule : Rule) (query : Query) (identity : Option ObjectId) :
    Except EvaluationFault Bool :=
  if rule.covers query && rule.admits identity then
    Condition.holds rule.condition query.resource
  else .ok false

end Rule

/-- The rules of one principal, in the order in which they were given. -/
structure Ability where
  rules : List Rule

namespace Ability

def ofPolicies (policies : List Policy) : Ability :=
  ⟨rulesOf (Policy.compile policies)⟩

/-- The first rule of the list that applies. -/
def firstApplying (query : Query) (identity : Option ObjectId) :
    List (Rule × Nat) → Except EvaluationFault (Option (Rule × Nat))
  | [] => .ok none
  | candidate :: rest => do
      if ← candidate.1.applies query identity then .ok (some candidate)
      else firstApplying query identity rest

/-- The rule that decides a query and its position: the last one that applies. -/
def relevant? (ability : Ability) (query : Query) :
    Except EvaluationFault (Option (Rule × Nat)) := do
  let identity ← query.resource.resourceIdentity
  firstApplying query identity ability.rules.zipIdx.reverse

def can (ability : Ability) (query : Query) : Except EvaluationFault Bool := do
  match ← ability.relevant? query with
  | some (rule, _) => .ok (rule.effect == .allow)
  | none => .ok false

def cannot (ability : Ability) (query : Query) : Except EvaluationFault Bool :=
  (ability.can query).map (!·)

/-- The items whose resource the query allows, in order. -/
def filter {α : Type} (ability : Ability) (verb subjectType : String)
    (resource : α → Value) : List α → Except EvaluationFault (List α)
  | [] => .ok []
  | item :: rest => do
      let allowed ← ability.can ⟨verb, subjectType, resource item⟩
      let others ← ability.filter verb subjectType resource rest
      .ok (if allowed then item :: others else others)

def summary (ability : Ability) : String :=
  s!"Ability(rules={ability.rules.length})"

end Ability

end AccessControl
