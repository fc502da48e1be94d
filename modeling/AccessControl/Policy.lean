import AccessControl.Issue

/-!
# Policies

A policy allows or denies actions on resources, under an optional condition.
Its dump is the record that is stored and answered: numbers without a finite
value become null there.
-/

namespace AccessControl

inductive Effect where
  | allow
  | deny
deriving DecidableEq, Repr

namespace Effect

def name : Effect → String
  | allow => "Allow"
  | deny => "Deny"

def ofName? (name : String) : Option Effect :=
  if name = "Allow" then some allow
  else if name = "Deny" then some deny
  else none

theorem ofName?_eq_some_iff {name : String} {effect : Effect} :
    ofName? name = some effect ↔ effect.name = name := by
  unfold ofName?
  split
  · rename_i equal
    subst equal
    cases effect <;> simp [Effect.name]
  · split
    · rename_i equal
      subst equal
      cases effect <;> simp [Effect.name]
    · rename_i notAllow notDeny
      cases effect <;> simp [Effect.name, Ne.symm, notAllow, notDeny, eq_comm]

end Effect

structure Policy where
  name : String
  effect : Effect
  actions : List String
  resources : List String
  condition : Option Condition
deriving DecidableEq

namespace Value

mutual

/-- The value with null for every number that has no finite value. -/
def finite : Value → Value
  | number n => if n.isFinite then number n else null
  | list items => list (finiteItems items)
  | record fields => record (finiteFields fields)
  | other => other

def finiteItems : List Value → List Value
  | [] => []
  | item :: rest => finite item :: finiteItems rest

def finiteFields : Fields → Fields
  | [] => []
  | (name, value) :: rest => (name, finite value) :: finiteFields rest

end

end Value

namespace Policy

/-- The record that is stored and answered for a policy. -/
def dump (policy : Policy) : Fields :=
  [("name", .text policy.name),
   ("effect", .text policy.effect.name),
   ("actions", .texts policy.actions),
   ("resources", .texts policy.resources),
   ("condition", (Condition.toValue policy.condition).finite)]

end Policy

end AccessControl
