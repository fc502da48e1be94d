import AccessControl.Ability
import AccessControl.Registry.Effective

/-!
# Access

Every use of the service passes a checkpoint before it does anything: it goes on
only when the principal's ability allows the query.

Whoever makes a request is known by a principal and a unit name.  From them
come the tenant whose documents the request is about, and the ability that
decides what it may do.
-/

namespace AccessControl

/-- What is known of the principal. -/
inductive Standing where
  | nobody
  | ability (ability : Ability)
  | policies (policies : List Policy)

namespace Program

def ofEvaluation {α : Type} (result : Except EvaluationFault α) : Program α :=
  ofExcept (result.mapError Failure.evaluation)

end Program

namespace Ability

/-- Compiles policies and reports the actions that give no rule. -/
def compiled (policies : List Policy) : Program Ability := do
  Program.logAll (reportsOf (Policy.compile policies))
  pure (ofPolicies policies)

end Ability

namespace Standing

def resolve : Standing → Program Ability
  | nobody => Program.refuse Refusal.authenticationRequired
  | ability known => pure known
  | policies given => Ability.compiled given

end Standing

/-- Ends with a refusal unless the query is allowed. -/
def Ability.demand (ability : Ability) (query : Query) : Program Unit := do
  if ← Program.ofEvaluation (ability.can query) then pure ()
  else
    Program.log
      ⟨.warning, .checkpoint, s!"Denied {query.verb} on {query.subjectType}"⟩
    Program.refuse (.forbidden (.text query.verb) (.text query.subjectType))

/-- The principal's ability, when it allows the query. -/
def authorize (query : Query) (standing : Standing) : Program Ability := do
  let ability ← standing.resolve
  ability.demand query
  pure ability

/-- The principal and the unit of a request; null when they are not known. -/
structure Claimant where
  principal : Value
  unit : Value

namespace Claimant

def nobody : Claimant := ⟨.null, .null⟩

def tenant (claimant : Claimant) : Program Tenant :=
  if claimant.unit.isTruthy then
    Program.ofExcept (Tenant.ofValue claimant.unit)
  else Program.refuse (.unauthenticated (.text "No unit on request"))

/-- The ability that the stored policies give the principal now. -/
def ability (claimant : Claimant) : Program Ability := do
  if claimant.principal.isTruthy then
    let tenant ← claimant.tenant
    let policies ← Registry.effective tenant claimant.principal
    Ability.compiled policies
  else Program.refuse Refusal.authenticationRequired

end Claimant

end AccessControl
