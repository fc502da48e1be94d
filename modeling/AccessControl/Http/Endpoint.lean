import AccessControl.Access
import AccessControl.Http.Body
import AccessControl.Http.Route
import AccessControl.Registry.Records

/-!
# Endpoints

What each endpoint does.  Every endpoint for policies first compiles the
caller's ability, then checks the body, and then asks the ability for its own
verb before it changes or shows anything.  Where a stored policy is concerned,
the decision is made on the stored record.
-/

namespace AccessControl.Http

/-- The subject type of everything that is done to policies. -/
def policySubject : String := "Policy"

/-- The subject type of everything that is done to the list of a principal. -/
def principalSubject : String := "Principal"

structure Call where
  tenant : Tenant
  ability : Ability
  caller : Value
  stamp : Stamp
  body : Body

namespace Call

/-- Continues only when the caller may do this to the resource. -/
def demand (call : Call) (verb subjectType : String) (resource : Value) :
    Program Unit :=
  call.ability.demand ⟨verb, subjectType, resource⟩

/-- An answer in an envelope. -/
def succeed (data : Value) (message : Value) (status : Nat) :
    Program Response :=
  Program.ofExcept (Response.enveloped status (Envelope.success data message))

def withBody {α : Type} (call : Call) (ofFields : Fields → Verdict α)
    (rest : α → Program Response) : Program Response :=
  match call.body.check ofFields with
  | .ok read => rest read
  | .error issues => Program.ofExcept (Response.ofIssues issues)

def createPolicy (call : Call) : Program Response :=
  call.withBody Policy.ofFields fun policy => do
    let data := Value.record policy.dump
    call.demand "CreatePolicy" policySubject data
    let created ← Registry.create call.tenant call.stamp data call.caller
    succeed created (.text "Policy created") 201

/-- The policies that the caller may see, and their number. -/
def listing (visible : List Value) : Value :=
  .record
    [("policies", .list visible), ("total", .integer visible.length)]

def listPolicies (call : Call) : Program Response := do
  call.demand "ListPolicies" policySubject .null
  let policies ← Registry.list call.tenant
  let visible ← Program.ofEvaluation
    (call.ability.filter "ListPolicies" policySubject (fun policy => policy)
      policies)
  succeed (listing visible) Envelope.successMessage 200

def getPolicy (call : Call) (policy : String) : Program Response := do
  let found ← Registry.get call.tenant (.text policy)
  call.demand "GetPolicy" policySubject found
  succeed found Envelope.successMessage 200

def updatePolicy (call : Call) (policy : String) : Program Response :=
  call.withBody PolicyPatch.ofFields fun patch => do
    let found ← Registry.get call.tenant (.text policy)
    call.demand "UpdatePolicy" policySubject found
    let updated ← Registry.update call.tenant call.stamp.now (.text policy)
      (.record patch.dump)
    succeed updated (.text "Policy updated") 200

def deletePolicy (call : Call) (policy : String) : Program Response := do
  let found ← Registry.get call.tenant (.text policy)
  call.demand "RemovePolicy" policySubject found
  let deleted ← Registry.delete call.tenant (.text policy)
  succeed deleted (.text "Policy deleted") 200

/-- A principal as the resource of a decision: its identifier as it was given. -/
def principalResource (principal : String) : Value :=
  .record [("_id", .text principal)]

def attachPolicy (call : Call) (principal policy : String) :
    Program Response := do
  call.demand "AttachPolicy" principalSubject (principalResource principal)
  let attached ←
    Registry.attach call.tenant (.text principal) (.text policy)
  succeed attached (.text "Policy attached") 200

def detachPolicy (call : Call) (principal policy : String) :
    Program Response := do
  call.demand "DetachPolicy" principalSubject (principalResource principal)
  let detached ←
    Registry.detach call.tenant (.text principal) (.text policy)
  succeed detached (.text "Policy detached") 200

end Call

namespace Endpoint

/-- What the endpoint does; the service's own state is no matter of a tenant. -/
def act (endpoint : Endpoint) (call : Call) : Program Response :=
  match endpoint with
  | createPolicy => call.createPolicy
  | listPolicies => call.listPolicies
  | getPolicy policy => call.getPolicy policy
  | updatePolicy policy => call.updatePolicy policy
  | deletePolicy policy => call.deletePolicy policy
  | attachPolicy principal policy => call.attachPolicy principal policy
  | detachPolicy principal policy => call.detachPolicy principal policy
  | health => Program.refuse (.notFound (.text "Not Found"))

/-- Resolves who calls, and does what the endpoint does. -/
def serve (endpoint : Endpoint) (claimant : Claimant) (stamp : Stamp)
    (body : Body) : Program Response := do
  let ability ← claimant.ability
  let tenant ← claimant.tenant
  endpoint.act ⟨tenant, ability, claimant.principal, stamp, body⟩

end Endpoint

end AccessControl.Http
