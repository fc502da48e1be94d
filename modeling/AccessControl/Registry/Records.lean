import AccessControl.Registry.Effective
import AccessControl.Serialized

/-!
# Policy records

Creating, reading, changing and deleting the policies of a tenant.  No two
policies of a tenant have the same name.  A change is merged with what is
stored, and the whole must be a valid policy again; only the fields of a policy
and the time of the change are written.

Policies are put on the list of a principal and taken off.  A policy that is
attached comes to the end of the list, where it overrides the others; one that is
on the list already keeps its place.
-/

namespace AccessControl

/-- What is given to an operation from outside: the time, when the clock shows one,
and the identifier that the next new document gets. -/
structure Stamp where
  now : Except Clock.Fault Timestamp
  fresh : ObjectId

namespace Registry

/-- The identifier that a value names, or a refusal that says what it should have
been the identifier of. -/
def requireId (subject : String) (value : Value) : Program ObjectId :=
  match value.recordId? with
  | some id => pure id
  | none => Program.refuse (.badRequest (.text s!"Invalid {subject} ID"))

def policyNotFound : Refusal := .notFound (.text "Policy not found")

def principalNotFound : Refusal := .notFound (.text "Principal not found")

def policyExists : Refusal :=
  .duplicate (.text "Policy with this name already exists")

def validated (verdict : Verdict Policy) : Program Policy :=
  Program.ofExcept (verdict.mapError (Failure.invalid Policy.modelName))

def timed (now : Except Clock.Fault Timestamp) : Program Timestamp :=
  Program.ofExcept (now.mapError Failure.clock)

def announce (text : String) : Program Unit :=
  Program.log ⟨.info, .service, text⟩

/-- A stored document as it is answered. -/
def answered (document : Fields) : Value :=
  (Value.record document).serialized

/-- The document that is stored for a new policy. -/
def newDocument (policy : Policy) (createdBy : Value) (fresh : ObjectId)
    (now : Timestamp) : Fields :=
  ("_id", .id fresh) :: policy.dump ++
    [("created_by", createdBy),
     ("created_at", .date now),
     ("updated_at", .date now)]

def create (tenant : Tenant) (stamp : Stamp) (data createdBy : Value) :
    Program Value := do
  let policy ← validated (Policy.ofValue Policy.modelName data)
  let namesake ← Program.query tenant.policies
    (.findOne [("name", .equals (.text policy.name))])
  match namesake with
  | some _ => Program.refuse policyExists
  | none =>
      let now ← timed stamp.now
      let document := newDocument policy createdBy stamp.fresh now
      Program.query tenant.policies (.insert document)
      announce s!"Policy '{policy.name}' created in unit '{tenant.unit}'"
      pure (answered document)

/-- The stored document of a policy. -/
def stored (tenant : Tenant) (id : ObjectId) : Program Fields := do
  let found ← Program.query tenant.policies (.findOne (Filter.byId id))
  match found with
  | some document => pure document
  | none => Program.refuse policyNotFound

def get (tenant : Tenant) (policy : Value) : Program Value := do
  let id ← requireId "policy" policy
  let document ← stored tenant id
  pure (answered document)

/-- All policies of the tenant, the oldest first. -/
def list (tenant : Tenant) : Program (List Value) := do
  let found ← Program.query tenant.policies (.findSorted "created_at")
  match found with
  | .ok documents => pure (documents.map answered)
  | .error fault => Program.fail (.unordered fault)

def requiredFields : List String := ["name", "effect", "actions", "resources"]

/-- The changes that count: null leaves a required field as it is. -/
def effectiveChanges (changes : Fields) : Fields :=
  changes.filter fun change =>
    !(change.2.isNull && requiredFields.contains change.1)

/-- The fields that are written when a policy is changed. -/
def writtenFields (policy : Policy) (now : Timestamp) : Fields :=
  policy.dump ++ [("updated_at", .date now)]

def hasNamesake (tenant : Tenant) (id : ObjectId) (name : String) :
    Program Bool := do
  let found ← Program.query tenant.policies
    (.findOne [("name", .equals (.text name)), ("_id", .differs (.id id))])
  pure found.isSome

/-- Changes the fields of a stored policy. -/
def update (tenant : Tenant) (now : Except Clock.Fault Timestamp)
    (policy changes : Value) : Program Value := do
  let id ← requireId "policy" policy
  let current ← stored tenant id
  match changes with
  | .record given =>
      let merged ← validated
        (Policy.ofFields (Fields.merge current (effectiveChanges given)))
      let renamed := !(Value.text merged.name).same (fieldOf current "name")
      let taken ←
        if renamed then hasNamesake tenant id merged.name else pure false
      if taken then Program.refuse policyExists
      else
        let written := writtenFields merged (← timed now)
        let found ← Program.query tenant.policies
          (.findOneAndSet (Filter.byId id) written)
        match found with
        | some document => pure (answered document)
        | none => Program.refuse policyNotFound
  | other => Program.fail (.notFields other)

/-- The only field of an answer that says what was done. -/
def done (text : String) : Value :=
  .record [("message", .text text)]

/-- Takes a policy out of the lists of all members of a collection. -/
def release (collection : String) (id : ObjectId) : Program Unit :=
  Program.query collection
    (.updateMany [("policies", .equals (.id id))] (.pull "policies" (.id id)))

/-- Deletes a policy and takes it from every principal and group. -/
def delete (tenant : Tenant) (policy : Value) : Program Value := do
  let id ← requireId "policy" policy
  let deleted : Bool ← Program.query tenant.policies (.deleteOne (Filter.byId id))
  if deleted then
    release tenant.principals id
    release tenant.groups id
    announce s!"Policy {policy.plain} deleted from unit '{tenant.unit}'"
    pure (done "Policy deleted successfully")
  else Program.refuse policyNotFound

/-- Changes the policy list of a principal. -/
def changeList (tenant : Tenant) (principal : ObjectId) (edit : ArrayEdit)
    (text : String) : Program Value := do
  let found : Bool ← Program.query tenant.principals
    (.updateOne (Filter.byId principal) edit)
  if found then pure (done text) else Program.refuse principalNotFound

def attach (tenant : Tenant) (principal policy : Value) : Program Value := do
  let principalId ← requireId "principal" principal
  let policyId ← requireId "policy" policy
  let _ ← stored tenant policyId
  changeList tenant principalId (.addToSet "policies" (.id policyId))
    "Policy attached"

def detach (tenant : Tenant) (principal policy : Value) : Program Value := do
  let principalId ← requireId "principal" principal
  let policyId ← requireId "policy" policy
  changeList tenant principalId (.pull "policies" (.id policyId))
    "Policy detached"

end Registry

end AccessControl
