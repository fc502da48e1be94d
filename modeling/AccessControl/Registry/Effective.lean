import AccessControl.Policy.Validation
import AccessControl.Store.Program
import AccessControl.Text.Basic
import AccessControl.Tenant

/-!
# Effective policies

The policies that count for a principal are its own ones, in the order in which
they were attached, followed by those of each of its groups, in the order of
the groups.  A policy that is named several times counts at each place.  Names
of no policy, and stored documents that are no valid policy, are left out.
-/

namespace AccessControl

namespace Value

/-- The identifier by which a record is asked for: an identifier, or 24
hexadecimal digits. -/
def recordId? : Value → Option ObjectId
  | id value => some value
  | text value => ObjectId.ofHex? value
  | _ => none

/-- The items of a field that holds a list; null and everything that counts as
nothing hold none. -/
def entries (value : Value) : Except Failure (List Value) :=
  if value.isTruthy then
    match value.members? with
    | some items => .ok items
    | none => .error (.notIterable value)
  else .ok []

/-- The items of a list, each at its first place only. -/
def distinct (items : List Value) : List Value :=
  items.foldl
    (fun kept item => if kept.any item.same then kept else kept ++ [item]) []

end Value

namespace Registry

/-- The field of a document; a missing one counts as null. -/
def fieldOf (document : Fields) (name : String) : Value :=
  (Fields.get? document name).getD .null

def documentOf (found : List Fields) (id : Value) : Option Fields :=
  found.reverse.find? fun document => id.same (fieldOf document "_id")

/-- The documents of a collection with one of these identifiers. -/
def fetch (collection : String) (ids : List Value) : Program (List Fields) :=
  Program.query collection (.find [("_id", .oneOf ids)])

/-- The policy identifiers of the groups, in the order of the groups. -/
def gather (unit : String) (found : List Fields) :
    List Value → Program (List Value)
  | [] => pure []
  | group :: rest => do
      if !group.isKey then Program.fail (.notKey group)
      match documentOf found group with
      | none =>
          Program.log ⟨.warning, .service,
            s!"Principal references unknown group {group.plain} in unit '{unit}'"⟩
          gather unit found rest
      | some document =>
          let ids ← Program.ofExcept (fieldOf document "policies").entries
          let others ← gather unit found rest
          pure (ids ++ others)

/-- Whether the identifier of a document is in a value that is no list: among the
names of a record, or a part of a text. -/
def isNamedIn (container : Value) (document : Fields) : Except Failure Bool :=
  match container, fieldOf document "_id" with
  | .text text, .text id => .ok (Text.occursIn id.toList text.toList)
  | .text _, id => .error (.notPart id)
  | .record fields, id =>
      if id.isKey then .ok (fields.any fun field => id.same (.text field.1))
      else .error (.notKey id)
  | other, _ => .error (.noContainer other)

/-- The documents of the groups that a principal names. -/
def groupsIn (tenant : Tenant) (groups : Value) : Program (List Fields) :=
  match groups with
  | .list ids => fetch tenant.groups ids
  | other => do
      let documents : List Fields ← Program.query tenant.groups (.find [])
      Program.ofExcept (documents.filterM (isNamedIn other))

/-- The policy identifiers of the groups that a principal names. -/
def groupPolicyIds (tenant : Tenant) (groups : Value) :
    Program (List Value) := do
  if groups.isTruthy then
    let found ← groupsIn tenant groups
    let names ← Program.ofExcept groups.entries
    gather tenant.unit found names
  else pure []

/-- The policies with these identifiers, in order; an invalid document is reported
and left out. -/
def valid (found : List Fields) : List Value → Program (List Policy)
  | [] => pure []
  | id :: rest =>
      match documentOf found id with
      | none => valid found rest
      | some document =>
          match Policy.ofFields document with
          | .ok policy => do
              let others ← valid found rest
              pure (policy :: others)
          | .error issues => do
              Program.log ⟨.error, .service,
                s!"Skipping stored policy {id.plain}: " ++
                  Issue.report Policy.modelName issues⟩
              valid found rest

/-- The policies with these identifiers, read from the store. -/
def policiesOf (tenant : Tenant) (ids : List Value) :
    Program (List Policy) := do
  match ids.find? (!·.isKey) with
  | some id => Program.fail (.notKey id)
  | none =>
      if ids.isEmpty then pure []
      else
        let found ← fetch tenant.policies (Value.distinct ids)
        valid found ids

/-- The policies that count for a principal. -/
def effective (tenant : Tenant) (principal : Value) :
    Program (List Policy) := do
  match principal.recordId? with
  | none =>
      Program.log ⟨.warning, .service,
        s!"Invalid principal id '{principal.plain}' in unit '{tenant.unit}'"⟩
      pure []
  | some id =>
      let found ← Program.query tenant.principals (.findOne (Filter.byId id))
      match found with
      | none => pure []
      | some document =>
          let own ← Program.ofExcept (fieldOf document "policies").entries
          let inherited ← groupPolicyIds tenant (fieldOf document "groups")
          policiesOf tenant (own ++ inherited)

end Registry

end AccessControl
