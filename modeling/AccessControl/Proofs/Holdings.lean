import AccessControl.Proofs.Program
import AccessControl.Proofs.Stored

/-!
# The documents of a tenant

Of a store, a tenant sees the documents of its three collections.  The names of
the collections differ, so that writing to one of them leaves the other two
alone.
-/

namespace AccessControl

namespace Tenant

theorem collection_injective
    (tenant : Tenant) {first second : String}
    (equal : tenant.collection first = tenant.collection second) :
    first = second := by
  have spelled := congrArg String.toList equal
  simp only [collection, toString, String.toList_append,
    List.append_cancel_left_eq] at spelled
  exact String.toList_injective spelled

theorem policies_ne_principals (tenant : Tenant) :
    tenant.policies ≠ tenant.principals := by
  intro equal
  exact absurd (tenant.collection_injective equal) (by decide)

theorem policies_ne_groups (tenant : Tenant) :
    tenant.policies ≠ tenant.groups := by
  intro equal
  exact absurd (tenant.collection_injective equal) (by decide)

theorem principals_ne_groups (tenant : Tenant) :
    tenant.principals ≠ tenant.groups := by
  intro equal
  exact absurd (tenant.collection_injective equal) (by decide)

/-- The name is that of one of the tenant's collections. -/
def Keeps (tenant : Tenant) (name : String) : Prop :=
  name = tenant.policies ∨ name = tenant.principals ∨ name = tenant.groups

theorem keeps_policies (tenant : Tenant) : tenant.Keeps tenant.policies :=
  Or.inl rfl

theorem keeps_principals (tenant : Tenant) : tenant.Keeps tenant.principals :=
  Or.inr (Or.inl rfl)

theorem keeps_groups (tenant : Tenant) : tenant.Keeps tenant.groups :=
  Or.inr (Or.inr rfl)

/-- The command reads one of the tenant's collections. -/
def Reads (tenant : Tenant) (command : Command) : Prop :=
  command.deed.Reads ∧ tenant.Keeps command.collection

end Tenant

/-- The documents of a tenant's collections. -/
structure Holdings where
  policies : List Fields
  principals : List Fields
  groups : List Fields

/-- The documents that a tenant has in a store. -/
def Tenant.holdings (tenant : Tenant) (store : Store) : Holdings :=
  ⟨store.documents tenant.policies, store.documents tenant.principals,
    store.documents tenant.groups⟩

namespace Tenant

variable (tenant : Tenant)

theorem holdings_of_same {first second : Store} (same : first.Same second) :
    tenant.holdings first = tenant.holdings second := by
  unfold holdings
  rw [same, same, same]

@[simp]
theorem holdings_write_policies (store : Store) (documents : List Fields) :
    tenant.holdings (store.write tenant.policies documents) =
      { tenant.holdings store with policies := documents } := by
  unfold holdings
  rw [Store.documents_write_self,
    Store.documents_write_of_ne _ tenant.policies_ne_principals.symm,
    Store.documents_write_of_ne _ tenant.policies_ne_groups.symm]

@[simp]
theorem holdings_write_principals (store : Store) (documents : List Fields) :
    tenant.holdings (store.write tenant.principals documents) =
      { tenant.holdings store with principals := documents } := by
  unfold holdings
  rw [Store.documents_write_self,
    Store.documents_write_of_ne _ tenant.policies_ne_principals,
    Store.documents_write_of_ne _ tenant.principals_ne_groups.symm]

@[simp]
theorem holdings_write_groups (store : Store) (documents : List Fields) :
    tenant.holdings (store.write tenant.groups documents) =
      { tenant.holdings store with groups := documents } := by
  unfold holdings
  rw [Store.documents_write_self,
    Store.documents_write_of_ne _ tenant.policies_ne_groups,
    Store.documents_write_of_ne _ tenant.principals_ne_groups]

/-- The stored policy with this identifier. -/
def stored? (store : Store) (id : ObjectId) : Option Fields :=
  (store.documents tenant.policies).find? (Filter.byId id).admits

theorem stored?_of_same
    {first second : Store} (same : first.Same second) (id : ObjectId) :
    tenant.stored? first id = tenant.stored? second id := by
  unfold stored?
  rw [same]

/-- The store with one more policy. -/
def inserting (store : Store) (document : Fields) : Store :=
  store.write tenant.policies
    (store.documents tenant.policies ++ [document])

/-- The store with these fields of a policy written over. -/
def overwriting (store : Store) (id : ObjectId) (changes : Fields) : Store :=
  store.write tenant.policies
    (Store.replaceFirst (Filter.byId id).admits (Fields.merge · changes)
      (store.documents tenant.policies))

/-- The documents of a collection after a policy was taken out of the lists of its
members. -/
def released (id : ObjectId) (documents : List Fields) : List Fields :=
  documents.map fun document =>
    if Filter.admits [("policies", .equals (.id id))] document then
      (ArrayEdit.pull "policies" (.id id)).apply document
    else document

/-- The store without a policy, which is also taken out of all lists. -/
def removing (store : Store) (id : ObjectId) : Store :=
  ((store.write tenant.policies
      (Store.dropFirst (Filter.byId id).admits
        (store.documents tenant.policies))).write tenant.principals
      (released id (store.documents tenant.principals))).write tenant.groups
    (released id (store.documents tenant.groups))

/-- The store with the policy list of a principal edited. -/
def relisting (store : Store) (principal : ObjectId) (edit : ArrayEdit) :
    Store :=
  store.write tenant.principals
    (Store.replaceFirst (Filter.byId principal).admits edit.apply
      (store.documents tenant.principals))

theorem holdings_inserting (store : Store) (document : Fields) :
    tenant.holdings (tenant.inserting store document) =
      { tenant.holdings store with
        policies := (tenant.holdings store).policies ++ [document] } :=
  tenant.holdings_write_policies store _

theorem holdings_overwriting
    (store : Store) (id : ObjectId) (changes : Fields) :
    tenant.holdings (tenant.overwriting store id changes) =
      { tenant.holdings store with
        policies :=
          Store.replaceFirst (Filter.byId id).admits (Fields.merge · changes)
            (tenant.holdings store).policies } :=
  tenant.holdings_write_policies store _

theorem holdings_removing (store : Store) (id : ObjectId) :
    tenant.holdings (tenant.removing store id) =
      { policies :=
          Store.dropFirst (Filter.byId id).admits
            (tenant.holdings store).policies
        principals := released id (tenant.holdings store).principals
        groups := released id (tenant.holdings store).groups } := by
  unfold removing
  rw [holdings_write_groups, holdings_write_principals,
    holdings_write_policies]
  rfl

theorem holdings_relisting
    (store : Store) (principal : ObjectId) (edit : ArrayEdit) :
    tenant.holdings (tenant.relisting store principal edit) =
      { tenant.holdings store with
        principals :=
          Store.replaceFirst (Filter.byId principal).admits edit.apply
            (tenant.holdings store).principals } :=
  tenant.holdings_write_principals store _

/-! ## What is found afterwards -/

theorem stored?_eq (store : Store) (id : ObjectId) :
    tenant.stored? store id =
      (tenant.holdings store).policies.find? (Filter.byId id).admits :=
  rfl

section Found

variable {tenant} {store : Store}

theorem stored?_inserting
    (keyed : Keyed (tenant.holdings store).policies)
    {document : Fields} {id : ObjectId}
    (identified : document.get? "_id" = some (.id id))
    (fresh :
      ∀ other ∈ (tenant.holdings store).policies, hasId id other = false)
    (other : ObjectId) :
    tenant.stored? (tenant.inserting store document) other =
      if id = other then some document else tenant.stored? store other := by
  rw [stored?_eq, holdings_inserting]
  exact keyed.find?_byId_append identified fresh other

theorem stored?_overwriting
    (keyed : Keyed (tenant.holdings store).policies)
    {changes : Fields} (unnamed : "_id" ∉ changes.names)
    (id other : ObjectId) :
    tenant.stored? (tenant.overwriting store id changes) other =
      if id = other then
        (tenant.stored? store other).map (Fields.merge · changes)
      else tenant.stored? store other := by
  rw [stored?_eq, holdings_overwriting]
  exact
    keyed.find?_byId_replaceFirst
      (fun _ => Fields.get?_merge_of_notMem unnamed) id other

theorem stored?_removing
    (keyed : Keyed (tenant.holdings store).policies) (id other : ObjectId) :
    tenant.stored? (tenant.removing store id) other =
      if id = other then none else tenant.stored? store other := by
  rw [stored?_eq, holdings_removing]
  exact keyed.find?_byId_dropFirst id other

theorem stored?_relisting
    (principal : ObjectId) (edit : ArrayEdit) (other : ObjectId) :
    tenant.stored? (tenant.relisting store principal edit) other =
      tenant.stored? store other := by
  rw [stored?_eq, holdings_relisting]
  rfl

end Found

end Tenant

end AccessControl
