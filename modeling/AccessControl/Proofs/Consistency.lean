import AccessControl.Proofs.Operation

/-!
# Consistent stores

A tenant's documents are consistent when no two policies have the same
identifier or the same name, and every identifier on the list of a principal or
a group is that of a stored policy.  No call spoils this, whether it succeeds or
fails: `consistent_after_every_call`.
-/

namespace AccessControl

namespace Holdings

/-- The documents that have lists of policies. -/
def members (holdings : Holdings) : List Fields :=
  holdings.principals ++ holdings.groups

/-- A policy with this identifier is stored. -/
def Stores (holdings : Holdings) (id : ObjectId) : Prop :=
  ∃ document ∈ holdings.policies, hasId id document = true

instance (holdings : Holdings) (id : ObjectId) :
    Decidable (holdings.Stores id) :=
  inferInstanceAs (Decidable (∃ document ∈ holdings.policies, _))

structure Consistent (holdings : Holdings) : Prop where
  keyed : AccessControl.Keyed holdings.policies
  named : Fields.Apart "name" holdings.policies
  lists : ∀ document ∈ holdings.members, document.Lists "policies"
  attached :
    ∀ document ∈ holdings.members,
      ∀ id ∈ document.listed "policies", holdings.Stores id

instance (holdings : Holdings) : Decidable holdings.Consistent :=
  decidable_of_iff
    (AccessControl.Keyed holdings.policies ∧
      Fields.Apart "name" holdings.policies ∧
        (∀ document ∈ holdings.members, document.Lists "policies") ∧
          ∀ document ∈ holdings.members,
            ∀ id ∈ document.listed "policies", holdings.Stores id)
    ⟨fun held => ⟨held.1, held.2.1, held.2.2.1, held.2.2.2⟩,
      fun consistent => ⟨consistent.keyed, consistent.named,
        consistent.lists, consistent.attached⟩⟩

namespace Consistent

variable {holdings : Holdings}

/-- The policies may change as long as all the listed ones stay. -/
theorem of_policies
    (consistent : holdings.Consistent) {policies : List Fields}
    (keyed : AccessControl.Keyed policies)
    (named : Fields.Apart "name" policies)
    (stay :
      ∀ id, holdings.Stores id →
        ({ holdings with policies := policies } : Holdings).Stores id) :
    ({ holdings with policies := policies } : Holdings).Consistent :=
  ⟨keyed, named, consistent.lists, fun document member id listed =>
    stay id (consistent.attached document member id listed)⟩

/-- A policy is added whose identifier and name nobody has. -/
theorem insert
    (consistent : holdings.Consistent)
    {document : Fields} {id : ObjectId} {name : String}
    (identified : document.get? "_id" = some (.id id))
    (freshId :
      ∀ other ∈ holdings.policies, other.get? "_id" ≠ some (.id id))
    (called : document.get? "name" = some (.text name))
    (freshName :
      ∀ other ∈ holdings.policies,
        other.get? "name" ≠ some (.text name)) :
    ({ holdings with
      policies := holdings.policies ++ [document] } : Holdings).Consistent := by
  refine consistent.of_policies (consistent.keyed.append identified freshId)
    ?_ ?_
  · exact consistent.named.append called (Value.sharp_text name) freshName
  · rintro other ⟨stored, member, has⟩
    exact ⟨stored, List.mem_append_left _ member, has⟩

/-- A policy is changed that keeps its identifier and gets a name of its own. -/
theorem replace
    (consistent : holdings.Consistent)
    {earlier later : List Fields} {current changed : Fields}
    (split : holdings.policies = earlier ++ current :: later)
    (identified : changed.get? "_id" = current.get? "_id")
    (named : Fields.Apart "name" (earlier ++ changed :: later)) :
    ({ holdings with
      policies := earlier ++ changed :: later } : Holdings).Consistent := by
  have keyed := consistent.keyed
  rw [split] at keyed
  refine consistent.of_policies (keyed.of_get?_eq identified) named ?_
  rintro id ⟨stored, member, has⟩
  rw [split] at member
  rcases List.mem_append.mp member with before | after
  · exact ⟨stored, List.mem_append_left _ before, has⟩
  · rcases List.mem_cons.mp after with rfl | rest
    · have same : changed.get? "_id" = some (.id id) := by
        rw [identified, hasId_iff.mp has]
      exact ⟨changed, by simp, hasId_iff.mpr same⟩
    · exact ⟨stored, by simp [rest], has⟩

/-- The lists may change as long as they hold identifiers of stored policies. -/
theorem of_members
    (consistent : holdings.Consistent) {principals groups : List Fields}
    (listed :
      ∀ document ∈ principals ++ groups,
        document.Lists "policies" ∧
          ∀ id ∈ document.listed "policies", holdings.Stores id) :
    ({ holdings with
      principals := principals
      groups := groups } : Holdings).Consistent :=
  ⟨consistent.keyed, consistent.named,
    fun document member => (listed document member).1,
    fun document member => (listed document member).2⟩

/-- A policy is removed and taken from all lists. -/
theorem remove
    (consistent : holdings.Consistent)
    {earlier later : List Fields} {document : Fields} {id : ObjectId}
    (split : holdings.policies = earlier ++ document :: later)
    (has : hasId id document = true) :
    (Holdings.mk (earlier ++ later)
      (Tenant.released id holdings.principals)
      (Tenant.released id holdings.groups)).Consistent := by
  have fewer : (earlier ++ later).Sublist holdings.policies := by
    rw [split]
    exact (List.sublist_cons_self document later).append_left earlier
  have relisted :
      ∀ member ∈ Tenant.released id holdings.principals ++
          Tenant.released id holdings.groups,
        ∃ old ∈ holdings.members,
          member.listed? "policies" =
            some ((old.listed "policies").filter (· ≠ id)) := by
    intro member inReleased
    unfold Tenant.released at inReleased
    rw [← List.map_append] at inReleased
    obtain ⟨old, oldMember, rfl⟩ := List.mem_map.mp inReleased
    exact ⟨old, oldMember,
      Operation.listed?_released (consistent.lists old oldMember) id⟩
  refine ⟨consistent.keyed.of_sublist fewer,
    consistent.named.of_sublist fewer, ?_, ?_⟩
  · intro member inMembers
    obtain ⟨old, oldMember, listed⟩ := relisted member inMembers
    exact Option.isSome_of_eq_some listed
  · intro member inMembers other otherListed
    obtain ⟨old, oldMember, listed⟩ := relisted member inMembers
    unfold Fields.listed at otherListed
    rw [listed, Option.getD_some, List.mem_filter] at otherListed
    have different : other ≠ id := of_decide_eq_true otherListed.2
    obtain ⟨stored, storedMember, storedHas⟩ :=
      consistent.attached old oldMember other otherListed.1
    have elsewhere : stored ≠ document := by
      rintro rfl
      have found := hasId_iff.mp storedHas
      rw [hasId_iff.mp has] at found
      cases found
      exact different rfl
    rw [split] at storedMember
    refine ⟨stored, ?_, storedHas⟩
    simpa [elsewhere] using storedMember

end Consistent

end Holdings

/-! ## What a call keeps -/

/-- A new document gets an identifier that no policy has. -/
def Operation.FreshIn (holdings : Holdings) : Operation → Prop
  | create stamp _ _ =>
      ∀ document ∈ holdings.policies, hasId stamp.fresh document = false
  | _ => True

instance (holdings : Holdings) (operation : Operation) :
    Decidable (operation.FreshIn holdings) :=
  match operation with
  | .create stamp _ _ =>
      inferInstanceAs (Decidable
        (∀ document ∈ holdings.policies, hasId stamp.fresh document = false))
  | .get _ | .list | .update _ _ _ | .delete _ | .attach _ _ | .detach _ _
  | .load _ => .isTrue trivial

namespace Holdings.Consistent

variable {tenant : Tenant} {before after : Store}

/-- Every list of the principals is as it was or was edited in this way. -/
theorem of_edit
    (consistent : (tenant.holdings before).Consistent)
    {edit : ArrayEdit}
    (edited :
      ∀ document ∈ (tenant.holdings before).principals,
        (edit.apply document).Lists "policies" ∧
          ∀ id ∈ (edit.apply document).listed "policies",
            (tenant.holdings before).Stores id)
    {principal : ObjectId}
    (same : after.Same (tenant.relisting before principal edit)) :
    (tenant.holdings after).Consistent := by
  rw [tenant.holdings_of_same same, tenant.holdings_relisting]
  refine consistent.of_members ?_
  intro document member
  rcases List.mem_append.mp member with inPrincipals | inGroups
  · rcases Store.mem_replaceFirst inPrincipals with kept | ⟨old, inOld, rfl⟩
    · have old : document ∈ (tenant.holdings before).members :=
        List.mem_append_left _ kept
      exact ⟨consistent.lists document old, consistent.attached document old⟩
    · exact edited old inOld
  · have old : document ∈ (tenant.holdings before).members :=
      List.mem_append_right _ inGroups
    exact ⟨consistent.lists document old, consistent.attached document old⟩

theorem of_created
    (consistent : (tenant.holdings before).Consistent)
    {policy : Policy} {createdBy : Value} {fresh : ObjectId}
    {now : Timestamp}
    (freshId :
      ∀ document ∈ (tenant.holdings before).policies,
        hasId fresh document = false)
    (free :
      (before.documents tenant.policies).find?
        (Filter.admits [("name", .equals (.text policy.name))]) = none)
    (same :
      after.Same
        (tenant.inserting before
          (Registry.newDocument policy createdBy fresh now))) :
    (tenant.holdings after).Consistent := by
  rw [tenant.holdings_of_same same, tenant.holdings_inserting]
  refine consistent.insert
    (Operation.get?_newDocument_id policy createdBy fresh now) ?_
    (Operation.get?_newDocument_name policy createdBy fresh now) ?_
  · intro other member has
    have different := freshId other member
    rw [hasId_iff.mpr has] at different
    cases different
  · intro other member called
    have seeks := Filter.seeks_everywhere fresh policy.name
    have has :=
      seeks.hasId_of_find?_eq_none consistent.keyed free member called
    rw [freshId other member] at has
    cases has

theorem of_updated
    (consistent : (tenant.holdings before).Consistent)
    {current : Fields} {id : ObjectId} {merged : Policy} {time : Timestamp}
    (found : tenant.stored? before id = some current)
    (free :
      (Value.text merged.name).same (Registry.fieldOf current "name") =
          true ∨
        (before.documents tenant.policies).find?
          (Filter.admits
            [("name", .equals (.text merged.name)),
             ("_id", .differs (.id id))]) = none)
    (same :
      after.Same
        (tenant.overwriting before id
          (Registry.writtenFields merged time))) :
    (tenant.holdings after).Consistent := by
  have foundHere :
      (tenant.holdings before).policies.find? (Filter.byId id).admits =
        some current :=
    found
  obtain ⟨earlier, later, split, admitted, -, replaced, -⟩ :=
    Store.exists_first foundHere
  have keyed := consistent.keyed
  have currentMember : current ∈ (tenant.holdings before).policies :=
    List.mem_of_find?_eq_some found
  have has := (keyed.admits_byId_iff currentMember).mp admitted
  rw [tenant.holdings_of_same same, tenant.holdings_overwriting]
  rw [replaced]
  have called := Operation.get?_overwritten_name current merged time
  refine consistent.replace split
    (Operation.get?_overwritten_id current merged time) ?_
  have mine :
      ∀ document ∈ (tenant.holdings before).policies,
        document.get? "name" = some (.text merged.name) →
          hasId id document = true := by
    intro document member documentCalled
    rcases free with kept | unused
    · have calledBefore :
          current.get? "name" = some (.text merged.name) :=
        (Fields.get?_eq_some_iff_fieldOf (by simp)).mpr
          (Value.text_same_iff.mp kept)
      rw [consistent.named.eq_of_get?_eq member currentMember documentCalled
        calledBefore (Value.sharp_text _)]
      exact has
    · exact
        (Filter.seeks_elsewhere id merged.name).hasId_of_find?_eq_none keyed
          unused member documentCalled
  have named := consistent.named
  rw [split] at keyed named mine
  exact keyed.apart_renamed named has called mine

theorem of_deleted
    (consistent : (tenant.holdings before).Consistent) {id : ObjectId}
    (present :
      (before.documents tenant.policies).any (Filter.byId id).admits = true)
    (same : after.Same (tenant.removing before id)) :
    (tenant.holdings after).Consistent := by
  rw [tenant.holdings_of_same same, tenant.holdings_removing]
  cases found :
      (tenant.holdings before).policies.find? (Filter.byId id).admits with
  | none =>
      obtain ⟨document, member, admitted⟩ := List.any_eq_true.mp present
      exact absurd admitted (List.find?_eq_none.mp found document member)
  | some document =>
      obtain ⟨earlier, later, split, admitted, -, -, dropped⟩ :=
        Store.exists_first found
      have member : document ∈ (tenant.holdings before).policies :=
        List.mem_of_find?_eq_some found
      rw [dropped]
      exact consistent.remove split
        ((consistent.keyed.admits_byId_iff member).mp admitted)

theorem of_attached
    (consistent : (tenant.holdings before).Consistent)
    {principalId policyId : ObjectId}
    (stored : (tenant.stored? before policyId).isSome = true)
    (same :
      after.Same
        (tenant.relisting before principalId
          (.addToSet "policies" (.id policyId)))) :
    (tenant.holdings after).Consistent := by
  obtain ⟨policy, found⟩ := Option.isSome_iff_exists.mp stored
  have policyMember : policy ∈ (tenant.holdings before).policies :=
    List.mem_of_find?_eq_some found
  have admitted : (Filter.byId policyId).admits policy = true :=
    List.find?_some found
  have present : (tenant.holdings before).Stores policyId :=
    ⟨policy, policyMember,
      (consistent.keyed.admits_byId_iff policyMember).mp admitted⟩
  refine consistent.of_edit ?_ same
  intro document member
  have old : document ∈ (tenant.holdings before).members :=
    List.mem_append_left _ member
  obtain ⟨lists, listed⟩ := Fields.lists_of_listed?
    ((consistent.lists document old).listed?_addToSet policyId)
  refine ⟨lists, fun id inList => ?_⟩
  rw [listed] at inList
  split at inList
  · exact consistent.attached document old id inList
  · rcases List.mem_append.mp inList with before' | added
    · exact consistent.attached document old id before'
    · rw [List.mem_singleton.mp added]
      exact present

theorem of_detached
    (consistent : (tenant.holdings before).Consistent)
    {principalId policyId : ObjectId}
    (same :
      after.Same
        (tenant.relisting before principalId
          (.pull "policies" (.id policyId)))) :
    (tenant.holdings after).Consistent := by
  refine consistent.of_edit ?_ same
  intro document member
  have old : document ∈ (tenant.holdings before).members :=
    List.mem_append_left _ member
  obtain ⟨lists, listed⟩ := Fields.lists_of_listed?
    ((consistent.lists document old).listed?_pull policyId)
  refine ⟨lists, fun id inList => ?_⟩
  rw [listed] at inList
  exact consistent.attached document old id (List.mem_filter.mp inList).1

/-- Whatever a call does, the documents stay consistent. -/
theorem of_ends
    (consistent : (tenant.holdings before).Consistent)
    {operation : Operation} {result : Except Failure Operation.Answer}
    (fresh : operation.FreshIn (tenant.holdings before))
    (ends : Operation.Ends tenant before after operation result) :
    (tenant.holdings after).Consistent := by
  have unchanged (same : after.Same before) :
      (tenant.holdings after).Consistent := by
    rw [tenant.holdings_of_same same]
    exact consistent
  cases ends with
  | failed same =>
      exact unchanged same
  | fetched _ _ same =>
      exact unchanged same
  | listed _ same =>
      exact unchanged same
  | loaded same =>
      exact unchanged same
  | created _ _ free same =>
      exact consistent.of_created fresh free same
  | updated _ found _ _ free same =>
      exact consistent.of_updated found free same
  | deleted _ present same =>
      exact consistent.of_deleted present same
  | attached _ _ stored _ same =>
      exact consistent.of_attached stored same
  | detached _ _ _ same =>
      exact consistent.of_detached same

end Holdings.Consistent

/-- From a consistent store, with a new identifier for every new document, every call
of a run leaves a consistent store, whether it succeeds or fails. -/
theorem Tenant.consistent_after_every_call
    (tenant : Tenant) {start : Store}
    (consistent : (tenant.holdings start).Consistent)
    (operations : List Operation)
    (fresh :
      ∀ event ∈ tenant.trace start operations,
        event.operation.FreshIn (tenant.holdings event.before)) :
    ∀ event ∈ tenant.trace start operations,
      (tenant.holdings event.after).Consistent :=
  tenant.trace_invariant (fun store => (tenant.holdings store).Consistent)
    (fun _ held fresh ends => held.of_ends fresh ends) consistent fresh

/-- A tenant with one policy, which a principal and a group have on their lists. -/
def office : Tenant := ⟨"office", "office"⟩

def officePolicy : Fields :=
  ("_id", .id (.numbered 1)) ::
    Policy.dump ⟨"read", .allow, ["*:Read"], ["*"], none⟩

def officeMember (id : ObjectId) : Fields :=
  [("_id", .id id), ("policies", .list [.id (.numbered 1)])]

def officeStore : Store :=
  ((Store.empty.write office.policies [officePolicy]).write
    office.principals [officeMember (.numbered 2)]).write
      office.groups [officeMember (.numbered 3)]

/-- A second policy is stored and attached, the first one deleted, the second one gets
the name of the first, and then a third one is stored under that name in vain. -/
def officeCalls : List Operation :=
  let data (name : String) : Value :=
    .record (Policy.dump ⟨name, .allow, ["*:Write"], ["*"], none⟩)
  let stamp (fresh : UInt8) : Stamp :=
    ⟨Clock.date (.integer 1704067200), .numbered fresh⟩
  [.create (stamp 4) (data "write") .null,
   .attach (.id (.numbered 2)) (.id (.numbered 4)),
   .delete (.id (.numbered 1)),
   .update (stamp 5).now (.id (.numbered 4)) (.record [("name", .text "read")]),
   .create (stamp 5) (data "read") .null]

theorem officeStore_consistent :
    (office.holdings officeStore).Consistent ∧
      (∀ event ∈ office.trace officeStore officeCalls,
        event.operation.FreshIn (office.holdings event.before)) ∧
        ∀ event ∈ office.trace officeStore officeCalls,
          (office.holdings event.after).Consistent := by
  have consistent : (office.holdings officeStore).Consistent := by
    decide +kernel
  have fresh :
      ∀ event ∈ office.trace officeStore officeCalls,
        event.operation.FreshIn (office.holdings event.before) := by
    decide +kernel
  exact
    ⟨consistent, fresh,
      office.consistent_after_every_call consistent officeCalls fresh⟩

end AccessControl
