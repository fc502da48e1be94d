import AccessControl.Proofs.Consistency
import AccessControl.Proofs.Restoration

/-!
# The history of a policy

What a stored policy holds can be told from the calls that succeeded, without the
store: a creation gives it its first contents, every change of it revises them,
and its deletion ends it.  Calls that name another policy leave it alone, and so
does everything that a change names besides the fields of a policy.  What is
recalled in this way is what is stored and answered: `get_after_run`.
-/

namespace AccessControl

abbrev Contents := String → Option Value

/-- The contents of a document; a field of a policy that is absent counts as null. -/
def Fields.contents (document : Fields) : Contents := fun name =>
  if name ∈ Policy.fieldNames then some (Registry.fieldOf document name)
  else document.get? name

/-- Every number that the condition expects has a finite value. -/
def Fields.FiniteCondition (document : Fields) : Prop :=
  ∀ entries, Registry.fieldOf document "condition" = .record entries →
    Condition.FiniteNumbers entries

theorem Fields.contents_of_mem
    (document : Fields) {name : String} (counts : name ∈ Policy.fieldNames) :
    document.contents name = some (Registry.fieldOf document name) :=
  if_pos counts

theorem Fields.contents_of_notMem
    (document : Fields) {name : String} (other : name ∉ Policy.fieldNames) :
    document.contents name = document.get? name :=
  if_neg other

namespace Contents

/-- What a new document holds. -/
def created (stamp : Stamp) (data : Fields) (createdBy : Value) : Contents :=
  fun name =>
    if name ∈ Policy.fieldNames then some (Registry.fieldOf data name)
    else if name = "_id" then some (.id stamp.fresh)
    else if name = "created_by" then some createdBy
    else if name = "created_at" ∨ name = "updated_at" then
      stamp.now.toOption.map .date
    else none

/-- A field of a policy after a change: null clears a condition, and leaves any
other field as it is. -/
def revised (given : Fields) (name : String) (old : Value) : Value :=
  match given.get? name with
  | some value =>
      if value.isNull = true ∧ name ≠ "condition" then old else value
  | none => old

def updated (now : Except Clock.Fault Timestamp) (given : Fields)
    (contents : Contents) : Contents :=
  fun name =>
    if name ∈ Policy.fieldNames then (contents name).map (revised given name)
    else if name = "updated_at" then now.toOption.map .date
    else contents name

end Contents

/-- Both agree on everything that a change leaves alone. -/
def Contents.Beside (first second : Contents) : Prop :=
  ∀ name, name ∉ Policy.fieldNames → name ≠ "updated_at" →
    first name = second name

namespace Registry

variable {given current : Fields}

theorem names_effectiveChanges_sublist (given : Fields) :
    (effectiveChanges given).names.Sublist given.names :=
  List.filter_sublist.map Prod.fst

/-- A field of a policy is taken from the changes where they hold it; a null counts for the
condition only. -/
theorem get?_merge_effectiveChanges
    (current : Fields) (nodup : given.names.Nodup) {name : String}
    (counts : name ∈ Policy.fieldNames) :
    (current.merge (effectiveChanges given)).get? name =
      match given.get? name with
      | some value =>
          if value.isNull = true ∧ name ≠ "condition" then
            current.get? name
          else some value
      | none => current.get? name := by
  have fewer := names_effectiveChanges_sublist given
  have required :
      requiredFields.contains name = true ↔ name ≠ "condition" := by
    simp only [Policy.fieldNames, List.mem_cons, List.not_mem_nil,
      or_false] at counts
    rcases counts with rfl | rfl | rfl | rfl | rfl <;> decide
  cases held : given.get? name with
  | none =>
      have absent := Fields.get?_eq_none_iff.mp held
      exact
        Fields.get?_merge_of_notMem fun member =>
          absent (fewer.subset member)
  | some value =>
      have member := (Fields.get?_eq_some_iff_mem nodup).mp held
      by_cases left : value.isNull = true ∧ name ≠ "condition"
      · simp only [if_pos left]
        apply Fields.get?_merge_of_notMem
        intro named
        obtain ⟨change, inChanges, rfl⟩ := List.mem_map.mp named
        obtain ⟨inGiven, counted⟩ := List.mem_filter.mp inChanges
        have same := (Fields.get?_eq_some_iff_mem nodup).mpr inGiven
        rw [held] at same
        cases same
        rw [left.1, required.mpr left.2] at counted
        cases counted
      · simp only [if_neg left]
        have inChanges : (name, value) ∈ effectiveChanges given := by
          refine List.mem_filter.mpr ⟨member, ?_⟩
          rw [← required, ← Bool.and_eq_true, Bool.not_eq_true] at left
          rw [left]
          rfl
        exact Fields.get?_merge_of_mem (nodup.sublist fewer) inChanges

theorem fieldOf_merge_effectiveChanges
    (nodup : given.names.Nodup) {name : String}
    (counts : name ∈ Policy.fieldNames) :
    fieldOf (current.merge (effectiveChanges given)) name =
      Contents.revised given name (fieldOf current name) := by
  unfold fieldOf Contents.revised
  rw [get?_merge_effectiveChanges current nodup counts]
  cases given.get? name with
  | none =>
      rfl
  | some value =>
      by_cases left : value.isNull = true ∧ name ≠ "condition"
      · simp only [if_pos left]
      · simp only [if_neg left, Option.getD_some]

theorem finiteCondition_merge_effectiveChanges
    (nodup : given.names.Nodup) (finite : current.FiniteCondition)
    (finiteGiven : given.FiniteCondition) :
    (current.merge (effectiveChanges given)).FiniteCondition := by
  intro entries held
  rw [fieldOf_merge_effectiveChanges nodup Policy.condition_mem_fieldNames]
    at held
  unfold Contents.revised at held
  cases found : given.get? "condition" with
  | none =>
      rw [found] at held
      exact finite entries held
  | some value =>
      apply finiteGiven entries
      rw [found] at held
      rw [fieldOf, found]
      simpa using held

end Registry

namespace Policy

variable {policy : Policy} {fields : Fields}

theorem finiteNumbers_of_spelledBy
    (spelled : policy.SpelledBy fields) (finite : fields.FiniteCondition) :
    policy.FiniteNumbers := by
  intro entries held
  apply finite entries
  unfold Registry.fieldOf
  rw [spelled.condition, Option.mem_def.mp held]
  rfl

/-- A policy with finite numbers is written as its document spells it. -/
theorem mem_dump
    (spelled : policy.SpelledBy fields) (formed : policy.WellFormed)
    (finite : fields.FiniteCondition) {name : String}
    (counts : name ∈ fieldNames) :
    (name, Registry.fieldOf fields name) ∈ policy.dump := by
  have condition := finite_condition formed
    (finiteNumbers_of_spelledBy spelled finite)
  simp only [fieldNames, List.mem_cons, List.not_mem_nil, or_false] at counts
  unfold Registry.fieldOf
  rcases counts with rfl | rfl | rfl | rfl | rfl
  · simp [spelled.name, dump]
  · simp [spelled.effect, dump]
  · simp [spelled.actions, dump]
  · simp [spelled.resources, dump]
  · simp [spelled.condition, dump, condition]

theorem names_dump (policy : Policy) : policy.dump.names = fieldNames :=
  rfl

theorem nodup_names_dump (policy : Policy) : policy.dump.names.Nodup := by
  rw [names_dump]
  decide

end Policy

namespace Operation

variable {policy : Policy} {data given current : Fields} {createdBy : Value}
  {stamp : Stamp} {time : Timestamp}

theorem contents_newDocument
    (accepted : Policy.ofFields data = .ok policy)
    (finite : data.FiniteCondition) (shown : stamp.now = .ok time) :
    (Registry.newDocument policy createdBy stamp.fresh time).contents =
      Contents.created stamp data createdBy := by
  obtain ⟨spelled, formed⟩ := Policy.ofFields_eq_ok_iff_spelledBy.mp accepted
  funext name
  unfold Fields.contents Contents.created
  by_cases counts : name ∈ Policy.fieldNames
  · have dumped := Policy.mem_dump spelled formed finite counts
    have names :
        (Registry.newDocument policy createdBy stamp.fresh
          time).names.Nodup := by
      have spelt :
          (Registry.newDocument policy createdBy stamp.fresh time).names =
            "_id" :: Policy.fieldNames ++
              ["created_by", "created_at", "updated_at"] := rfl
      rw [spelt]
      decide
    have held :
        (Registry.newDocument policy createdBy stamp.fresh time).get? name =
          some (Registry.fieldOf data name) := by
      apply (Fields.get?_eq_some_iff_mem names).mpr
      exact List.mem_append_left _ (List.mem_cons_of_mem _ dumped)
    rw [if_pos counts, if_pos counts]
    unfold Registry.fieldOf at held ⊢
    rw [held]
    rfl
  · rw [if_neg counts, if_neg counts]
    simp only [Policy.fieldNames, List.mem_cons, List.not_mem_nil,
      or_false, not_or] at counts
    obtain ⟨notName, notEffect, notActions, notResources, notCondition⟩ :=
      counts
    simp only [Registry.newDocument, Policy.dump, Fields.get?,
      List.cons_append, List.nil_append, List.lookup_cons, List.lookup_nil,
      beq_false_of_ne notName, beq_false_of_ne notEffect,
      beq_false_of_ne notActions, beq_false_of_ne notResources,
      beq_false_of_ne notCondition, shown]
    by_cases isId : name = "_id"
    · simp [isId]
    · by_cases isCreator : name = "created_by"
      · simp [isCreator]
      · by_cases isCreated : name = "created_at"
        · simp [isCreated, Except.toOption]
        · by_cases isUpdated : name = "updated_at"
          · simp [isUpdated, Except.toOption]
          · simp [isId, isCreator, isCreated, isUpdated,
              beq_false_of_ne isId, beq_false_of_ne isCreator,
              beq_false_of_ne isCreated, beq_false_of_ne isUpdated]

theorem nodup_names_writtenFields (policy : Policy) (time : Timestamp) :
    (Registry.writtenFields policy time).names.Nodup := by
  rw [names_writtenFields]
  decide

theorem id_notMem_writtenFields (policy : Policy) (time : Timestamp) :
    "_id" ∉ (Registry.writtenFields policy time).names := by
  rw [names_writtenFields]
  decide

theorem keyed_overwriting
    {tenant : Tenant} {store : Store}
    (keyed : Keyed (tenant.holdings store).policies) (id : ObjectId)
    (policy : Policy) (time : Timestamp) :
    Keyed
      (tenant.holdings
        (tenant.overwriting store id
          (Registry.writtenFields policy time))).policies := by
  rw [tenant.holdings_overwriting]
  apply keyed.replaceFirst
  intro document
  exact Fields.get?_merge_of_notMem (id_notMem_writtenFields policy time)

theorem stored?_overwritten
    {tenant : Tenant} {store : Store}
    (keyed : Keyed (tenant.holdings store).policies) {id : ObjectId}
    (found : tenant.stored? store id = some current)
    (policy : Policy) (time : Timestamp) :
    tenant.stored?
        (tenant.overwriting store id (Registry.writtenFields policy time))
        id =
      some (current.merge (Registry.writtenFields policy time)) := by
  rw [Tenant.stored?_overwriting keyed (id_notMem_writtenFields policy time),
    if_pos rfl, found]
  rfl

section Overwritten

variable {merged : Fields} (spelled : policy.SpelledBy merged)
  (formed : policy.WellFormed) (finite : merged.FiniteCondition)

include spelled formed finite

theorem get?_overwritten
    {name : String} (counts : name ∈ Policy.fieldNames) :
    (current.merge (Registry.writtenFields policy time)).get? name =
      some (Registry.fieldOf merged name) := by
  have dumped := Policy.mem_dump spelled formed finite counts
  exact
    Fields.get?_merge_of_mem (nodup_names_writtenFields policy time)
      (List.mem_append_left _ dumped)

theorem fieldOf_overwritten
    {name : String} (counts : name ∈ Policy.fieldNames) :
    Registry.fieldOf (current.merge (Registry.writtenFields policy time))
        name =
      Registry.fieldOf merged name := by
  rw [Registry.fieldOf, get?_overwritten spelled formed finite counts]
  rfl

theorem finiteCondition_overwritten :
    Fields.FiniteCondition
      (current.merge (Registry.writtenFields policy time)) := by
  intro entries held
  apply finite entries
  rw [← held]
  exact
    (fieldOf_overwritten spelled formed finite
      Policy.condition_mem_fieldNames).symm

theorem ofFields_overwritten :
    Policy.ofFields (current.merge (Registry.writtenFields policy time)) =
      .ok policy := by
  have numbers := Policy.finiteNumbers_of_spelledBy spelled finite
  refine (Policy.ofFields_eq_ok_iff_of_get?_eq ?_).mpr
    (Policy.ofFields_dump formed numbers)
  intro name counts
  have dumped := Policy.mem_dump spelled formed finite counts
  rw [get?_overwritten spelled formed finite counts]
  exact
    ((Fields.get?_eq_some_iff_mem (Policy.nodup_names_dump policy)).mpr
      dumped).symm

end Overwritten

/-- What a change leaves is what it revises, also where the fields of the policy were
changed after it was read. -/
theorem contents_overwritten
    {read : Fields} (nodup : given.names.Nodup)
    (accepted :
      Policy.ofFields (read.merge (Registry.effectiveChanges given)) =
        .ok policy)
    (finite : (read.merge (Registry.effectiveChanges given)).FiniteCondition)
    (beside : current.contents.Beside read.contents) :
    (current.merge (Registry.writtenFields policy time)).contents =
      read.contents.updated (.ok time) given := by
  obtain ⟨spelled, formed⟩ := Policy.ofFields_eq_ok_iff_spelledBy.mp accepted
  funext name
  unfold Contents.updated
  by_cases counts : name ∈ Policy.fieldNames
  · rw [if_pos counts, Fields.contents_of_mem _ counts,
      Fields.contents_of_mem _ counts,
      fieldOf_overwritten spelled formed finite counts,
      Registry.fieldOf_merge_effectiveChanges nodup counts]
    rfl
  · rw [if_neg counts, Fields.contents_of_notMem _ counts]
    by_cases isUpdated : name = "updated_at"
    · subst isUpdated
      have written :
          ("updated_at", .date time) ∈ Registry.writtenFields policy time := by
        simp [Registry.writtenFields]
      rw [if_pos rfl,
        Fields.get?_merge_of_mem (nodup_names_writtenFields policy time)
          written]
      rfl
    · have names :
          (Registry.writtenFields policy time).names =
            Policy.fieldNames ++ ["updated_at"] := rfl
      have unnamed :
          name ∉ (Registry.writtenFields policy time).names := by
        rw [names]
        simp [counts, isUpdated]
      rw [if_neg isUpdated, Fields.get?_merge_of_notMem unnamed,
        ← Fields.contents_of_notMem _ counts]
      exact beside name counts isUpdated

end Operation

/-! ## What is recalled -/

/-- The fields of a change have different names, and the conditions that are given
expect finite numbers only. -/
def Operation.Regular : Operation → Prop
  | create _ (.record data) _ => Fields.FiniteCondition data
  | update _ _ (.record given) =>
      (Fields.names given).Nodup ∧ Fields.FiniteCondition given
  | _ => True

/-- The contents of the policy with this identifier after a call, told from the call
and from whether it succeeded; none when there is no such policy. -/
def Event.recall (id : ObjectId) (known : Option Contents) (event : Event) :
    Option Contents :=
  match event.result, event.operation with
  | .ok _, .create stamp (.record data) createdBy =>
      if stamp.fresh = id then some (.created stamp data createdBy) else known
  | .ok _, .update now policy (.record given) =>
      if policy.recordId? = some id then known.map (·.updated now given)
      else known
  | .ok _, .delete policy =>
      if policy.recordId? = some id then none else known
  | _, _ => known

namespace Tenant

def leaves (tenant : Tenant) (start : Store) (operations : List Operation) :
    Store :=
  operations.foldl (fun store operation => (operation.run tenant store).2) start

/-- The contents of the policy with this identifier after a run, told from the calls
of the run and from what was stored before it. -/
def recalled (tenant : Tenant) (start : Store) (operations : List Operation)
    (id : ObjectId) : Option Contents :=
  (tenant.trace start operations).foldl (Event.recall id)
    ((tenant.stored? start id).map Fields.contents)

/-- What is known of the policy with this identifier in a store.  Its document is
accepted when the one was that it began with. -/
structure Recalls (tenant : Tenant) (id : ObjectId) (begunAccepted : Prop)
    (store : Store) (known : Option Contents) : Prop where
  keyed : Keyed (tenant.holdings store).policies
  known : known = (tenant.stored? store id).map Fields.contents
  finite : ∀ document ∈ tenant.stored? store id, document.FiniteCondition
  accepted :
    begunAccepted →
      ∀ document ∈ tenant.stored? store id,
        ∃ policy, Policy.ofFields document = .ok policy

end Tenant

namespace Tenant.Recalls

variable {tenant : Tenant} {id : ObjectId} {begunAccepted : Prop}
  {before after : Store} {known : Option Contents}

theorem of_stored?_eq
    (recalls : tenant.Recalls id begunAccepted before known)
    (keyed : Keyed (tenant.holdings after).policies)
    (same : tenant.stored? after id = tenant.stored? before id) :
    tenant.Recalls id begunAccepted after known := by
  refine ⟨keyed, ?_, ?_, ?_⟩
  · rw [same]
    exact recalls.known
  · rw [same]
    exact recalls.finite
  · rw [same]
    exact recalls.accepted

theorem of_same
    (recalls : tenant.Recalls id begunAccepted before known)
    (same : after.Same before) :
    tenant.Recalls id begunAccepted after known := by
  apply recalls.of_stored?_eq
  · rw [tenant.holdings_of_same same]
    exact recalls.keyed
  · exact tenant.stored?_of_same same id

/-- The document that is stored now has these contents and was accepted. -/
theorem of_stored?_eq_some
    (keyed : Keyed (tenant.holdings after).policies) {document : Fields}
    (found : tenant.stored? after id = some document) {contents : Contents}
    (holds : document.contents = contents)
    (finite : document.FiniteCondition)
    (accepted : ∃ policy, Policy.ofFields document = .ok policy) :
    tenant.Recalls id begunAccepted after (some contents) := by
  refine ⟨keyed, ?_, ?_, ?_⟩
  · rw [found, ← holds]
    rfl
  · rw [found]
    rintro _ ⟨⟩
    exact finite
  · rw [found]
    rintro _ _ ⟨⟩
    exact accepted

theorem of_created
    (recalls : tenant.Recalls id begunAccepted before known)
    {stamp : Stamp} {data createdBy : Value} {policy : Policy}
    {time : Timestamp}
    (fresh :
      (Operation.create stamp data createdBy).FreshIn (tenant.holdings before))
    (regular : (Operation.create stamp data createdBy).Regular)
    (read : Policy.ofValue Policy.modelName data = .ok policy)
    (shown : stamp.now = .ok time)
    (same :
      after.Same
        (tenant.inserting before
          (Registry.newDocument policy createdBy stamp.fresh time)))
    {answer : Operation.Answer} :
    tenant.Recalls id begunAccepted after
      (Event.recall id known
        ⟨before, .create stamp data createdBy, .ok answer, after⟩) := by
  cases data with
  | record data =>
      have identified :=
        Operation.get?_newDocument_id policy createdBy stamp.fresh time
      have keyed : Keyed (tenant.holdings after).policies := by
        rw [tenant.holdings_of_same same, tenant.holdings_inserting]
        apply recalls.keyed.append identified
        intro other member has
        have different := fresh other member
        rw [hasId_iff.mpr has] at different
        cases different
      have found := Tenant.stored?_inserting recalls.keyed identified fresh id
      rw [← tenant.stored?_of_same same] at found
      simp only [Event.recall]
      by_cases isNew : stamp.fresh = id
      · rw [if_pos isNew] at found ⊢
        have holds : _ = Contents.created stamp data createdBy :=
          Operation.contents_newDocument read regular shown
        apply of_stored?_eq_some keyed found holds
        · intro entries held
          apply regular entries
          have spelled := congrFun holds "condition"
          rw [Fields.contents_of_mem _ Policy.condition_mem_fieldNames, held]
            at spelled
          exact (Option.some.inj spelled).symm
        · have formed := Policy.wellFormed_of_ofValue read
          have spelled := (Policy.ofFields_eq_ok_iff_spelledBy.mp read).1
          refine ⟨policy, Operation.ofFields_newDocument_iff.mpr ?_⟩
          apply Policy.ofFields_dump formed
          exact Policy.finiteNumbers_of_spelledBy spelled regular
      · rw [if_neg isNew] at found ⊢
        exact recalls.of_stored?_eq keyed found
  | _ =>
      cases read

theorem of_updated
    (recalls : tenant.Recalls id begunAccepted before known)
    {now : Except Clock.Fault Timestamp} {value : Value} {named : ObjectId}
    {given current : Fields} {policy : Policy} {time : Timestamp}
    (regular : (Operation.update now value (.record given)).Regular)
    (read : value.recordId? = some named)
    (stored : tenant.stored? before named = some current)
    (checked :
      Policy.ofFields (current.merge (Registry.effectiveChanges given)) =
        .ok policy)
    (shown : now = .ok time)
    (same :
      after.Same
        (tenant.overwriting before named
          (Registry.writtenFields policy time)))
    {answer : Operation.Answer} :
    tenant.Recalls id begunAccepted after
      (Event.recall id known
        ⟨before, .update now value (.record given), .ok answer, after⟩) := by
  have keyed : Keyed (tenant.holdings after).policies := by
    rw [tenant.holdings_of_same same]
    exact Operation.keyed_overwriting recalls.keyed named policy time
  simp only [Event.recall, read, Option.some.injEq]
  by_cases isNamed : named = id
  · subst isNamed
    obtain ⟨nodup, finiteGiven⟩ := regular
    have finite :=
      Registry.finiteCondition_merge_effectiveChanges nodup
        (recalls.finite current stored) finiteGiven
    have holds :
        (current.merge (Registry.writtenFields policy time)).contents =
          current.contents.updated now given := by
      rw [shown]
      exact
        Operation.contents_overwritten nodup checked finite fun _ _ _ => rfl
    have found :=
      Operation.stored?_overwritten recalls.keyed stored policy time
    rw [← tenant.stored?_of_same same] at found
    rw [if_pos rfl, recalls.known, stored, Option.map_some, Option.map_some]
    obtain ⟨spelled, formed⟩ :=
      Policy.ofFields_eq_ok_iff_spelledBy.mp checked
    exact
      of_stored?_eq_some keyed found holds
        (Operation.finiteCondition_overwritten spelled formed finite)
        ⟨policy, Operation.ofFields_overwritten spelled formed finite⟩
  · have kept :=
      Tenant.stored?_overwriting recalls.keyed
        (Operation.id_notMem_writtenFields policy time) named id
    rw [← tenant.stored?_of_same same, if_neg isNamed] at kept
    rw [if_neg isNamed]
    exact recalls.of_stored?_eq keyed kept

theorem of_deleted
    (recalls : tenant.Recalls id begunAccepted before known)
    {value : Value} {named : ObjectId} (read : value.recordId? = some named)
    (same : after.Same (tenant.removing before named))
    {answer : Operation.Answer} :
    tenant.Recalls id begunAccepted after
      (Event.recall id known ⟨before, .delete value, .ok answer, after⟩) := by
  have keyed : Keyed (tenant.holdings after).policies := by
    rw [tenant.holdings_of_same same, tenant.holdings_removing]
    exact recalls.keyed.of_sublist (Store.dropFirst_sublist _)
  have found := Tenant.stored?_removing recalls.keyed named id
  rw [← tenant.stored?_of_same same] at found
  simp only [Event.recall, read, Option.some.injEq]
  by_cases isNamed : named = id
  · rw [if_pos isNamed] at found ⊢
    refine ⟨keyed, ?_, ?_, ?_⟩ <;> simp [found]
  · rw [if_neg isNamed] at found ⊢
    exact recalls.of_stored?_eq keyed found

theorem of_relisted
    (recalls : tenant.Recalls id begunAccepted before known)
    {principal : ObjectId} {edit : ArrayEdit}
    (same : after.Same (tenant.relisting before principal edit)) :
    tenant.Recalls id begunAccepted after known := by
  apply recalls.of_stored?_eq
  · rw [tenant.holdings_of_same same, tenant.holdings_relisting]
    exact recalls.keyed
  · rw [tenant.stored?_of_same same, Tenant.stored?_relisting]

/-- What is known before a call and the call itself tell what is known after it. -/
theorem step
    {event : Event}
    (recalls : tenant.Recalls id begunAccepted event.before known)
    (fresh : event.operation.FreshIn (tenant.holdings event.before))
    (regular : event.operation.Regular)
    (ends :
      Operation.Ends tenant event.before event.after event.operation
        event.result) :
    tenant.Recalls id begunAccepted event.after (event.recall id known) := by
  obtain ⟨before, operation, result, after⟩ := event
  cases ends with
  | failed same =>
      exact recalls.of_same same
  | fetched _ _ same =>
      exact recalls.of_same same
  | listed _ same =>
      exact recalls.of_same same
  | loaded same =>
      exact recalls.of_same same
  | created read shown _ same =>
      exact recalls.of_created fresh regular read shown same
  | updated read stored checked shown _ same =>
      exact recalls.of_updated regular read stored checked shown same
  | deleted read _ same =>
      exact recalls.of_deleted read same
  | attached _ _ _ _ same =>
      exact recalls.of_relisted same
  | detached _ _ _ same =>
      exact recalls.of_relisted same

theorem run
    {start : Store} {operations : List Operation}
    (recalls : tenant.Recalls id begunAccepted start known)
    (fresh :
      ∀ event ∈ tenant.trace start operations,
        event.operation.FreshIn (tenant.holdings event.before))
    (regular : ∀ operation ∈ operations, operation.Regular) :
    tenant.Recalls id begunAccepted (tenant.leaves start operations)
      ((tenant.trace start operations).foldl (Event.recall id) known) := by
  induction operations generalizing start known with
  | nil =>
      exact recalls
  | cons operation rest inductionHypothesis =>
      unfold Tenant.trace at fresh ⊢
      rw [List.forall_mem_cons] at fresh regular
      have next := recalls.step fresh.1 regular.1
        (Operation.ends_run tenant start operation)
      exact inductionHypothesis next fresh.2 regular.2

end Tenant.Recalls

namespace Value

theorem get?_serializedFields (fields : Fields) (name : String) :
    Fields.get? (serializedFields fields) name =
      (fields.get? name).map fun value => value.serialized.spelled := by
  induction fields with
  | nil =>
      rfl
  | cons field rest inductionHypothesis =>
      obtain ⟨key, value⟩ := field
      unfold Fields.get? at inductionHypothesis ⊢
      rw [serializedFields, List.lookup_cons, List.lookup_cons]
      cases name == key with
      | true =>
          rfl
      | false =>
          exact inductionHypothesis

theorem serializedFields_eq_self
    {fields : Fields}
    (same : ∀ field ∈ fields, field.2.serialized.spelled = field.2) :
    serializedFields fields = fields := by
  induction fields with
  | nil =>
      rfl
  | cons field rest inductionHypothesis =>
      rw [List.forall_mem_cons] at same
      rw [serializedFields, same.1, inductionHypothesis same.2]

theorem serialized_texts (items : List String) :
    (texts items).serialized = texts items := by
  have each : serializedItems (items.map .text) = items.map .text := by
    induction items with
    | nil =>
        rfl
    | cons item rest inductionHypothesis =>
        rw [List.map_cons, serializedItems, inductionHypothesis]
        rfl
  rw [texts, serialized, each]

end Value

theorem Condition.serializedFields_of_fits
    {condition : Condition} (fits : condition.Fits) :
    Value.serializedFields condition = condition := by
  apply Value.serializedFields_eq_self
  intro entry member
  obtain ⟨operator, expectations, -, recorded, fitting⟩ := fits entry member
  have same : Value.serializedFields expectations = expectations := by
    apply Value.serializedFields_eq_self
    intro expectation inside
    have admitted := fitting expectation inside
    cases held : expectation.2 with
    | text text =>
        rfl
    | boolean value =>
        rfl
    | number number =>
        rfl
    | _ =>
        rw [held] at admitted
        cases expected : operator.expects <;> rw [expected] at admitted <;>
          cases admitted
  rw [recorded, Value.serialized, same]
  rfl

/-- The fields of an accepted policy are answered as they are stored. -/
theorem Policy.fieldOf_serializedFields
    {policy : Policy} {document : Fields}
    (accepted : ofFields document = .ok policy) {name : String}
    (counts : name ∈ fieldNames) :
    Registry.fieldOf (Value.serializedFields document) name =
      Registry.fieldOf document name := by
  obtain ⟨spelled, formed⟩ := ofFields_eq_ok_iff_spelledBy.mp accepted
  have answered :
      Registry.fieldOf (Value.serializedFields document) name =
        (Registry.fieldOf document name).serialized.spelled := by
    unfold Registry.fieldOf
    rw [Value.get?_serializedFields]
    cases document.get? name <;> rfl
  rw [answered]
  simp only [fieldNames, List.mem_cons, List.not_mem_nil, or_false] at counts
  unfold Registry.fieldOf
  rcases counts with rfl | rfl | rfl | rfl | rfl
  · rw [spelled.name]
    rfl
  · rw [spelled.effect]
    rfl
  · rw [spelled.actions, Option.getD_some, Value.serialized_texts]
    rfl
  · rw [spelled.resources, Option.getD_some, Value.serialized_texts]
    rfl
  · rw [spelled.condition]
    cases held : policy.condition with
    | none =>
        rfl
    | some entries =>
        have same :=
          Condition.serializedFields_of_fits (formed.fits entries held)
        rw [Condition.toValue, Value.serialized, same]
        rfl

theorem Operation.result_get
    (tenant : Tenant) (store : Store) {policy : Value} {id : ObjectId}
    (read : policy.recordId? = some id) :
    ((Operation.get policy).run tenant store).1 =
      match tenant.stored? store id with
      | some document => .ok (.value (Registry.answered document))
      | none => .error (.refused Registry.policyNotFound) := by
  obtain ⟨left, -, searched⟩ := Operation.finish_stored tenant store id
  rw [Operation.run_eq_map tenant store rfl]
  unfold Registry.get
  rw [Program.finish_bind_of_ok
    (Operation.finish_requireId_of_some store read "policy")]
  cases found : tenant.stored? store id with
  | none =>
      rw [found] at searched
      rw [Program.finish_bind_of_error searched]
      rfl
  | some document =>
      rw [found] at searched
      rw [Program.finish_bind_of_ok searched]
      rfl

/-- After any run, a policy is found by its identifier just when the calls tell that
there is one.  What is stored then has the contents that the calls tell.  Where
the run began with an accepted policy or with none, all the fields of a policy
are answered as the calls tell them. -/
theorem Tenant.get_after_run
    (tenant : Tenant) {start : Store} {id : ObjectId}
    (keyed : Keyed (tenant.holdings start).policies)
    (finite : ∀ document ∈ tenant.stored? start id, document.FiniteCondition)
    (operations : List Operation)
    (fresh :
      ∀ event ∈ tenant.trace start operations,
        event.operation.FreshIn (tenant.holdings event.before))
    (regular : ∀ operation ∈ operations, operation.Regular)
    {policy : Value} (read : policy.recordId? = some id) :
    match tenant.recalled start operations id with
    | none =>
        ((Operation.get policy).run tenant
            (tenant.leaves start operations)).1 =
          .error (.refused Registry.policyNotFound)
    | some contents =>
        ∃ document,
          tenant.stored? (tenant.leaves start operations) id =
              some document ∧
            document.contents = contents ∧
            ((Operation.get policy).run tenant
                (tenant.leaves start operations)).1 =
              .ok (.value (.record (Value.serializedFields document))) ∧
            ((∀ begun ∈ tenant.stored? start id,
                ∃ policy, Policy.ofFields begun = .ok policy) →
              ∀ name ∈ Policy.fieldNames,
                some (Registry.fieldOf (Value.serializedFields document)
                  name) = contents name) := by
  have begun :
      tenant.Recalls id
        (∀ begun ∈ tenant.stored? start id,
          ∃ policy, Policy.ofFields begun = .ok policy)
        start ((tenant.stored? start id).map Fields.contents) :=
    ⟨keyed, rfl, finite, fun accepted => accepted⟩
  have recalls := begun.run fresh regular
  have known :
      tenant.recalled start operations id =
        (tenant.stored? (tenant.leaves start operations) id).map
          Fields.contents :=
    recalls.known
  rw [known, Operation.result_get tenant _ read]
  cases found : tenant.stored? (tenant.leaves start operations) id with
  | none =>
      rfl
  | some document =>
      refine ⟨document, rfl, rfl, rfl, ?_⟩
      intro begunAccepted name counts
      obtain ⟨policy, accepted⟩ :=
        recalls.accepted begunAccepted document found
      rw [Policy.fieldOf_serializedFields accepted counts,
        document.contents_of_mem counts]

/-- A policy is stored under a condition and changed twice, also under names that are
none of its own, while the one that was there is deleted. -/
def officeRevisions : List Operation :=
  let stamp : Stamp := ⟨.ok ⟨1704067200000000, none⟩, .numbered 4⟩
  let condition : Value :=
    .record [("Bool", .record [("open", .boolean true)])]
  [.create stamp
    (.record [("name", .text "write"), ("effect", .text "Allow"),
      ("actions", .texts ["*:Write"]), ("resources", .texts ["*"]),
      ("condition", condition)]) .null,
   .update stamp.now (.id (.numbered 4))
    (.record [("_id", .id (.numbered 9)), ("name", .null),
      ("effect", .text "Deny"), ("created_by", .text "nobody"),
      ("label", .boolean true)]),
   .delete (.id (.numbered 1)),
   .update stamp.now (.id (.numbered 4))
    (.record [("condition", .null), ("actions", .texts ["*:Read"])])]

theorem officeRevisions_regular :
    ∀ operation ∈ officeRevisions, operation.Regular := by
  have noNumbers :
      Condition.FiniteNumbers [("Bool", .record [("open", .boolean true)])] := by
    intro entry member expectations recorded expectation inside number held
    rw [List.mem_singleton.mp member] at recorded
    cases recorded
    rw [List.mem_singleton.mp inside] at held
    cases held
  unfold officeRevisions
  simp only [List.forall_mem_cons]
  refine ⟨?_, ⟨by decide, ?_⟩, trivial, ⟨by decide, ?_⟩, by simp⟩
  · rintro entries ⟨⟩
    exact noNumbers
  · rintro entries ⟨⟩
  · rintro entries ⟨⟩

theorem officeRevisions_told :
    (∃ document,
      office.stored? (office.leaves officeStore officeRevisions)
          (.numbered 4) = some document ∧
        Registry.fieldOf (Value.serializedFields document) "name" =
          .text "write" ∧
        Registry.fieldOf (Value.serializedFields document) "effect" =
          .text "Deny" ∧
        Registry.fieldOf (Value.serializedFields document) "condition" =
          .null ∧
        document.contents "created_by" = some .null ∧
        document.contents "label" = none) ∧
      ((Operation.get (.id (.numbered 1))).run office
          (office.leaves officeStore officeRevisions)).1 =
        .error (.refused Registry.policyNotFound) := by
  have keyed : Keyed (office.holdings officeStore).policies := by
    decide +kernel
  have fresh :
      ∀ event ∈ office.trace officeStore officeRevisions,
        event.operation.FreshIn (office.holdings event.before) := by
    decide +kernel
  constructor
  · have absent : office.stored? officeStore (.numbered 4) = none := rfl
    have begun :
        ∀ document ∈ office.stored? officeStore (.numbered 4),
          document.FiniteCondition := by
      rw [absent]
      rintro document ⟨⟩
    have named : (Value.id (.numbered 4)).recordId? = some (.numbered 4) := rfl
    have told :=
      office.get_after_run keyed begun officeRevisions fresh
        officeRevisions_regular named
    have recalled :
        ∃ contents,
          office.recalled officeStore officeRevisions (.numbered 4) =
              some contents ∧
            contents "name" = some (.text "write") ∧
            contents "effect" = some (.text "Deny") ∧
            contents "condition" = some .null ∧
            contents "created_by" = some .null ∧
            contents "label" = none :=
      ⟨_, rfl, rfl, rfl, rfl, rfl, rfl⟩
    obtain ⟨contents, known, name, effect, condition, creator, label⟩ :=
      recalled
    rw [known] at told
    obtain ⟨document, found, rfl, -, answered⟩ := told
    have fields :=
      answered (by rw [absent]; rintro begunDocument ⟨⟩)
    refine ⟨document, found, ?_, ?_, ?_, creator, label⟩
    · exact Option.some.inj ((fields "name" (by decide)).trans name)
    · exact Option.some.inj ((fields "effect" (by decide)).trans effect)
    · exact Option.some.inj ((fields "condition" (by decide)).trans condition)
  · have present :
        office.stored? officeStore (.numbered 1) = some officePolicy := rfl
    have begun :
        ∀ document ∈ office.stored? officeStore (.numbered 1),
          document.FiniteCondition := by
      rw [present]
      rintro document ⟨⟩ entries ⟨⟩
    have named : (Value.id (.numbered 1)).recordId? = some (.numbered 1) := rfl
    have told :=
      office.get_after_run keyed begun officeRevisions fresh
        officeRevisions_regular named
    have recalled :
        office.recalled officeStore officeRevisions (.numbered 1) = none := rfl
    rw [recalled] at told
    exact told

end AccessControl
