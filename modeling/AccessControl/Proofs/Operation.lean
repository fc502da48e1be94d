import AccessControl.Proofs.Effective
import AccessControl.Registry.Records

/-!
# Operations on policy records

The calls that a tenant's policy records answer to, as data: what each of them
runs, and what it can do to the store when nobody interferes.  `Ends`
lists every way in which a call can end, with everything that was checked on
the way; a call that fails leaves the documents as they were.
-/

namespace AccessControl

namespace Registry

theorem uses_requireId
    {allowed : Command → Prop} (subject : String) (value : Value) :
    (requireId subject value).Uses allowed := by
  unfold requireId
  cases value.recordId? with
  | none =>
      exact .refuse _
  | some id =>
      exact .pure id

theorem reads_stored (tenant : Tenant) (id : ObjectId) :
    (stored tenant id).Uses tenant.Reads := by
  have found :
      (Program.query tenant.policies (.findOne (Filter.byId id))).Uses
        tenant.Reads :=
    .query ⟨Deed.reads_findOne _, tenant.keeps_policies⟩
  refine found.bind fun found => ?_
  cases found with
  | none =>
      exact .refuse _
  | some document =>
      exact .pure document

theorem reads_get (tenant : Tenant) (policy : Value) :
    (get tenant policy).Uses tenant.Reads :=
  (uses_requireId _ _).bind fun id =>
    (reads_stored tenant id).bind fun _ => .pure _

theorem reads_list (tenant : Tenant) :
    (list tenant).Uses tenant.Reads := by
  have sorted :
      (Program.query tenant.policies (.findSorted "created_at")).Uses
        tenant.Reads :=
    .query ⟨Deed.reads_findSorted _, tenant.keeps_policies⟩
  refine sorted.bind fun found => ?_
  cases found with
  | error fault =>
      exact .fail _
  | ok documents =>
      exact .pure _

end Registry

/-- A call with its arguments. -/
inductive Operation where
  | create (stamp : Stamp) (data createdBy : Value)
  | get (policy : Value)
  | list
  | update (now : Except Clock.Fault Timestamp) (policy changes : Value)
  | delete (policy : Value)
  | attach (principal policy : Value)
  | detach (principal policy : Value)
  | load (principal : Value)

namespace Operation

/-- What a call gives. -/
inductive Answer where
  | value (value : Value)
  | values (values : List Value)
  | policies (policies : List Policy)

/-- The program that a call runs. -/
def program (tenant : Tenant) : Operation → Program Answer
  | create stamp data createdBy =>
      .value <$> Registry.create tenant stamp data createdBy
  | get policy => .value <$> Registry.get tenant policy
  | list => .values <$> Registry.list tenant
  | update now policy changes =>
      .value <$> Registry.update tenant now policy changes
  | delete policy => .value <$> Registry.delete tenant policy
  | attach principal policy =>
      .value <$> Registry.attach tenant principal policy
  | detach principal policy =>
      .value <$> Registry.detach tenant principal policy
  | load principal => .policies <$> Registry.effective tenant principal

/-- What a call gives when nobody interferes, and the store that it leaves. -/
def run (tenant : Tenant) (operation : Operation) (store : Store) :
    Except Failure Answer × Store :=
  Program.finish Program.undisturbed (operation.program tenant) store

theorem names_writtenFields (policy : Policy) (now : Timestamp) :
    (Registry.writtenFields policy now).names =
      ["name", "effect", "actions", "resources", "condition",
        "updated_at"] :=
  rfl

/-- A change gives the record its new name. -/
theorem get?_overwritten_name
    (current : Fields) (policy : Policy) (now : Timestamp) :
    (current.merge (Registry.writtenFields policy now)).get? "name" =
      some (.text policy.name) := by
  refine Fields.get?_merge_of_mem ?_ (List.mem_cons_self ..)
  rw [names_writtenFields]
  decide

/-- A change leaves the identifier of the record alone. -/
theorem get?_overwritten_id
    (current : Fields) (policy : Policy) (now : Timestamp) :
    (current.merge (Registry.writtenFields policy now)).get? "_id" =
      current.get? "_id" := by
  refine Fields.get?_merge_of_notMem ?_
  rw [names_writtenFields]
  decide

theorem get?_newDocument_id
    (policy : Policy) (createdBy : Value) (fresh : ObjectId)
    (now : Timestamp) :
    (Registry.newDocument policy createdBy fresh now).get? "_id" =
      some (.id fresh) :=
  rfl

theorem get?_newDocument_name
    (policy : Policy) (createdBy : Value) (fresh : ObjectId)
    (now : Timestamp) :
    (Registry.newDocument policy createdBy fresh now).get? "name" =
      some (.text policy.name) :=
  rfl

/-- A policy that is taken out of the lists is on none of them any more, and the
other ones keep their order. -/
theorem listed?_released
    {document : Fields} (lists : document.Lists "policies") (id : ObjectId) :
    (if Filter.admits [("policies", .equals (.id id))] document then
        (ArrayEdit.pull "policies" (.id id)).apply document
      else document).listed? "policies" =
      some ((document.listed "policies").filter (· ≠ id)) := by
  by_cases present : id ∈ document.listed "policies"
  · rw [if_pos ((lists.admits_iff id).mpr present), lists.listed?_pull]
  · have others :
        (document.listed "policies").filter (· ≠ id) =
          document.listed "policies" := by
      refine List.filter_eq_self.mpr fun other member => ?_
      exact decide_eq_true fun equal => present (equal ▸ member)
    rw [if_neg (mt (lists.admits_iff id).mp present), lists.listed?_eq,
      others]

/-- The ways in which a call ends, and what the collections hold after it. -/
inductive Ends (tenant : Tenant) (before after : Store) :
    Operation → Except Failure Answer → Prop
  | failed {operation : Operation} {failure : Failure} :
      after.Same before → Ends tenant before after operation (.error failure)
  | fetched {policy : Value} {id : ObjectId} {document : Fields} :
      policy.recordId? = some id →
      tenant.stored? before id = some document →
      after.Same before →
      Ends tenant before after (get policy)
        (.ok (.value (Registry.answered document)))
  | listed {documents : List Fields} :
      sortedBy "created_at" (before.documents tenant.policies) =
        .ok documents →
      after.Same before →
      Ends tenant before after list
        (.ok (.values (documents.map Registry.answered)))
  | loaded {principal : Value} {policies : List Policy} :
      after.Same before →
      Ends tenant before after (load principal) (.ok (.policies policies))
  | created {stamp : Stamp} {data createdBy : Value} {policy : Policy}
      {now : Timestamp} :
      Policy.ofValue Policy.modelName data = .ok policy →
      stamp.now = .ok now →
      (before.documents tenant.policies).find?
          (Filter.admits [("name", .equals (.text policy.name))]) = none →
      after.Same
        (tenant.inserting before
          (Registry.newDocument policy createdBy stamp.fresh now)) →
      Ends tenant before after (create stamp data createdBy)
        (.ok (.value (Registry.answered
          (Registry.newDocument policy createdBy stamp.fresh now))))
  | updated {now : Except Clock.Fault Timestamp} {policy : Value}
      {given current : Fields} {id : ObjectId} {merged : Policy}
      {time : Timestamp} :
      policy.recordId? = some id →
      tenant.stored? before id = some current →
      Policy.ofFields (current.merge (Registry.effectiveChanges given)) =
        .ok merged →
      now = .ok time →
      ((Value.text merged.name).same (Registry.fieldOf current "name") =
          true ∨
        (before.documents tenant.policies).find?
          (Filter.admits
            [("name", .equals (.text merged.name)),
             ("_id", .differs (.id id))]) = none) →
      after.Same
        (tenant.overwriting before id (Registry.writtenFields merged time)) →
      Ends tenant before after (update now policy (.record given))
        (.ok (.value (Registry.answered
          (current.merge (Registry.writtenFields merged time)))))
  | deleted {policy : Value} {id : ObjectId} :
      policy.recordId? = some id →
      (before.documents tenant.policies).any (Filter.byId id).admits = true →
      after.Same (tenant.removing before id) →
      Ends tenant before after (delete policy)
        (.ok (.value (Registry.done "Policy deleted successfully")))
  | attached {principal policy : Value} {principalId policyId : ObjectId} :
      principal.recordId? = some principalId →
      policy.recordId? = some policyId →
      (tenant.stored? before policyId).isSome = true →
      (before.documents tenant.principals).any
        (Filter.byId principalId).admits = true →
      after.Same
        (tenant.relisting before principalId
          (.addToSet "policies" (.id policyId))) →
      Ends tenant before after (attach principal policy)
        (.ok (.value (Registry.done "Policy attached")))
  | detached {principal policy : Value} {principalId policyId : ObjectId} :
      principal.recordId? = some principalId →
      policy.recordId? = some policyId →
      (before.documents tenant.principals).any
        (Filter.byId principalId).admits = true →
      after.Same
        (tenant.relisting before principalId
          (.pull "policies" (.id policyId))) →
      Ends tenant before after (detach principal policy)
        (.ok (.value (Registry.done "Policy detached")))

section Parts

variable (tenant : Tenant) (before : Store)

theorem finish_requireId_of_some
    {value : Value} {id : ObjectId} (read : value.recordId? = some id)
    (subject : String) :
    Program.finish Program.undisturbed (Registry.requireId subject value)
        before =
      (.ok id, before) := by
  unfold Registry.requireId
  rw [read]
  rfl

theorem finish_requireId_of_none
    {value : Value} (unread : value.recordId? = none) (subject : String) :
    ∃ failure,
      Program.finish Program.undisturbed (Registry.requireId subject value)
          before =
        (.error failure, before) := by
  unfold Registry.requireId
  rw [unread]
  exact ⟨_, rfl⟩

theorem finish_validated (policy : Policy) :
    Program.finish Program.undisturbed (Registry.validated (.ok policy))
        before =
      (.ok policy, before) :=
  rfl

theorem finish_timed (now : Timestamp) :
    Program.finish Program.undisturbed (Registry.timed (.ok now)) before =
      (.ok now, before) :=
  rfl

theorem finish_stored (id : ObjectId) :
    ∃ left,
      left.Same before ∧
        Program.finish Program.undisturbed (Registry.stored tenant id)
            before =
          (match tenant.stored? before id with
          | some document => .ok document
          | none => .error (.refused Registry.policyNotFound), left) := by
  obtain ⟨left, same, searched⟩ :=
    Program.finish_query_of_reads (Deed.reads_findOne (Filter.byId id))
      tenant.policies before
  refine ⟨left, same, ?_⟩
  have replied :
      (Deed.findOne (Filter.byId id)).reply
          (before.documents tenant.policies) =
        tenant.stored? before id := rfl
  unfold Registry.stored
  rw [Program.finish_bind_of_ok searched, replied]
  cases tenant.stored? before id <;> rfl

theorem finish_hasNamesake (id : ObjectId) (name : String) :
    ∃ left,
      left.Same before ∧
        Program.finish Program.undisturbed
            (Registry.hasNamesake tenant id name) before =
          (.ok ((before.documents tenant.policies).find?
            (Filter.admits
              [("name", .equals (.text name)),
               ("_id", .differs (.id id))])).isSome, left) := by
  obtain ⟨left, same, searched⟩ :=
    Program.finish_query_of_reads
      (Deed.reads_findOne
        [("name", .equals (.text name)), ("_id", .differs (.id id))])
      tenant.policies before
  refine ⟨left, same, ?_⟩
  unfold Registry.hasNamesake
  rw [Program.finish_bind_of_ok searched]
  rfl

theorem finish_release (collection : String) (id : ObjectId) :
    Program.finish Program.undisturbed (Registry.release collection id)
        before =
      (.ok (),
        before.write collection
          (Tenant.released id (before.documents collection))) :=
  rfl

/-- Changing the list of a principal, once everything else was checked. -/
theorem finish_changeList
    (principal : ObjectId) (edit : ArrayEdit) (text : String) :
    Program.finish Program.undisturbed
        (Registry.changeList tenant principal edit text) before =
      (if (before.documents tenant.principals).any
          (Filter.byId principal).admits then
        .ok (Registry.done text)
      else .error (.refused Registry.principalNotFound),
        tenant.relisting before principal edit) := by
  have updated :
      Program.finish Program.undisturbed
          (Program.query tenant.principals
            (.updateOne (Filter.byId principal) edit) : Program Bool)
          before =
        (.ok ((before.documents tenant.principals).any
            (Filter.byId principal).admits),
          tenant.relisting before principal edit) := rfl
  unfold Registry.changeList
  refine (Program.finish_bind_of_ok updated).trans ?_
  cases (before.documents tenant.principals).any
      (Filter.byId principal).admits <;> rfl

theorem relisting_of_same
    {left : Store} (same : left.Same before) (principal : ObjectId)
    (edit : ArrayEdit) :
    (tenant.relisting left principal edit).Same
      (tenant.relisting before principal edit) := by
  unfold Tenant.relisting
  rw [same]
  exact same.write _ _

theorem relisting_same
    {principal : ObjectId}
    (absent :
      (before.documents tenant.principals).any
        (Filter.byId principal).admits = false)
    (edit : ArrayEdit) :
    (tenant.relisting before principal edit).Same before := by
  unfold Tenant.relisting
  rw [Store.replaceFirst_eq_self absent]
  exact before.write_documents_same tenant.principals

end Parts

/-! ## Every call ends in one of these ways -/

section Calls

variable (tenant : Tenant) (before : Store)

theorem run_eq_map
    {α : Type} {operation : Operation} {answer : α → Answer}
    {called : Program α}
    (program_eq : operation.program tenant = answer <$> called) :
    operation.run tenant before =
      ((Program.finish Program.undisturbed called before).1.map answer,
        (Program.finish Program.undisturbed called before).2) := by
  rw [run, program_eq, Program.finish_map]

theorem ends_get (policy : Value) :
    Ends tenant before ((get policy).run tenant before).2 (get policy)
      ((get policy).run tenant before).1 := by
  rw [run_eq_map tenant before rfl]
  unfold Registry.get
  cases read : policy.recordId? with
  | none =>
      obtain ⟨failure, refused⟩ :=
        finish_requireId_of_none before read "policy"
      rw [Program.finish_bind_of_error refused]
      exact .failed (.refl before)
  | some id =>
      obtain ⟨left, same, searched⟩ := finish_stored tenant before id
      rw [Program.finish_bind_of_ok
        (finish_requireId_of_some before read "policy")]
      cases found : tenant.stored? before id with
      | none =>
          rw [found] at searched
          rw [Program.finish_bind_of_error searched]
          exact .failed same
      | some document =>
          rw [found] at searched
          rw [Program.finish_bind_of_ok searched]
          exact .fetched read found same

theorem ends_list :
    Ends tenant before (list.run tenant before).2 list
      (list.run tenant before).1 := by
  rw [run_eq_map tenant before rfl]
  obtain ⟨left, same, sorted⟩ :=
    Program.finish_query_of_reads (Deed.reads_findSorted "created_at")
      tenant.policies before
  unfold Registry.list
  rw [Program.finish_bind_of_ok sorted]
  cases found :
      sortedBy "created_at" (before.documents tenant.policies) with
  | error fault =>
      simp only [Deed.reply, found]
      exact .failed same
  | ok documents =>
      simp only [Deed.reply, found]
      exact .listed found same

theorem ends_create (stamp : Stamp) (data createdBy : Value) :
    Ends tenant before ((create stamp data createdBy).run tenant before).2
      (create stamp data createdBy)
      ((create stamp data createdBy).run tenant before).1 := by
  rw [run_eq_map tenant before rfl]
  unfold Registry.create
  cases checked : Policy.ofValue Policy.modelName data with
  | error issues =>
      exact .failed (.refl before)
  | ok policy =>
      obtain ⟨left, same, searched⟩ :=
        Program.finish_query_of_reads
          (Deed.reads_findOne [("name", .equals (.text policy.name))])
          tenant.policies before
      rw [Program.finish_bind_of_ok (finish_validated before policy),
        Program.finish_bind_of_ok searched]
      cases found :
          (before.documents tenant.policies).find?
            (Filter.admits [("name", .equals (.text policy.name))]) with
      | some document =>
          simp only [Deed.reply, found]
          exact .failed same
      | none =>
          simp only [Deed.reply, found]
          cases shown : stamp.now with
          | error fault =>
              exact .failed same
          | ok now =>
              exact .created checked shown found (same.execute _)

/-- The last part of a change, when nothing speaks against the new name. -/
theorem ends_overwrite
    {policy : Value} {given current : Fields} {id : ObjectId}
    {merged : Policy} {left : Store}
    (now : Except Clock.Fault Timestamp)
    (read : policy.recordId? = some id)
    (found : tenant.stored? before id = some current)
    (checked :
      Policy.ofFields (current.merge (Registry.effectiveChanges given)) =
        .ok merged)
    (free :
      (Value.text merged.name).same (Registry.fieldOf current "name") =
          true ∨
        (before.documents tenant.policies).find?
          (Filter.admits
            [("name", .equals (.text merged.name)),
             ("_id", .differs (.id id))]) = none)
    (same : left.Same before)
    {reply :
      (time : Timestamp) →
        (Deed.findOneAndSet (Filter.byId id)
          (Registry.writtenFields merged time)).Reply →
          Program Value}
    (replies :
      ∀ time document,
        reply time (some document) = pure (Registry.answered document)) :
    let ended :=
      Program.finish Program.undisturbed
        (Registry.timed now >>= fun time =>
          Program.query tenant.policies
            (.findOneAndSet (Filter.byId id)
              (Registry.writtenFields merged time)) >>= reply time) left
    Ends tenant before ended.2 (update now policy (.record given))
      (ended.1.map .value) := by
  cases shown : now with
  | error fault =>
      exact .failed same
  | ok time =>
      have foundAgain :
          (left.documents tenant.policies).find? (Filter.byId id).admits =
            some current := by
        rw [same]
        exact found
      have overwritten :=
        Program.finish_query_undisturbed tenant.policies
          (.findOneAndSet (Filter.byId id)
            (Registry.writtenFields merged time)) left
      intro ended
      simp only [ended]
      rw [Program.finish_bind_of_ok (finish_timed left time),
        Program.finish_bind_of_ok overwritten]
      simp only [Deed.reply, foundAgain, Option.map_some, replies]
      exact .updated read found checked rfl free (same.execute _)

theorem ends_update
    (now : Except Clock.Fault Timestamp) (policy changes : Value) :
    Ends tenant before ((update now policy changes).run tenant before).2
      (update now policy changes)
      ((update now policy changes).run tenant before).1 := by
  rw [run_eq_map tenant before rfl]
  unfold Registry.update
  cases read : policy.recordId? with
  | none =>
      obtain ⟨failure, refused⟩ :=
        finish_requireId_of_none before read "policy"
      rw [Program.finish_bind_of_error refused]
      exact .failed (.refl before)
  | some id =>
      obtain ⟨left, same, searched⟩ := finish_stored tenant before id
      rw [Program.finish_bind_of_ok
        (finish_requireId_of_some before read "policy")]
      cases found : tenant.stored? before id with
      | none =>
          rw [found] at searched
          rw [Program.finish_bind_of_error searched]
          exact .failed same
      | some current =>
          rw [found] at searched
          rw [Program.finish_bind_of_ok searched]
          cases changes with
          | record given =>
              simp only
              cases checked : Policy.ofFields
                  (current.merge (Registry.effectiveChanges given)) with
              | error issues =>
                  exact .failed same
              | ok merged =>
                  rw [Program.finish_bind_of_ok
                    (finish_validated left merged)]
                  cases kept :
                      (Value.text merged.name).same
                        (Registry.fieldOf current "name") with
                  | true =>
                      have unasked :
                          Program.finish Program.undisturbed (pure false)
                              left =
                            (.ok false, left) := rfl
                      simp only [Bool.not_true, Bool.false_eq_true, if_false]
                      rw [Program.finish_bind_of_ok unasked]
                      exact ends_overwrite tenant before now read found
                        checked (.inl kept) same fun _ _ => rfl
                  | false =>
                      obtain ⟨last, lastSame, asked⟩ :=
                        finish_hasNamesake tenant left id merged.name
                      rw [same] at asked
                      simp only [Bool.not_false, if_true]
                      rw [Program.finish_bind_of_ok asked]
                      cases other :
                          (before.documents tenant.policies).find?
                            (Filter.admits
                              [("name", .equals (.text merged.name)),
                               ("_id", .differs (.id id))]) with
                      | some document =>
                          exact .failed (lastSame.trans same)
                      | none =>
                          simp only [Option.isSome_none, Bool.false_eq_true,
                            if_false]
                          exact ends_overwrite tenant before now read found
                            checked (.inr other) (lastSame.trans same)
                            fun _ _ => rfl
          | _ =>
              exact .failed same

/-- Deleting removes the policy and releases it, or finds none. -/
theorem finish_delete
    {policy : Value} {id : ObjectId} (read : policy.recordId? = some id) :
    Program.finish Program.undisturbed (Registry.delete tenant policy)
        before =
      if (before.documents tenant.policies).any (Filter.byId id).admits then
        (.ok (Registry.done "Policy deleted successfully"),
          tenant.removing before id)
      else
        (.error (.refused Registry.policyNotFound),
          before.write tenant.policies
            (Store.dropFirst (Filter.byId id).admits
              (before.documents tenant.policies))) := by
  have dropped :
      Program.finish Program.undisturbed
          (Program.query tenant.policies (.deleteOne (Filter.byId id)) :
            Program Bool) before =
        (.ok ((before.documents tenant.policies).any
            (Filter.byId id).admits),
          before.write tenant.policies
            (Store.dropFirst (Filter.byId id).admits
              (before.documents tenant.policies))) := rfl
  unfold Registry.delete
  rw [Program.finish_bind_of_ok
    (finish_requireId_of_some before read "policy")]
  refine (Program.finish_bind_of_ok dropped).trans ?_
  cases (before.documents tenant.policies).any (Filter.byId id).admits with
  | false =>
      rfl
  | true =>
      simp only [if_true]
      rw [Program.finish_bind_of_ok (finish_release _ _ _),
        Program.finish_bind_of_ok (finish_release _ _ _),
        Store.documents_write_of_ne _ tenant.policies_ne_principals.symm,
        Store.documents_write_of_ne _ tenant.principals_ne_groups.symm,
        Store.documents_write_of_ne _ tenant.policies_ne_groups.symm]
      rfl

theorem ends_delete (policy : Value) :
    Ends tenant before ((delete policy).run tenant before).2 (delete policy)
      ((delete policy).run tenant before).1 := by
  rw [run_eq_map tenant before rfl]
  cases read : policy.recordId? with
  | none =>
      obtain ⟨failure, refused⟩ :=
        finish_requireId_of_none before read "policy"
      unfold Registry.delete
      rw [Program.finish_bind_of_error refused]
      exact .failed (.refl before)
  | some id =>
      rw [finish_delete tenant before read]
      cases found :
          (before.documents tenant.policies).any
            (Filter.byId id).admits with
      | false =>
          rw [Store.dropFirst_eq_self found]
          exact .failed (before.write_documents_same tenant.policies)
      | true =>
          exact .deleted read found (.refl _)

theorem ends_attach (principal policy : Value) :
    Ends tenant before ((attach principal policy).run tenant before).2
      (attach principal policy)
      ((attach principal policy).run tenant before).1 := by
  rw [run_eq_map tenant before rfl]
  unfold Registry.attach
  cases readPrincipal : principal.recordId? with
  | none =>
      obtain ⟨failure, refused⟩ :=
        finish_requireId_of_none before readPrincipal "principal"
      rw [Program.finish_bind_of_error refused]
      exact .failed (.refl before)
  | some principalId =>
      rw [Program.finish_bind_of_ok
        (finish_requireId_of_some before readPrincipal "principal")]
      cases readPolicy : policy.recordId? with
      | none =>
          obtain ⟨failure, refused⟩ :=
            finish_requireId_of_none before readPolicy "policy"
          rw [Program.finish_bind_of_error refused]
          exact .failed (.refl before)
      | some policyId =>
          obtain ⟨left, same, searched⟩ :=
            finish_stored tenant before policyId
          rw [Program.finish_bind_of_ok
            (finish_requireId_of_some before readPolicy "policy")]
          cases found : tenant.stored? before policyId with
          | none =>
              rw [found] at searched
              rw [Program.finish_bind_of_error searched]
              exact .failed same
          | some document =>
              rw [found] at searched
              rw [Program.finish_bind_of_ok searched, finish_changeList]
              cases present :
                  (left.documents tenant.principals).any
                    (Filter.byId principalId).admits with
              | false =>
                  exact .failed
                    ((relisting_same tenant left present _).trans same)
              | true =>
                  rw [same] at present
                  exact .attached readPrincipal readPolicy
                    (Option.isSome_of_eq_some found) present
                    (relisting_of_same tenant before same _ _)

theorem ends_detach (principal policy : Value) :
    Ends tenant before ((detach principal policy).run tenant before).2
      (detach principal policy)
      ((detach principal policy).run tenant before).1 := by
  rw [run_eq_map tenant before rfl]
  unfold Registry.detach
  cases readPrincipal : principal.recordId? with
  | none =>
      obtain ⟨failure, refused⟩ :=
        finish_requireId_of_none before readPrincipal "principal"
      rw [Program.finish_bind_of_error refused]
      exact .failed (.refl before)
  | some principalId =>
      rw [Program.finish_bind_of_ok
        (finish_requireId_of_some before readPrincipal "principal")]
      cases readPolicy : policy.recordId? with
      | none =>
          obtain ⟨failure, refused⟩ :=
            finish_requireId_of_none before readPolicy "policy"
          rw [Program.finish_bind_of_error refused]
          exact .failed (.refl before)
      | some policyId =>
          rw [Program.finish_bind_of_ok
            (finish_requireId_of_some before readPolicy "policy"),
            finish_changeList]
          cases present :
              (before.documents tenant.principals).any
                (Filter.byId principalId).admits with
          | false =>
              exact .failed (relisting_same tenant before present _)
          | true =>
              exact .detached readPrincipal readPolicy present (.refl _)

theorem ends_load (principal : Value) :
    Ends tenant before ((load principal).run tenant before).2 (load principal)
      ((load principal).run tenant before).1 := by
  rw [run_eq_map tenant before rfl]
  have same :=
    (Registry.readOnly_effective tenant principal).same before
  cases (Program.finish Program.undisturbed
      (Registry.effective tenant principal) before).1 with
  | error failure =>
      exact .failed same
  | ok policies =>
      exact .loaded same

/-- Every call ends in one of the ways that `Ends` lists. -/
theorem ends_run (operation : Operation) :
    Ends tenant before (operation.run tenant before).2 operation
      (operation.run tenant before).1 := by
  cases operation with
  | create stamp data createdBy =>
      exact ends_create tenant before stamp data createdBy
  | get policy =>
      exact ends_get tenant before policy
  | list =>
      exact ends_list tenant before
  | update now policy changes =>
      exact ends_update tenant before now policy changes
  | delete policy =>
      exact ends_delete tenant before policy
  | attach principal policy =>
      exact ends_attach tenant before principal policy
  | detach principal policy =>
      exact ends_detach tenant before principal policy
  | load principal =>
      exact ends_load tenant before principal

end Calls

end Operation

/-! ## Runs of calls -/

/-- One call of a run: the store before it, what it gave, and the store after it. -/
structure Event where
  before : Store
  operation : Operation
  result : Except Failure Operation.Answer
  after : Store

/-- The calls of a run, one after the other. -/
def Tenant.trace (tenant : Tenant) : Store → List Operation → List Event
  | _, [] => []
  | store, operation :: rest =>
      let left := operation.run tenant store
      ⟨store, operation, left.1, left.2⟩ :: tenant.trace left.2 rest

/-- What every call keeps holds before each call of a run, and the call ends as calls
end. -/
theorem Tenant.ends_of_mem_trace
    (tenant : Tenant) (invariant : Store → Prop)
    (kept :
      ∀ event : Event, invariant event.before →
        Operation.Ends tenant event.before event.after event.operation
          event.result →
        invariant event.after)
    {start : Store} (holds : invariant start) (operations : List Operation) :
    ∀ event ∈ tenant.trace start operations,
      invariant event.before ∧
        Operation.Ends tenant event.before event.after event.operation
          event.result := by
  induction operations generalizing start with
  | nil =>
      intro event member
      cases member
  | cons operation rest inductionHypothesis =>
      intro event member
      have ends := Operation.ends_run tenant start operation
      unfold trace at member
      rcases List.mem_cons.mp member with rfl | later
      · exact ⟨holds, ends⟩
      · have held := kept ⟨start, operation, _, _⟩ holds ends
        exact inductionHypothesis held event later

/-- What every allowed call keeps holds after each call of a run. -/
theorem Tenant.trace_invariant
    (tenant : Tenant) (invariant : Store → Prop) {allowed : Event → Prop}
    (kept :
      ∀ event : Event, invariant event.before → allowed event →
        Operation.Ends tenant event.before event.after event.operation
          event.result →
        invariant event.after)
    {start : Store} (holds : invariant start) {operations : List Operation}
    (all : ∀ event ∈ tenant.trace start operations, allowed event) :
    ∀ event ∈ tenant.trace start operations, invariant event.after := by
  induction operations generalizing start with
  | nil =>
      intro event member
      cases member
  | cons operation rest inductionHypothesis =>
      intro event member
      unfold trace at all member
      have first :=
        kept _ holds (all _ (List.mem_cons_self ..))
          (Operation.ends_run tenant start operation)
      rcases List.mem_cons.mp member with rfl | later
      · exact first
      · exact
          inductionHypothesis first
            (fun event member => all event (List.mem_cons_of_mem _ member))
            event later

end AccessControl
