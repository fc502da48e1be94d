import AccessControl.Proofs.Revision

/-!
# Calls that give names

A policy gets its name when it is created or changed.  Both calls look for a policy of
that name first, and write only when none is found, or when the policy keeps the name
that it was read with.  How far such a call is, is its stage; each of its steps is one
of `Stage.Step`.
-/

namespace AccessControl

namespace Registry

/-- The answer shows a policy with this identifier and this name. -/
def Shows (id : ObjectId) (name : String) (answer : Value) : Prop :=
  ∃ fields : Fields,
    answer = .record fields ∧
      fields.get? "_id" = some (.text id.hex) ∧
      fields.get? "name" = some (.text name)

theorem shows_answered
    {document : Fields} {id : ObjectId} {name : String}
    (identified : document.get? "_id" = some (.id id))
    (called : document.get? "name" = some (.text name)) :
    Shows id name (answered document) := by
  refine ⟨Value.serializedFields document, rfl, ?_, ?_⟩
  · rw [Value.get?_serializedFields, identified]
    rfl
  · rw [Value.get?_serializedFields, called]
    rfl

theorem Shows.unique
    {id other : ObjectId} {name otherName : String} {answer : Value}
    (shown : Shows id name answer)
    (shownToo : Shows other otherName answer) :
    id = other ∧ name = otherName := by
  obtain ⟨fields, rfl, identified, called⟩ := shown
  obtain ⟨_, ⟨⟩, identifiedToo, calledToo⟩ := shownToo
  rw [identified] at identifiedToo
  rw [called] at calledToo
  have sameHex : id.hex = other.hex := by
    simpa using identifiedToo
  have read := ObjectId.ofHex?_hex id
  rw [sameHex, ObjectId.ofHex?_hex] at read
  exact ⟨(Option.some.inj read).symm, by simpa using calledToo⟩

end Registry

/-- A call that stores a policy under a name. -/
inductive Naming where
  | creation (stamp : Stamp) (data createdBy : Value)
  | change (now : Except Clock.Fault Timestamp) (policy changes : Value)

namespace Naming

def program (tenant : Tenant) : Naming → Program Value
  | creation stamp data createdBy =>
      Registry.create tenant stamp data createdBy
  | change now policy changes => Registry.update tenant now policy changes

/-- The identifier that the call gives to a new document. -/
def fresh? : Naming → Option ObjectId
  | creation stamp _ _ => some stamp.fresh
  | change _ _ _ => none

/-- Only the answer is left, perhaps behind some notes. -/
inductive Concluding (id : ObjectId) (name : String) : Program Value → Prop
  | done {answer : Value} :
      Registry.Shows id name answer →
      Concluding id name (.done (.ok answer))
  | note (record : LogRecord) {next : Program Value} :
      Concluding id name next → Concluding id name (.note record next)

/-- The next step writes the name. -/
inductive Writing (tenant : Tenant) (call : Naming) (id : ObjectId)
    (name : String) : Program Value → Prop
  | inserts {document : Fields} {next : Unit → Program Value} :
      call.fresh? = some id →
      document.get? "_id" = some (.id id) →
      document.get? "name" = some (.text name) →
      Concluding id name (next ()) →
      Writing tenant call id name
        (.ask ⟨tenant.policies, .insert document⟩ next)
  | overwrites {changes : Fields} {next : Option Fields → Program Value} :
      call.fresh? = none →
      (∀ document : Fields,
        (document.merge changes).get? "_id" = document.get? "_id" ∧
          (document.merge changes).get? "name" = some (.text name)) →
      (next none).Failed →
      (∀ document,
        next (some document) = .done (.ok (Registry.answered document))) →
      Writing tenant call id name
        (.ask ⟨tenant.policies, .findOneAndSet (Filter.byId id) changes⟩
          next)

/-- The call has failed, or its next step looks for a policy of the name that it is
going to write. -/
inductive Looking (tenant : Tenant) (call : Naming) : Program Value → Prop
  | failed {program : Program Value} :
      program.Failed → Looking tenant call program
  | looks {filter : Filter} {id : ObjectId} {name : String}
      {next : Option Fields → Program Value} :
      filter.Seeks id name →
      (∀ namesake,
        next (some namesake) =
          .done (.error (.refused Registry.policyExists))) →
      (next none).Failed ∨ Writing tenant call id name (next none) →
      Looking tenant call
        (.ask ⟨tenant.policies, .findOne filter⟩ next)

/-- What the call does with a document that it has read: it looks for a policy of the
new name, or writes the name that the document has. -/
def Resuming (tenant : Tenant) (call : Naming) (id : ObjectId)
    (current : Fields) (program : Program Value) : Prop :=
  Looking tenant call program ∨
    ∃ name, current.get? "name" = some (.text name) ∧
      Writing tenant call id name program

/-- The call has not got leave to write a name. -/
inductive Pending (tenant : Tenant) (call : Naming) : Program Value → Prop
  | looking {program : Program Value} :
      Looking tenant call program → Pending tenant call program
  | reads {id : ObjectId} {next : Option Fields → Program Value} :
      (next none).Failed →
      (∀ current, Resuming tenant call id current (next (some current))) →
      Pending tenant call
        (.ask ⟨tenant.policies, .findOne (Filter.byId id)⟩ next)

section Beginning

variable (tenant : Tenant)

theorem pending_creation (stamp : Stamp) (data createdBy : Value) :
    Pending tenant (creation stamp data createdBy)
      (Registry.create tenant stamp data createdBy) := by
  apply Pending.looking
  unfold Registry.create
  cases Policy.ofValue Policy.modelName data with
  | error issues =>
      exact .failed ⟨_, rfl⟩
  | ok policy =>
      refine .looks (Filter.seeks_everywhere stamp.fresh policy.name)
        (fun namesake => rfl) ?_
      cases shown : stamp.now with
      | error fault =>
          exact .inl ⟨_, rfl⟩
      | ok now =>
          refine .inr (.inserts rfl
            (Operation.get?_newDocument_id policy createdBy stamp.fresh now)
            (Operation.get?_newDocument_name policy createdBy stamp.fresh now)
            ?_)
          exact .note _ (.done (Registry.shows_answered rfl rfl))

theorem writing_overwrite
    {call : Naming} (changing : call.fresh? = none)
    (now : Except Clock.Fault Timestamp) (id : ObjectId) (merged : Policy) :
    (Registry.overwrite tenant now id merged).Failed ∨
      Writing tenant call id merged.name
        (Registry.overwrite tenant now id merged) := by
  unfold Registry.overwrite
  cases shown : now with
  | error fault =>
      exact .inl ⟨_, rfl⟩
  | ok time =>
      right
      refine .overwrites changing (fun document => ?_) ⟨_, rfl⟩ fun _ => rfl
      exact
        ⟨Operation.get?_overwritten_id document merged time,
          Operation.get?_overwritten_name document merged time⟩

theorem resuming_resumed
    {call : Naming} (changing : call.fresh? = none)
    (now : Except Clock.Fault Timestamp) (id : ObjectId)
    (given current : Fields) :
    Resuming tenant call id current
      (Registry.resumed tenant now id given current) := by
  unfold Registry.resumed
  cases Policy.ofFields
      (current.merge (Registry.effectiveChanges given)) with
  | error issues =>
      exact .inl (.failed ⟨_, rfl⟩)
  | ok merged =>
      have validated : Registry.validated (.ok merged) = .done (.ok merged) :=
        rfl
      have writing := writing_overwrite tenant changing now id merged
      simp only [validated, bind, Program.bind]
      cases kept :
          (Value.text merged.name).same
            (Registry.fieldOf current "name") with
      | true =>
          have called :
              current.get? "name" = some (.text merged.name) :=
            (Fields.get?_eq_some_iff_fieldOf (by simp)).mpr
              (Value.text_same_iff.mp kept)
          rcases writing with failed | writing
          · exact .inl (.failed failed)
          · exact .inr ⟨merged.name, called, writing⟩
      | false =>
          exact
            .inl
              (.looks (Filter.seeks_elsewhere id merged.name) (fun _ => rfl)
                writing)

theorem pending_change
    (now : Except Clock.Fault Timestamp) (policy changes : Value) :
    Pending tenant (change now policy changes)
      (Registry.update tenant now policy changes) := by
  cases read : policy.recordId? with
  | none =>
      have refused :
          (Registry.update tenant now policy changes).Failed := by
        unfold Registry.update Registry.requireId
        rw [read]
        exact ⟨_, rfl⟩
      exact .looking (.failed refused)
  | some id =>
      cases changes with
      | record given =>
          rw [Registry.update_eq_ask tenant now read]
          refine .reads ⟨_, rfl⟩ fun current => ?_
          exact resuming_resumed tenant rfl now id given current
      | _ =>
          unfold Registry.update Registry.requireId
          rw [read]
          refine .reads ⟨_, rfl⟩ fun current => ?_
          exact .inl (.failed ⟨_, rfl⟩)

theorem pending_program (call : Naming) :
    Pending tenant call (call.program tenant) := by
  cases call with
  | creation stamp data createdBy =>
      exact pending_creation tenant stamp data createdBy
  | change now policy changes =>
      exact pending_change tenant now policy changes

end Beginning

end Naming

namespace Program

variable (tenant : Tenant) (store : Store)

theorem advance_findOne
    (filter : Filter) (next : Option Fields → Program Value) :
    (ask ⟨tenant.policies, .findOne filter⟩ next).advance store =
      next ((tenant.holdings store).policies.find? filter.admits) :=
  rfl

theorem holdings_effect_findOne
    (filter : Filter) (next : Option Fields → Program Value) :
    tenant.holdings
        ((ask ⟨tenant.policies, .findOne filter⟩ next).effect
          store) =
      tenant.holdings store :=
  tenant.holdings_of_same
    (Store.execute_same_of_reads (Deed.reads_findOne filter) _ store)

theorem advance_findOneAndSet
    (filter : Filter) (changes : Fields)
    (next : Option Fields → Program Value) :
    (ask ⟨tenant.policies, .findOneAndSet filter changes⟩
        next).advance store =
      next
        (((tenant.holdings store).policies.find? filter.admits).map
          (Fields.merge · changes)) :=
  rfl

theorem policies_effect_findOneAndSet
    (id : ObjectId) (changes : Fields)
    (next : Option Fields → Program Value) :
    (tenant.holdings
        ((ask
          ⟨tenant.policies, .findOneAndSet (Filter.byId id) changes⟩
          next).effect store)).policies =
      Store.replaceFirst (Filter.byId id).admits (Fields.merge · changes)
        (tenant.holdings store).policies :=
  congrArg Holdings.policies (tenant.holdings_overwriting store id changes)

end Program

/-! ## Stages -/

/-- How far a call is: it has no leave to write a name yet, or it has leave to write
this name, or it has written it. -/
inductive Stage where
  | pending
  | cleared (id : ObjectId) (name : String)
  | written (id : ObjectId) (name : String)

namespace Stage

/-- The program of the call is as far as the stage says. -/
def Fits (tenant : Tenant) (call : Naming) : Stage → Program Value → Prop
  | pending, program => Naming.Pending tenant call program
  | cleared id name, program => Naming.Writing tenant call id name program
  | written id name, program => Naming.Concluding id name program

/-- What one step of a call can do to its stage and to the policies. -/
inductive Step (call : Naming) (policies : List Fields) :
    Stage → Stage → List Fields → Prop
  | rests (stage : Stage) : Step call policies stage stage policies
  | fails (id : ObjectId) (name : String) :
      Step call policies (cleared id name) pending policies
  | clears {id : ObjectId} {name : String} :
      (∀ document ∈ policies,
        document.get? "name" = some (.text name) →
          hasId id document = true) →
      Step call policies pending (cleared id name) policies
  | inserts {id : ObjectId} {name : String} {document : Fields} :
      call.fresh? = some id →
      document.get? "_id" = some (.id id) →
      document.get? "name" = some (.text name) →
      Step call policies (cleared id name) (written id name)
        (policies ++ [document])
  | overwrites {id : ObjectId} {name : String} {earlier later : List Fields}
      {current changed : Fields} :
      call.fresh? = none →
      policies = earlier ++ current :: later →
      hasId id current = true →
      changed.get? "_id" = current.get? "_id" →
      changed.get? "name" = some (.text name) →
      Step call policies (cleared id name) (written id name)
        (earlier ++ changed :: later)

section Steps

variable {tenant : Tenant} {call : Naming} {program : Program Value}
  {store : Store}

theorem step_of_looking
    (looking : Naming.Looking tenant call program)
    (keyed : Keyed (tenant.holdings store).policies) :
    ∃ next : Stage,
      next.Fits tenant call (program.advance store) ∧
        Step call (tenant.holdings store).policies pending next
          (tenant.holdings (program.effect store)).policies := by
  cases looking with
  | failed failed =>
      obtain ⟨failure, rfl⟩ := failed
      exact ⟨pending, .looking (.failed ⟨failure, rfl⟩), .rests pending⟩
  | @looks filter id name next seeks taken free =>
      rw [Program.holdings_effect_findOne, Program.advance_findOne]
      cases found : (tenant.holdings store).policies.find? filter.admits with
      | some namesake =>
          refine ⟨pending, .looking (.failed ?_), .rests pending⟩
          exact ⟨_, taken namesake⟩
      | none =>
          rcases free with failed | writing
          · exact ⟨pending, .looking (.failed failed), .rests pending⟩
          · refine ⟨cleared id name, writing, .clears ?_⟩
            intro document member called
            exact seeks.hasId_of_find?_eq_none keyed found member called

theorem step_of_pending
    (isPending : Naming.Pending tenant call program)
    (keyed : Keyed (tenant.holdings store).policies)
    (apart : Fields.Apart "name" (tenant.holdings store).policies) :
    ∃ next : Stage,
      next.Fits tenant call (program.advance store) ∧
        Step call (tenant.holdings store).policies pending next
          (tenant.holdings (program.effect store)).policies := by
  cases isPending with
  | looking looking =>
      exact step_of_looking looking keyed
  | @reads id next missing resumes =>
      rw [Program.holdings_effect_findOne, Program.advance_findOne]
      cases found :
          (tenant.holdings store).policies.find?
            (Filter.byId id).admits with
      | none =>
          exact ⟨pending, .looking (.failed missing), .rests pending⟩
      | some current =>
          have member := List.mem_of_find?_eq_some found
          rcases resumes current with looking | ⟨name, called, writing⟩
          · exact ⟨pending, .looking looking, .rests pending⟩
          · refine ⟨cleared id name, writing, .clears ?_⟩
            intro document documentMember documentCalled
            have only :=
              apart.eq_of_get?_eq documentMember member documentCalled
                called (Value.sharp_text name)
            rw [only, ← keyed.admits_byId_iff member]
            exact List.find?_some found

theorem step_of_writing
    {id : ObjectId} {name : String}
    (writing : Naming.Writing tenant call id name program)
    (keyed : Keyed (tenant.holdings store).policies) :
    ∃ next : Stage,
      next.Fits tenant call (program.advance store) ∧
        Step call (tenant.holdings store).policies (cleared id name) next
          (tenant.holdings (program.effect store)).policies := by
  cases writing with
  | @inserts document next fresh identified called concluding =>
      refine ⟨written id name, concluding, ?_⟩
      have inserted :=
        congrArg Holdings.policies (tenant.holdings_inserting store document)
      exact inserted ▸ .inserts fresh identified called
  | @overwrites changes next changing merges missing answers =>
      rw [Program.policies_effect_findOneAndSet,
        Program.advance_findOneAndSet]
      cases found :
          (tenant.holdings store).policies.find?
            (Filter.byId id).admits with
      | none =>
          have absent :
              (tenant.holdings store).policies.any
                  (Filter.byId id).admits =
                false := by
            rw [List.any_eq_false]
            exact List.find?_eq_none.mp found
          rw [Store.replaceFirst_eq_self absent]
          exact ⟨pending, .looking (.failed missing), .fails id name⟩
      | some current =>
          obtain ⟨earlier, later, split, admitted, -, replaced, -⟩ :=
            Store.exists_first found
          have member := List.mem_of_find?_eq_some found
          have has := (keyed.admits_byId_iff member).mp admitted
          obtain ⟨sameId, called⟩ := merges current
          rw [replaced]
          refine ⟨written id name, ?_,
            .overwrites changing split has sameId called⟩
          have identified :
              (current.merge changes).get? "_id" = some (.id id) :=
            sameId.trans (hasId_iff.mp has)
          rw [Option.map_some, answers]
          exact .done (Registry.shows_answered identified called)

/-- A step takes a call from stage to stage.  What it has read is told by the names of
the policies only as long as these are different. -/
theorem Fits.step
    {stage : Stage} (fits : stage.Fits tenant call program)
    (keyed : Keyed (tenant.holdings store).policies)
    (apart :
      stage = pending →
        Fields.Apart "name" (tenant.holdings store).policies) :
    ∃ next : Stage,
      next.Fits tenant call (program.advance store) ∧
        Step call (tenant.holdings store).policies stage next
          (tenant.holdings (program.effect store)).policies := by
  cases stage with
  | pending =>
      exact step_of_pending fits keyed (apart rfl)
  | cleared id name =>
      exact step_of_writing fits keyed
  | written id name =>
      cases fits with
      | done answered =>
          exact ⟨written id name, .done answered, .rests _⟩
      | note record concluding =>
          exact ⟨written id name, concluding, .rests _⟩

end Steps

end Stage

end AccessControl
