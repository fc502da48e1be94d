import AccessControl.Proofs.Acceptance
import AccessControl.Proofs.Endpoint

/-!
# Policies that are read back

A policy is stored as its dump, and it is checked again whenever it is loaded.
In a dump a number without a finite value is null, and null is no number.  So an
accepted policy comes back from its dump as it was when all the numbers that its
condition expects are finite, and otherwise it does not come back at all:
`restored_iff_finiteNumbers`.
-/

namespace AccessControl

namespace Value

theorem finiteFields_eq_self
    {fields : Fields} (same : ∀ field ∈ fields, field.2.finite = field.2) :
    finiteFields fields = fields := by
  induction fields with
  | nil =>
      rfl
  | cons field rest inductionHypothesis =>
      rw [List.forall_mem_cons] at same
      rw [finiteFields, same.1, inductionHypothesis same.2]

theorem mem_finiteFields
    {fields : Fields} {field : String × Value} (member : field ∈ fields) :
    (field.1, field.2.finite) ∈ finiteFields fields := by
  induction fields with
  | nil =>
      cases member
  | cons first rest inductionHypothesis =>
      rw [finiteFields, List.mem_cons]
      rcases List.mem_cons.mp member with rfl | later
      · exact Or.inl rfl
      · exact Or.inr (inductionHypothesis later)

end Value

namespace Condition

/-- Every number that is expected has a finite value. -/
def FiniteNumbers (condition : Condition) : Prop :=
  ∀ entry ∈ condition, ∀ expectations, entry.2 = .record expectations →
    ∀ expectation ∈ expectations, ∀ number,
      expectation.2 = .number number → number.isFinite = true

theorem finiteFields_of_fits
    {condition : Condition} (fits : condition.Fits)
    (finite : condition.FiniteNumbers) :
    Value.finiteFields condition = condition := by
  refine Value.finiteFields_eq_self fun entry member => ?_
  obtain ⟨operator, expectations, -, recorded, fitting⟩ := fits entry member
  have same : Value.finiteFields expectations = expectations := by
    refine Value.finiteFields_eq_self fun expectation inside => ?_
    have admitted := fitting expectation inside
    cases held : expectation.2 with
    | text text =>
        rfl
    | boolean value =>
        rfl
    | number number =>
        have isFinite :=
          finite entry member expectations recorded expectation inside
            number held
        rw [Value.finite, if_pos isFinite]
    | _ =>
        rw [held] at admitted
        cases expected : operator.expects <;> rw [expected] at admitted <;>
          cases admitted
  rw [recorded, Value.finite, same]

/-- A condition whose dump fits had no number without a finite value: null is of no
kind that an operator expects. -/
theorem finiteNumbers_of_fits
    {condition : Condition}
    (fits : Condition.Fits (Value.finiteFields condition)) :
    condition.FiniteNumbers := by
  intro entry member expectations recorded expectation inside number held
  obtain ⟨operator, dumped, -, dumpedRecord, fitting⟩ :=
    fits _ (Value.mem_finiteFields member)
  rw [recorded, Value.finite, Value.record.injEq] at dumpedRecord
  have admitted :=
    fitting _ (dumpedRecord ▸ Value.mem_finiteFields inside)
  cases finite : number.isFinite with
  | true =>
      rfl
  | false =>
      have null : expectation.2.finite = .null := by
        rw [held, Value.finite, finite, if_neg Bool.false_ne_true]
      rw [null] at admitted
      cases expected : operator.expects <;> rw [expected] at admitted <;>
        cases admitted

end Condition

namespace Policy

variable {policy : Policy}

/-- Every number that the condition expects, if there is one, has a finite value. -/
def FiniteNumbers (policy : Policy) : Prop :=
  ∀ entries ∈ policy.condition, entries.FiniteNumbers

theorem finite_condition
    (formed : policy.WellFormed) (finite : policy.FiniteNumbers) :
    (Condition.toValue policy.condition).finite =
      Condition.toValue policy.condition := by
  cases held : policy.condition with
  | none =>
      rfl
  | some entries =>
      have same :=
        Condition.finiteFields_of_fits (formed.fits entries held)
          (finite entries held)
      rw [Condition.toValue, Value.finite, same]

theorem ofFields_dump
    (formed : policy.WellFormed) (finite : policy.FiniteNumbers) :
    ofFields policy.dump = .ok policy :=
  ofFields_eq_ok_iff_spelledBy.mpr
    ⟨⟨rfl, rfl, rfl, rfl, finite_condition formed finite⟩, formed⟩

/-- Whatever is read from the dump of a policy, the policy has finite numbers. -/
theorem finiteNumbers_of_ofFields_dump
    {read : Policy} (restored : ofFields policy.dump = .ok read) :
    policy.FiniteNumbers := by
  obtain ⟨spelled, formed⟩ := ofFields_eq_ok_iff_spelledBy.mp restored
  have dumped :
      (Condition.toValue policy.condition).finite =
        Condition.toValue read.condition :=
    spelled.condition
  intro entries held
  rw [Option.mem_def.mp held, Condition.toValue, Value.finite] at dumped
  cases readHeld : read.condition with
  | none =>
      rw [readHeld] at dumped
      cases dumped
  | some others =>
      rw [readHeld, Condition.toValue, Value.record.injEq] at dumped
      apply Condition.finiteNumbers_of_fits
      rw [dumped]
      exact formed.fits others readHeld

theorem ofFields_dump_eq_ok_iff (formed : policy.WellFormed) :
    ofFields policy.dump = .ok policy ↔ policy.FiniteNumbers :=
  ⟨finiteNumbers_of_ofFields_dump, ofFields_dump formed⟩

theorem ofFields_dump_eq_error_iff (formed : policy.WellFormed) :
    (∃ issues, ofFields policy.dump = .error issues) ↔
      ¬ policy.FiniteNumbers := by
  constructor
  · rintro ⟨issues, refused⟩ finite
    rw [ofFields_dump formed finite] at refused
    cases refused
  · intro infinite
    cases read : ofFields policy.dump with
    | error issues =>
        exact ⟨issues, rfl⟩
    | ok other =>
        exact absurd (finiteNumbers_of_ofFields_dump read) infinite

theorem wellFormed_of_ofValue
    {model : String} {document : Value}
    (accepted : ofValue model document = .ok policy) :
    policy.WellFormed := by
  cases document with
  | record fields =>
      exact (ofFields_eq_ok_iff_spelledBy.mp accepted).2
  | _ =>
      cases accepted

/-- What stands in a document beside the fields of a policy does not matter. -/
theorem ofFields_eq_ok_iff_of_get?_eq
    {fields others : Fields}
    (same :
      ∀ name ∈ ["name", "effect", "actions", "resources", "condition"],
        others.get? name = fields.get? name) :
    ofFields others = .ok policy ↔ ofFields fields = .ok policy := by
  rw [ofFields_eq_ok_iff_spelledBy, ofFields_eq_ok_iff_spelledBy]
  constructor
  · rintro ⟨spelled, formed⟩
    exact
      ⟨spelled.of_get?_eq fun name member => (same name member).symm, formed⟩
  · rintro ⟨spelled, formed⟩
    exact ⟨spelled.of_get?_eq same, formed⟩

end Policy

/-! ## Policies that are stored and loaded -/

namespace Registry

variable {tenant : Tenant} {store : Store}

/-- Of the documents that are fetched for one identifier, the last one counts. -/
theorem documentOf_fetched_last
    (earlier : List Fields) {document : Fields} {id : ObjectId}
    (has : hasId id document = true) :
    documentOf
        ((earlier ++ [document]).filter
          (Filter.admits [("_id", .oneOf [.id id])])) (.id id) =
      some document := by
  have held := hasId_iff.mp has
  have admitted :
      Filter.admits [("_id", .oneOf [.id id])] document = true := by
    simp [Filter.admits, FieldTest.passes, FieldTest.agrees, held,
      Value.same_id]
  rw [List.filter_append, List.filter_cons_of_pos admitted, List.filter_nil]
  unfold documentOf
  rw [List.reverse_append]
  exact List.find?_cons_of_pos has

theorem finish_policiesOf_last
    {earlier : List Fields} {document : Fields} {id : ObjectId}
    (held : store.documents tenant.policies = earlier ++ [document])
    (has : hasId id document = true) :
    (Program.finish Program.undisturbed (policiesOf tenant [.id id]) store).1 =
      .ok (Policy.ofFields document).toOption.toList := by
  have fetched :
      Program.finish Program.undisturbed
          (fetch tenant.policies (Value.distinct [.id id])) store =
        (.ok ((earlier ++ [document]).filter
            (Filter.admits [("_id", .oneOf [.id id])])),
          store.execute
            ⟨tenant.policies, .find [("_id", .oneOf [.id id])]⟩) := by
    rw [← held]
    rfl
  have loading :
      policiesOf tenant [.id id] =
        fetch tenant.policies (Value.distinct [.id id]) >>= fun found =>
          valid found [.id id] := rfl
  rw [loading, Program.finish_bind_of_ok fetched, valid,
    documentOf_fetched_last earlier has]
  simp only
  cases Policy.ofFields document <;> rfl

end Registry

/-- The stored principal has just this policy on its list, and is in no group. -/
def Tenant.ListsOnly (tenant : Tenant) (store : Store) (principal : Value)
    (policy : ObjectId) : Prop :=
  ∃ id member,
    principal.recordId? = some id ∧
      (store.documents tenant.principals).find? (Filter.byId id).admits =
        some member ∧
      member.get? "policies" = some (.list [.id policy]) ∧
      (Registry.fieldOf member "groups").isTruthy = false

namespace Operation

variable {tenant : Tenant}

/-- Who has just the last stored policy loads what its document is accepted as. -/
theorem run_load_last
    {store : Store} {earlier : List Fields} {document : Fields}
    {id : ObjectId} {principal : Value}
    (held : store.documents tenant.policies = earlier ++ [document])
    (has : hasId id document = true)
    (listed : tenant.ListsOnly store principal id) :
    ((load principal).run tenant store).1 =
      .ok (.policies (Policy.ofFields document).toOption.toList) := by
  obtain ⟨principalId, member, read, found, list, alone⟩ := listed
  obtain ⟨left, same, searched⟩ :=
    Program.finish_query_of_reads
      (Deed.reads_findOne (Filter.byId principalId)) tenant.principals store
  have own : (Registry.fieldOf member "policies").entries = .ok [.id id] := by
    unfold Registry.fieldOf
    rw [list]
    rfl
  have heldThen : left.documents tenant.policies = earlier ++ [document] := by
    rw [same, held]
  rw [run_eq_map tenant store rfl]
  unfold Registry.effective
  rw [read]
  simp only
  rw [Program.finish_bind_of_ok searched]
  simp only [Deed.reply, found, own]
  unfold Registry.groupPolicyIds
  rw [alone]
  exact
    congrArg (Except.map Answer.policies)
      (Registry.finish_policiesOf_last heldThen has)

/-- A call that stores a policy puts the document for it behind the others. -/
theorem stored_of_run_create
    {before after : Store} {stamp : Stamp} {data createdBy : Value}
    {answer : Answer}
    (created :
      (create stamp data createdBy).run tenant before = (.ok answer, after)) :
    ∃ policy now,
      Policy.ofValue Policy.modelName data = .ok policy ∧
        after.Same
          (tenant.inserting before
            (Registry.newDocument policy createdBy stamp.fresh now)) := by
  have ends := ends_create tenant before stamp data createdBy
  rw [created] at ends
  cases ends with
  | created checked _ _ same =>
      exact ⟨_, _, checked, same⟩

theorem ofFields_newDocument_iff
    {policy read : Policy} {createdBy : Value} {fresh : ObjectId}
    {now : Timestamp} :
    Policy.ofFields (Registry.newDocument policy createdBy fresh now) =
        .ok read ↔
      Policy.ofFields policy.dump = .ok read := by
  refine Policy.ofFields_eq_ok_iff_of_get?_eq ?_
  simp only [List.forall_mem_cons]
  exact ⟨rfl, rfl, rfl, rfl, rfl, by simp⟩

/-- Who has just a policy that was stored loads it as it was accepted when all its
numbers are finite, and loads nothing otherwise. -/
theorem loaded_of_run_create
    {before after : Store} {stamp : Stamp} {data createdBy : Value}
    {answer : Answer}
    (created :
      (create stamp data createdBy).run tenant before = (.ok answer, after)) :
    ∃ policy,
      Policy.ofValue Policy.modelName data = .ok policy ∧
        ∀ principal, tenant.ListsOnly after principal stamp.fresh →
          (policy.FiniteNumbers →
            ((load principal).run tenant after).1 =
              .ok (.policies [policy])) ∧
          (¬ policy.FiniteNumbers →
            ((load principal).run tenant after).1 = .ok (.policies [])) := by
  obtain ⟨policy, now, accepted, same⟩ := stored_of_run_create created
  refine ⟨policy, accepted, fun principal listed => ?_⟩
  have formed := Policy.wellFormed_of_ofValue accepted
  have held :
      after.documents tenant.policies =
        before.documents tenant.policies ++
          [Registry.newDocument policy createdBy stamp.fresh now] := by
    rw [same]
    exact Store.documents_write_self before tenant.policies _
  have has := hasId_iff.mpr (get?_newDocument_id policy createdBy
    stamp.fresh now)
  rw [run_load_last held has listed]
  have spelled (read : Policy) :
      Policy.ofFields
          (Registry.newDocument policy createdBy stamp.fresh now) = .ok read ↔
        Policy.ofFields policy.dump = .ok read :=
    ofFields_newDocument_iff
  constructor
  · intro finite
    rw [(spelled policy).mpr (Policy.ofFields_dump formed finite)]
    rfl
  · intro infinite
    cases read : Policy.ofFields
        (Registry.newDocument policy createdBy stamp.fresh now) with
    | error issues =>
        rfl
    | ok other =>
        have restored := (spelled other).mp read
        exact absurd (Policy.finiteNumbers_of_ofFields_dump restored) infinite

end Operation

namespace Program

variable {α β : Type}

/-- The program ends with issues of validation. -/
def EndsInvalid (program : Program α) (store : Store) : Prop :=
  ∃ model issues,
    (finish undisturbed program store).1 = .error (.invalid model issues)

theorem endsInvalid_bind_iff
    {first : Program α} {rest : α → Program β} {store : Store}
    (never : ∀ value left, ¬ (rest value).EndsInvalid left) :
    (first >>= rest).EndsInvalid store ↔ first.EndsInvalid store := by
  unfold EndsInvalid
  rw [finish_bind]
  cases ended : finish undisturbed first store with
  | mk result left =>
      cases result with
      | error failure =>
          simp
      | ok value =>
          simp only [reduceCtorEq, exists_false, iff_false]
          exact never value left

end Program

namespace Registry

variable {tenant : Tenant} {store : Store} {stamp : Stamp} {createdBy : Value}

/-- A creation ends with issues only when its data have some. -/
theorem endsInvalid_create_iff {fields : Fields} :
    (create tenant stamp (.record fields) createdBy).EndsInvalid store ↔
      ∃ issues, Policy.ofFields fields = .error issues := by
  have reading :
      Policy.ofValue Policy.modelName (.record fields) =
        Policy.ofFields fields := rfl
  unfold Program.EndsInvalid create
  rw [reading]
  cases read : Policy.ofFields fields with
  | error issues =>
      constructor
      · intro ended
        exact ⟨issues, rfl⟩
      · intro refused
        exact ⟨_, issues, rfl⟩
  | ok policy =>
      have searched :=
        Program.finish_query_undisturbed tenant.policies
          (.findOne [("name", .equals (.text policy.name))]) store
      rw [Program.finish_bind_of_ok (Operation.finish_validated store policy),
        Program.finish_bind_of_ok searched]
      simp only [reduceCtorEq, exists_false, iff_false]
      rintro ⟨model, issues, ended⟩
      generalize Deed.reply
        (.findOne [("name", .equals (.text policy.name))])
        (store.documents tenant.policies) = namesake at ended
      cases namesake with
      | some document =>
          cases ended
      | none =>
          cases clock : stamp.now <;> rw [clock] at ended <;> cases ended

end Registry

namespace Http

namespace Call

theorem not_endsInvalid_succeed
    (data message : Value) (status : Nat) (store : Store) :
    ¬ (succeed data message status).EndsInvalid store := by
  rintro ⟨model, issues, ended⟩
  rcases succeed_cases data message status with
    ⟨response, succeeded, -⟩ | ⟨failure, unwritten, ofWriting⟩
  · rw [succeeded, Program.finish_ofExcept] at ended
    cases ended
  · rw [unwritten, Program.finish_ofExcept] at ended
    cases ended
    exact ofWriting

/-- The endpoint for new policies ends with issues of validation for an accepted
body when the caller may create the policy and its dump is not accepted again. -/
theorem endsInvalid_createPolicy_iff
    {call : Call} {policy : Policy}
    (checked : call.body.check Policy.ofFields = .ok policy)
    (store : Store) :
    call.createPolicy.EndsInvalid store ↔
      call.ability.can
            ⟨"CreatePolicy", policySubject, .record policy.dump⟩ =
          .ok true ∧
        ∃ issues, Policy.ofFields policy.dump = .error issues := by
  have asked := call.ability.finish_demand
    ⟨"CreatePolicy", policySubject, .record policy.dump⟩ store
  have acting :
      (do
        let created ← Registry.create call.tenant call.stamp
          (.record policy.dump) call.caller
        succeed created (.text "Policy created") 201 :
          Program Response).EndsInvalid store ↔
        ∃ issues, Policy.ofFields policy.dump = .error issues := by
    rw [Program.endsInvalid_bind_iff fun _ _ => not_endsInvalid_succeed _ _ _ _,
      Registry.endsInvalid_create_iff]
  have entered :
      call.createPolicy =
        (do
          call.demand "CreatePolicy" policySubject (.record policy.dump)
          let created ← Registry.create call.tenant call.stamp
            (.record policy.dump) call.caller
          succeed created (.text "Policy created") 201) := by
    unfold createPolicy withBody
    rw [checked]
  rw [← acting, entered]
  unfold Program.EndsInvalid demand
  rw [Program.finish_bind, asked]
  cases call.ability.can
      ⟨"CreatePolicy", policySubject, .record policy.dump⟩ with
  | error fault =>
      simp
  | ok allowed =>
      cases allowed <;> simp

end Call

end Http

namespace Policy

/-- An accepted policy comes back from its dump when all its numbers are finite, and
otherwise not.  Likewise who has just this policy loads it after it was stored, or
loads nothing; and the endpoint that accepted it as a body ends with issues of
validation where the caller may create a policy with other numbers. -/
theorem restored_iff_finiteNumbers
    {model : String} {document : Value} {policy : Policy}
    (accepted : ofValue model document = .ok policy) :
    (ofFields policy.dump = .ok policy ↔ policy.FiniteNumbers) ∧
      (∀ {tenant before after stamp createdBy answer principal},
        (Operation.create stamp document createdBy).run tenant before =
            (.ok answer, after) →
          tenant.ListsOnly after principal stamp.fresh →
          (policy.FiniteNumbers →
            ((Operation.load principal).run tenant after).1 =
              .ok (.policies [policy])) ∧
          (¬ policy.FiniteNumbers →
            ((Operation.load principal).run tenant after).1 =
              .ok (.policies []))) ∧
      ∀ {call : Http.Call} {store},
        call.body.check ofFields = .ok policy →
          (call.createPolicy.EndsInvalid store ↔
            call.ability.can
                ⟨"CreatePolicy", Http.policySubject, .record policy.dump⟩ =
              .ok true ∧
              ¬ policy.FiniteNumbers) := by
  have formed := wellFormed_of_ofValue accepted
  refine ⟨ofFields_dump_eq_ok_iff formed, ?_, ?_⟩
  · intro tenant before after stamp createdBy answer principal created listed
    obtain ⟨stored, acceptedAgain, loaded⟩ :=
      Operation.loaded_of_run_create created
    have same : stored = policy := by
      cases document with
      | record fields =>
          exact Except.ok.inj (acceptedAgain.symm.trans accepted)
      | _ =>
          cases accepted
    rw [← same]
    exact loaded principal listed
  · intro call store checked
    rw [Http.Call.endsInvalid_createPolicy_iff checked,
      ofFields_dump_eq_error_iff formed]

end Policy

/-- A policy that denies everything that is smaller than a limit. -/
def limitPolicy (limit : Number) : Policy :=
  ⟨"limit", .deny, ["*"], ["*"],
    some [("NumberLessThan", .record [("size", .number limit)])]⟩

/-- A document that spells it out. -/
def limitDocument (limit : Number) : Value :=
  .record
    [("name", .text "limit"),
     ("effect", .text "Deny"),
     ("actions", .texts ["*"]),
     ("resources", .texts ["*"]),
     ("condition",
      .record [("NumberLessThan", .record [("size", .number limit)])])]

theorem finiteNumbers_limitPolicy_iff (limit : Number) :
    (limitPolicy limit).FiniteNumbers ↔ limit.isFinite = true := by
  simp [limitPolicy, Policy.FiniteNumbers, Condition.FiniteNumbers]

/-- An infinite limit is accepted, and then its dump is not. -/
theorem infiniteLimit_not_restored :
    Policy.ofValue Policy.requestName
        (limitDocument (.double ⟨0x7ff0000000000000⟩)) =
        .ok (limitPolicy (.double ⟨0x7ff0000000000000⟩)) ∧
      ¬ ∃ restored,
        Policy.ofFields (limitPolicy (.double ⟨0x7ff0000000000000⟩)).dump =
          .ok restored := by
  refine ⟨rfl, ?_⟩
  rintro ⟨restored, read⟩
  cases read

def clinic : Tenant := ⟨"clinic", "clinic"⟩

/-- A principal that waits for a policy to be stored. -/
def clinicStore : Store :=
  Store.empty.write clinic.principals
    [[("_id", .id (.numbered 2)), ("policies", .list [.id (.numbered 1)])]]

def clinicStamp : Stamp := ⟨.ok ⟨1704067200000000, none⟩, .numbered 1⟩

def clinicCreation (limit : Number) : Except Failure Operation.Answer × Store :=
  (Operation.create clinicStamp (limitDocument limit) .null).run clinic
    clinicStore

/-- Somebody who may do everything sends the document as a body. -/
def clinicCall (limit : Number) : Http.Call where
  tenant := clinic
  ability := Ability.ofPolicies [⟨"all", .allow, ["*"], ["*"], none⟩]
  caller := .null
  stamp := clinicStamp
  body := .value (limitDocument limit)

theorem finiteLimit_restored :
    Policy.ofValue Policy.requestName (limitDocument (.integer 5)) =
        .ok (limitPolicy (.integer 5)) ∧
      Policy.ofFields (limitPolicy (.integer 5)).dump =
        .ok (limitPolicy (.integer 5)) ∧
      ((Operation.load (.id (.numbered 2))).run clinic
          (clinicCreation (.integer 5)).2).1 =
        .ok (.policies [limitPolicy (.integer 5)]) ∧
      ¬ (clinicCall (.integer 5)).createPolicy.EndsInvalid clinicStore := by
  have accepted :
      Policy.ofValue Policy.requestName (limitDocument (.integer 5)) =
        .ok (limitPolicy (.integer 5)) := rfl
  have finite : (limitPolicy (.integer 5)).FiniteNumbers :=
    (finiteNumbers_limitPolicy_iff _).mpr rfl
  have created :
      clinicCreation (.integer 5) =
        (.ok (.value (Registry.answered
            (Registry.newDocument (limitPolicy (.integer 5)) .null
              (.numbered 1) ⟨1704067200000000, none⟩))),
          (clinicCreation (.integer 5)).2) := rfl
  have listed :
      clinic.ListsOnly (clinicCreation (.integer 5)).2 (.id (.numbered 2))
        (.numbered 1) :=
    ⟨_, _, rfl, rfl, rfl, rfl⟩
  obtain ⟨restored, loaded, sent⟩ :=
    Policy.restored_iff_finiteNumbers accepted
  refine
    ⟨accepted, restored.mpr finite, (loaded created listed).1 finite, ?_⟩
  rw [sent rfl]
  exact fun invalid => invalid.2 finite

end AccessControl
