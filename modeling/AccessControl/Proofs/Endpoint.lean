import AccessControl.Http.Endpoint
import AccessControl.Proofs.Operation

/-!
# What endpoints ask before they act

An endpoint takes effect when it changes the documents or answers a success.
Before it does either, it asks the caller's ability for its own verb, and so
the query was allowed: `asks_of_takesEffect`.  Everything that comes before the
question only reads.
-/

namespace AccessControl

theorem Refusal.status_ge (refusal : Refusal) : 400 ≤ refusal.status := by
  cases refusal <;> simp [status]

namespace Http.Response

/-- The status of the answer is one of success. -/
def Succeeds (response : Response) : Prop :=
  200 ≤ response.status ∧ response.status < 300

instance (response : Response) : Decidable response.Succeeds :=
  inferInstanceAs (Decidable (_ ∧ _))

theorem not_succeeds_ofRefusal (refusal : Refusal) :
    ¬ (ofRefusal refusal).Succeeds := by
  rintro ⟨-, below⟩
  have status : (ofRefusal refusal).status = refusal.status := rfl
  have high := refusal.status_ge
  omega

theorem not_succeeds_of_ofIssues
    {issues : List Issue} {response : Response}
    (answered : ofIssues issues = .ok response) :
    ¬ response.Succeeds := by
  rintro ⟨-, below⟩
  unfold ofIssues at answered
  cases written :
      (Value.record
        [("detail", .list (issues.map issueValue))]).written with
  | error failure =>
      rw [written] at answered
      cases answered
  | ok value =>
      rw [written] at answered
      cases answered
      have status : (json 422 value).status = 422 := rfl
      omega

end Http.Response

/-- The failure tells of an answer that cannot be written. -/
def Failure.OfWriting : Failure → Prop
  | unwritable _ => True
  | outOfRange => True
  | _ => False

namespace Value

mutual

theorem ofWriting_of_writingFault? {failure : Failure} :
    (value : Value) → value.writingFault? = some failure → failure.OfWriting
  | .list items, found => by
      unfold writingFault? at found
      exact ofWriting_of_itemsFault? items found
  | .record fields, found => by
      unfold writingFault? at found
      exact ofWriting_of_fieldsFault? fields found
  | .number (n : Number), found => by
      unfold writingFault? at found
      by_cases finite : n.isFinite = true
      · rw [if_pos finite] at found
        cases found
      · rw [if_neg finite] at found
        cases found
        trivial
  | .id _, found | .date _, found => by
      cases found
      trivial
  | .null, found | .boolean _, found | .text _, found => by
      cases found

theorem ofWriting_of_itemsFault? {failure : Failure} :
    (items : List Value) → itemsFault? items = some failure →
      failure.OfWriting
  | [], found => by
      cases found
  | item :: rest, found => by
      rw [itemsFault?, Option.or_eq_some_iff] at found
      rcases found with first | ⟨-, later⟩
      · exact ofWriting_of_writingFault? item first
      · exact ofWriting_of_itemsFault? rest later

theorem ofWriting_of_fieldsFault? {failure : Failure} :
    (fields : Fields) → fieldsFault? fields = some failure →
      failure.OfWriting
  | [], found => by
      cases found
  | (_, value) :: rest, found => by
      rw [fieldsFault?, Option.or_eq_some_iff] at found
      rcases found with first | ⟨-, later⟩
      · exact ofWriting_of_writingFault? value first
      · exact ofWriting_of_fieldsFault? rest later

end

end Value

namespace Program

variable {α : Type}

/-- The program changes documents, or its answer is a success. -/
def TakesEffect (program : Program Http.Response) (store : Store) : Prop :=
  ¬ (finish undisturbed program store).2.Same store ∨
    ∃ response,
      (finish undisturbed program store).1 = .ok response ∧
        response.Succeeds

/-- A program whose first part only reads gets past that part before it takes
effect. -/
theorem takesEffect_bind
    {first : Program α} {rest : α → Program Http.Response} {store : Store}
    (readOnly : first.ReadOnly)
    (effect : TakesEffect (first >>= rest) store) :
    ∃ value left,
      finish undisturbed first store = (.ok value, left) ∧
        left.Same store ∧ TakesEffect (rest value) left := by
  have same := readOnly.same store
  unfold TakesEffect at effect
  rw [finish_bind] at effect
  cases ended : finish undisturbed first store with
  | mk result left =>
      rw [ended] at same effect
      cases result with
      | error failure =>
          rcases effect with changed | ⟨response, answered, -⟩
          · exact absurd same changed
          · cases answered
      | ok value =>
          refine ⟨value, left, rfl, same, ?_⟩
          rcases effect with changed | answered
          · exact Or.inl fun kept => changed (kept.trans same)
          · exact Or.inr answered

/-- A known result takes effect only as a success. -/
theorem succeeds_of_takesEffect_ofExcept
    {result : Except Failure Http.Response} {store : Store}
    (effect : TakesEffect (ofExcept result) store) :
    ∃ response, result = .ok response ∧ response.Succeeds := by
  rcases effect with changed | answered
  · exact absurd (Store.Same.refl store) changed
  · exact answered

theorem not_takesEffect_refuse (refusal : Refusal) (store : Store) :
    ¬ TakesEffect (refuse refusal) store := by
  intro effect
  obtain ⟨response, answered, -⟩ := succeeds_of_takesEffect_ofExcept effect
  cases answered

end Program

namespace Ability

theorem readOnly_demand (ability : Ability) (query : Query) :
    (ability.demand query).ReadOnly := by
  refine (Program.Uses.ofExcept _).bind fun allowed => ?_
  cases allowed with
  | true =>
      exact .pure ()
  | false =>
      exact .note _ (.refuse _)

theorem finish_demand (ability : Ability) (query : Query) (store : Store) :
    Program.finish Program.undisturbed (ability.demand query) store =
      (match ability.can query with
      | .ok true => .ok ()
      | .ok false =>
          .error (.refused
            (.forbidden (.text query.verb) (.text query.subjectType)))
      | .error fault => .error (.evaluation fault), store) := by
  unfold demand
  rw [Program.finish_bind]
  unfold Program.ofEvaluation
  rw [Program.finish_ofExcept]
  cases ability.can query with
  | error fault =>
      rfl
  | ok allowed =>
      cases allowed <;> rfl

/-- The checkpoint is passed only when the query is allowed. -/
theorem can_of_finish_demand
    {ability : Ability} {query : Query} {store left : Store} {passing : Unit}
    (passed :
      Program.finish Program.undisturbed (ability.demand query) store =
        (.ok passing, left)) :
    ability.can query = .ok true := by
  rw [finish_demand] at passed
  cases decided : ability.can query with
  | error fault =>
      rw [decided] at passed
      cases passed
  | ok allowed =>
      rw [decided] at passed
      cases allowed with
      | true =>
          rfl
      | false =>
          cases passed

end Ability

namespace Registry

theorem readOnly_get (tenant : Tenant) (policy : Value) :
    (get tenant policy).ReadOnly :=
  (reads_get tenant policy).mono fun _ reads => reads.1

/-- What reading a policy gives is the stored record with that identifier. -/
theorem exists_stored_of_get
    {tenant : Tenant} {policy : Value} {found : Value} {store left : Store}
    (read :
      Program.finish Program.undisturbed (get tenant policy) store =
        (.ok found, left)) :
    ∃ id document,
      policy.recordId? = some id ∧
        tenant.stored? store id = some document ∧
        found = answered document := by
  have ends := Operation.ends_get tenant store policy
  rw [Operation.run_eq_map tenant store rfl, read] at ends
  cases ends with
  | fetched named stored same =>
      exact ⟨_, _, named, stored, rfl⟩

end Registry

namespace Http

/-! ## The question of each endpoint -/

/-- The query that an endpoint puts to the caller's ability, for the body of the
request and the documents as they are before it. -/
inductive Endpoint.Asks (tenant : Tenant) (before : Store) (body : Body) :
    Endpoint → Query → Prop
  | create {policy : Policy} :
      body.check Policy.ofFields = .ok policy →
      Asks tenant before body createPolicy
        ⟨"CreatePolicy", "Policy", .record policy.dump⟩
  | list :
      Asks tenant before body listPolicies ⟨"ListPolicies", "Policy", .null⟩
  | get {policy : String} {id : ObjectId} {document : Fields} :
      ObjectId.ofHex? policy = some id →
      tenant.stored? before id = some document →
      Asks tenant before body (getPolicy policy)
        ⟨"GetPolicy", "Policy", (Value.record document).serialized⟩
  | update {policy : String} {id : ObjectId} {document : Fields} :
      ObjectId.ofHex? policy = some id →
      tenant.stored? before id = some document →
      Asks tenant before body (updatePolicy policy)
        ⟨"UpdatePolicy", "Policy", (Value.record document).serialized⟩
  | delete {policy : String} {id : ObjectId} {document : Fields} :
      ObjectId.ofHex? policy = some id →
      tenant.stored? before id = some document →
      Asks tenant before body (deletePolicy policy)
        ⟨"RemovePolicy", "Policy", (Value.record document).serialized⟩
  | attach {principal policy : String} :
      Asks tenant before body (attachPolicy principal policy)
        ⟨"AttachPolicy", "Principal", .record [("_id", .text principal)]⟩
  | detach {principal policy : String} :
      Asks tenant before body (detachPolicy principal policy)
        ⟨"DetachPolicy", "Principal", .record [("_id", .text principal)]⟩

namespace Call

/-- A success comes with its status, unless it cannot be written. -/
theorem succeed_cases (data message : Value) (status : Nat) :
    (∃ response,
      succeed data message status = Program.ofExcept (.ok response) ∧
        response.status = status) ∨
      ∃ failure,
        succeed data message status = Program.ofExcept (.error failure) ∧
          failure.OfWriting := by
  have numeric : (Value.integer status).asNumber?.isSome = true := rfl
  unfold succeed Response.enveloped Envelope.success Envelope.ofContent
  generalize
    Value.record ([("success", .boolean true), ("message", message)] ++
      Envelope.dataField data) = content
  unfold Value.written
  cases faulty : content.writingFault? with
  | none =>
      left
      exact ⟨Response.json status content, rfl, rfl⟩
  | some failure =>
      right
      exact ⟨failure, rfl, Value.ofWriting_of_writingFault? content faulty⟩

variable {call : Call} {store : Store}

/-- A body with issues is answered without any success. -/
theorem check_of_takesEffect_withBody
    {α : Type} {ofFields : Fields → Verdict α}
    {rest : α → Program Response}
    (effect : (call.withBody ofFields rest).TakesEffect store) :
    ∃ read,
      call.body.check ofFields = .ok read ∧
        (rest read).TakesEffect store := by
  unfold withBody at effect
  cases checked : call.body.check ofFields with
  | ok read =>
      rw [checked] at effect
      exact ⟨read, rfl, effect⟩
  | error issues =>
      rw [checked] at effect
      obtain ⟨response, answered, succeeds⟩ :=
        Program.succeeds_of_takesEffect_ofExcept effect
      exact absurd succeeds (Response.not_succeeds_of_ofIssues answered)

/-- Whatever follows the checkpoint takes effect only when the query was allowed. -/
theorem can_of_takesEffect_demand
    {verb subjectType : String} {resource : Value}
    {rest : Unit → Program Response}
    (effect :
      (call.demand verb subjectType resource >>= rest).TakesEffect store) :
    call.ability.can ⟨verb, subjectType, resource⟩ = .ok true := by
  obtain ⟨_, left, passed, -, -⟩ :=
    Program.takesEffect_bind (call.ability.readOnly_demand _) effect
  exact Ability.can_of_finish_demand passed

/-- Whatever follows the reading of a policy is done with the stored record. -/
theorem stored_of_takesEffect_get
    {policy : String} {verb subjectType : String}
    {rest : Value → Unit → Program Response}
    (effect :
      (do
        let found ← Registry.get call.tenant (.text policy)
        call.demand verb subjectType found >>= rest found :
          Program Response).TakesEffect store) :
    ∃ id document,
      ObjectId.ofHex? policy = some id ∧
        call.tenant.stored? store id = some document ∧
        call.ability.can
            ⟨verb, subjectType, (Value.record document).serialized⟩ =
          .ok true := by
  obtain ⟨found, left, read, -, effect⟩ :=
    Program.takesEffect_bind (Registry.readOnly_get _ _) effect
  obtain ⟨id, document, named, stored, rfl⟩ :=
    Registry.exists_stored_of_get read
  exact ⟨id, document, named, stored, can_of_takesEffect_demand effect⟩

end Call

namespace Endpoint

/-- An endpoint that takes effect has asked the caller's ability, which allowed
it. -/
theorem asks_of_takesEffect
    {endpoint : Endpoint} {call : Call} {store : Store}
    (effect : (endpoint.act call).TakesEffect store) :
    ∃ query,
      Asks call.tenant store call.body endpoint query ∧
        call.ability.can query = .ok true := by
  cases endpoint with
  | createPolicy =>
      obtain ⟨policy, checked, effect⟩ :=
        Call.check_of_takesEffect_withBody effect
      exact ⟨_, .create checked, Call.can_of_takesEffect_demand effect⟩
  | listPolicies =>
      exact ⟨_, .list, Call.can_of_takesEffect_demand effect⟩
  | getPolicy policy =>
      obtain ⟨id, document, named, stored, allowed⟩ :=
        Call.stored_of_takesEffect_get effect
      exact ⟨_, .get named stored, allowed⟩
  | updatePolicy policy =>
      obtain ⟨patch, -, effect⟩ := Call.check_of_takesEffect_withBody effect
      obtain ⟨id, document, named, stored, allowed⟩ :=
        Call.stored_of_takesEffect_get effect
      exact ⟨_, .update named stored, allowed⟩
  | deletePolicy policy =>
      obtain ⟨id, document, named, stored, allowed⟩ :=
        Call.stored_of_takesEffect_get effect
      exact ⟨_, .delete named stored, allowed⟩
  | attachPolicy principal policy =>
      exact ⟨_, .attach, Call.can_of_takesEffect_demand effect⟩
  | detachPolicy principal policy =>
      exact ⟨_, .detach, Call.can_of_takesEffect_demand effect⟩
  | health =>
      exact absurd effect (Program.not_takesEffect_refuse _ store)

/-- The question is the same for stores with the same documents. -/
theorem Asks.of_same
    {endpoint : Endpoint} {tenant : Tenant} {first second : Store}
    {body : Body} {query : Query}
    (asks : Asks tenant first body endpoint query)
    (same : first.Same second) :
    Asks tenant second body endpoint query := by
  cases asks with
  | create checked =>
      exact .create checked
  | list =>
      exact .list
  | get named stored =>
      exact .get named (tenant.stored?_of_same same _ ▸ stored)
  | update named stored =>
      exact .update named (tenant.stored?_of_same same _ ▸ stored)
  | delete named stored =>
      exact .delete named (tenant.stored?_of_same same _ ▸ stored)
  | attach =>
      exact .attach
  | detach =>
      exact .detach

/-- An endpoint that reads no body asks nothing about it. -/
theorem Asks.of_taken
    {endpoint : Endpoint} {tenant : Tenant} {before : Store}
    {body : Body} {query : Query}
    (asks :
      Asks tenant before (if endpoint.takesBody then body else .absent)
        endpoint query) :
    Asks tenant before body endpoint query := by
  cases asks with
  | create checked =>
      exact .create checked
  | list =>
      exact .list
  | get named stored =>
      exact .get named stored
  | update named stored =>
      exact .update named stored
  | delete named stored =>
      exact .delete named stored
  | attach =>
      exact .attach
  | detach =>
      exact .detach

end Endpoint

end Http

namespace Claimant

variable {claimant : Claimant} {store left : Store}

theorem readOnly_tenant (claimant : Claimant) :
    claimant.tenant.ReadOnly := by
  unfold tenant
  cases claimant.unit.isTruthy with
  | false =>
      exact .refuse _
  | true =>
      exact .ofExcept _

theorem readOnly_ability (claimant : Claimant) :
    claimant.ability.ReadOnly := by
  unfold ability
  cases claimant.principal.isTruthy with
  | false =>
      exact .refuse _
  | true =>
      exact claimant.readOnly_tenant.bind fun tenant =>
        (Registry.readOnly_effective tenant _).bind fun policies =>
          (Program.Uses.logAll _).bind fun _ => .pure _

theorem ofValue_of_finish_tenant
    {tenant : Tenant}
    (found :
      Program.finish Program.undisturbed claimant.tenant store =
        (.ok tenant, left)) :
    claimant.unit.isTruthy = true ∧
      Tenant.ofValue claimant.unit = .ok tenant ∧ left = store := by
  unfold Claimant.tenant at found
  cases truthy : claimant.unit.isTruthy with
  | false =>
      rw [truthy] at found
      cases found
  | true =>
      rw [truthy, if_pos rfl, Program.finish_ofExcept] at found
      obtain ⟨valid, rfl⟩ := Prod.mk.inj found
      exact ⟨rfl, valid, rfl⟩

/-- An ability comes from the stored policies of a principal that is known. -/
theorem policies_of_finish_ability
    {ability : Ability}
    (found :
      Program.finish Program.undisturbed claimant.ability store =
        (.ok ability, left)) :
    ∃ tenant policies,
      claimant.principal.isTruthy = true ∧
        claimant.unit.isTruthy = true ∧
        Tenant.ofValue claimant.unit = .ok tenant ∧
        (Program.run Program.undisturbed
            (Registry.effective tenant claimant.principal) store).result =
          .ok policies ∧
        ability = Ability.ofPolicies policies := by
  unfold Claimant.ability at found
  cases truthy : claimant.principal.isTruthy with
  | false =>
      rw [truthy] at found
      cases found
  | true =>
      rw [truthy, if_pos rfl] at found
      obtain ⟨tenant, first, tenantFound, loading⟩ :=
        Program.exists_of_finish_bind found
      obtain ⟨unitTruthy, valid, rfl⟩ := ofValue_of_finish_tenant tenantFound
      obtain ⟨policies, second, loaded, compiling⟩ :=
        Program.exists_of_finish_bind loading
      obtain ⟨_, third, _, compiled⟩ :=
        Program.exists_of_finish_bind compiling
      cases compiled
      exact
        ⟨tenant, policies, rfl, unitTruthy, valid, congrArg Prod.fst loaded,
          rfl⟩

end Claimant

namespace Http.Endpoint

/-- The policies that the store has for the claimant allow the endpoint's query. -/
def Allowed (endpoint : Endpoint) (tenant : Tenant) (principal : Value)
    (before : Store) (body : Body) : Prop :=
  ∃ policies query,
    (Program.run Program.undisturbed (Registry.effective tenant principal)
        before).result =
      .ok policies ∧
    Asks tenant before body endpoint query ∧
    (Ability.ofPolicies policies).can query = .ok true

theorem allowed_of_takesEffect
    {endpoint : Endpoint} {claimant : Claimant} {stamp : Stamp}
    {body : Body} {store : Store}
    (effect :
      (endpoint.serve claimant stamp
        (if endpoint.takesBody then body else .absent)).TakesEffect store) :
    ∃ tenant,
      claimant.principal.isTruthy = true ∧
        claimant.unit.isTruthy = true ∧
        Tenant.ofValue claimant.unit = .ok tenant ∧
        endpoint.Allowed tenant claimant.principal store body := by
  obtain ⟨ability, first, abilityFound, firstSame, effect⟩ :=
    Program.takesEffect_bind claimant.readOnly_ability effect
  obtain ⟨tenant, second, tenantFound, -, effect⟩ :=
    Program.takesEffect_bind claimant.readOnly_tenant effect
  obtain ⟨tenant', policies, known, unitKnown, valid, loaded, rfl⟩ :=
    Claimant.policies_of_finish_ability abilityFound
  obtain ⟨-, valid', rfl⟩ := Claimant.ofValue_of_finish_tenant tenantFound
  have same : tenant' = tenant := Except.ok.inj (valid.symm.trans valid')
  subst same
  obtain ⟨query, asks, allowed⟩ := asks_of_takesEffect effect
  exact
    ⟨tenant', known, unitKnown, valid, policies, query, loaded,
      (asks.of_same firstSame).of_taken, allowed⟩

end Http.Endpoint

end AccessControl
