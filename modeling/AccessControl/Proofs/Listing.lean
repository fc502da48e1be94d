import AccessControl.Proofs.Authorization
import AccessControl.Proofs.Decision
import AccessControl.Proofs.Order

/-!
# What a listing shows

A listing shows the stored policies that the ability of the caller lets be listed, each
once, the oldest first: `shows_permitted_in_order`.  The answer is followed from the
outside to the inside, since a success passes every layer of the service unchanged but
for its headers: `exists_finish_of_succeeds`.  Where nothing is in the way of a listing,
there is such an answer: `status_of_canList`.
-/

namespace AccessControl

namespace Value

mutual

/-- What can be written holds no number without a finite value. -/
theorem measured_of_serialized :
    (value : Value) → value.serialized.writingFault? = none → value.Measured
  | .number n, written => by
      unfold serialized writingFault? at written
      by_cases isFinite : n.isFinite = true
      · exact isFinite
      · rw [if_neg isFinite] at written
        cases written
  | .list items, written => by
      rw [serialized, writingFault?] at written
      exact measuredItems_of_serializedItems items written
  | .null, _ | .boolean _, _ | .text _, _ | .id _, _ | .date _, _
  | .record _, _ => trivial

theorem measuredItems_of_serializedItems :
    (items : List Value) → itemsFault? (serializedItems items) = none →
      MeasuredItems items
  | [], _ => trivial
  | item :: rest, written => by
      rw [serializedItems, itemsFault?, Option.or_eq_none_iff] at written
      exact
        ⟨measured_of_serialized item written.1,
          measuredItems_of_serializedItems rest written.2⟩

end

/-- An identifier or a point in time has no number in it. -/
theorem measured_of_spelled
    {value : Value}
    (written : value.serialized.spelled.writingFault? = none) :
    value.Measured := by
  cases value with
  | id _ | date _ =>
      trivial
  | _ =>
      exact measured_of_serialized _ written

theorem measured_of_serializedFields
    {fields : Fields} {name : String} {value : Value}
    (written : fieldsFault? (serializedFields fields) = none)
    (found : Fields.get? fields name = some value) :
    value.Measured := by
  induction fields with
  | nil =>
      cases found
  | cons field rest inductionHypothesis =>
      obtain ⟨key, first⟩ := field
      rw [serializedFields, fieldsFault?, Option.or_eq_none_iff] at written
      rw [Fields.get?, List.lookup_cons] at found
      split at found
      · cases found
        exact measured_of_spelled written.1
      · exact inductionHypothesis written.2 found

theorem itemsFault?_eq_none
    {items : List Value}
    (written : ∀ item ∈ items, item.writingFault? = none) :
    itemsFault? items = none := by
  induction items with
  | nil =>
      rfl
  | cons item rest inductionHypothesis =>
      rw [List.forall_mem_cons] at written
      rw [itemsFault?, written.1, inductionHypothesis written.2]
      rfl

end Value

namespace Store

theorem exists_of_mem_documents
    {store : Store} {name : String} {document : Fields}
    (stored : document ∈ store.documents name) :
    ∃ collection ∈ store.collections,
      collection.1 = name ∧ document ∈ collection.2 := by
  unfold documents at stored
  cases found : store.collections.lookup name with
  | none =>
      rw [found] at stored
      cases stored
  | some held =>
      rw [found, Option.getD_some] at stored
      obtain ⟨earlier, later, split, -⟩ := List.lookup_eq_some_iff.mp found
      exact ⟨(name, held), by simp [split], rfl, stored⟩

end Store

theorem Tenant.suffix_policies (tenant : Tenant) :
    "_policies".toList <:+ tenant.policies.toList :=
  ⟨tenant.stem.toList, by simp [policies, collection, toString]⟩

/-! ## The listing of a tenant -/

/-- The entries, documents with the places that they have, are those whose policies the
ability lets be listed, the oldest first. -/
structure Ability.Lists (ability : Ability) (documents : List Fields)
    (entries : List (Fields × Nat)) : Prop where
  permitted :
    ∀ entry,
      entry ∈ entries ↔
        entry ∈ documents.zipIdx ∧
          ability.can ⟨"ListPolicies", "Policy", Registry.answered entry.1⟩ =
            .ok true
  once : entries.Nodup
  ascending : entries.Pairwise (ComesBefore "created_at")

/-- What is shown, and in which order, is settled by what may be listed. -/
theorem Ability.Lists.unique
    {ability : Ability} {documents : List Fields}
    {first second : List (Fields × Nat)} (lists : ability.Lists documents first)
    (lists' : ability.Lists documents second) : first = second := by
  have same : first.Perm second := by
    rw [List.perm_ext_iff_of_nodup lists.once lists'.once]
    exact fun entry =>
      (lists.permitted entry).trans (lists'.permitted entry).symm
  refine same.eq_of_pairwise ?_ lists.ascending lists'.ascending
  exact fun _ _ _ _ before after => absurd after before.asymm

/-- The ability allows a listing, and nothing about the documents is in its way: they
have an order, each can be decided on, and all can be written. -/
structure Ability.CanList (ability : Ability) (documents : List Fields) :
    Prop where
  asked : ability.can ⟨"ListPolicies", "Policy", .null⟩ = .ok true
  ordered :
    unordered? (documents.filterMap (Fields.get? · "created_at")) = none
  decided :
    ∀ document ∈ documents, ∃ allowed,
      ability.can ⟨"ListPolicies", "Policy", Registry.answered document⟩ =
        .ok allowed
  writable :
    ∀ document ∈ documents, (Registry.answered document).writingFault? = none

namespace Ability

/-- The ability gives the query an answer, and the answer is yes. -/
def permits (ability : Ability) (query : Query) : Bool :=
  (ability.can query).toOption.getD false

theorem permits_iff {ability : Ability} {query : Query} :
    ability.permits query = true ↔ ability.can query = .ok true := by
  unfold permits
  cases ability.can query with
  | error fault =>
      constructor <;> intro given <;> cases given
  | ok allowed =>
      exact ⟨congrArg Except.ok, Except.ok.inj⟩

theorem isSome_can_iff {ability : Ability} {query : Query} :
    (ability.can query).toOption.isSome = true ↔
      ∃ allowed, ability.can query = .ok allowed := by
  cases ability.can query with
  | error fault =>
      constructor
      · intro given
        cases given
      · rintro ⟨allowed, given⟩
        cases given
  | ok allowed =>
      exact ⟨fun _ => ⟨allowed, rfl⟩, fun _ => rfl⟩

/-- A list whose items can all be decided on is filtered to its end. -/
theorem filter_eq_ok
    {α : Type} {ability : Ability} {verb subjectType : String}
    {resource : α → Value} {items : List α}
    (decided :
      ∀ item ∈ items, ∃ allowed,
        ability.can ⟨verb, subjectType, resource item⟩ = .ok allowed) :
    ability.filter verb subjectType resource items =
      .ok
        (items.filter fun item =>
          ability.permits ⟨verb, subjectType, resource item⟩) := by
  refine filter_of_can fun item member => ?_
  obtain ⟨allowed, given⟩ := decided item member
  rw [permits, given]
  rfl

/-- A list that is filtered to its end keeps the items that are permitted. -/
theorem eq_filter_of_filter
    {α : Type} {ability : Ability} {verb subjectType : String}
    {resource : α → Value} {items kept : List α}
    (filtered :
      ability.filter verb subjectType resource items = .ok kept) :
    kept =
      items.filter fun item =>
        ability.permits ⟨verb, subjectType, resource item⟩ := by
  induction items generalizing kept with
  | nil =>
      cases filtered
      rfl
  | cons item rest inductionHypothesis =>
      unfold filter at filtered
      obtain ⟨allowed, decided, filtered⟩ := exists_of_bind_eq_ok filtered
      obtain ⟨others, remaining, filtered⟩ := exists_of_bind_eq_ok filtered
      have verdict :
          ability.permits ⟨verb, subjectType, resource item⟩ = allowed := by
        rw [permits, decided]
        rfl
      cases filtered
      rw [List.filter_cons, verdict, inductionHypothesis remaining]

/-- The permitted ones of the documents in ascending order are such a listing. -/
theorem exists_lists_of_filter
    {ability : Ability} {documents sorted : List Fields}
    {visible : List Value}
    (ascending : AscendingBy "created_at" documents sorted)
    (filtered :
      ability.filter "ListPolicies" "Policy" (fun policy => policy)
          (sorted.map Registry.answered) =
        .ok visible) :
    ∃ entries,
      ability.Lists documents entries ∧
        visible = entries.map fun entry => Registry.answered entry.1 := by
  obtain ⟨entries, permutes, rfl, ordered⟩ := ascending
  let shown (entry : Fields × Nat) : Bool :=
    ability.permits ⟨"ListPolicies", "Policy", Registry.answered entry.1⟩
  have distinct : documents.zipIdx.Nodup :=
    List.Nodup.of_map Prod.snd (List.nodup_zipIdx_map_snd documents)
  refine
    ⟨entries.filter shown,
      { permitted := fun entry => ?_
        once := (permutes.nodup_iff.mpr distinct).filter shown
        ascending := ordered.filter shown }, ?_⟩
  · rw [List.mem_filter, permutes.mem_iff, permits_iff]
  · rw [eq_filter_of_filter filtered, List.map_map, List.filter_map]
    rfl

end Ability

namespace Registry

theorem finish_list
    {tenant : Tenant} {store : Store} {sorted : List Fields}
    (isSorted :
      sortedBy "created_at" (store.documents tenant.policies) = .ok sorted) :
    ∃ left,
      Program.finish Program.undisturbed (list tenant) store =
        (.ok (sorted.map answered), left) := by
  obtain ⟨left, -, read⟩ :=
    Program.finish_query_of_reads (Deed.reads_findSorted "created_at")
      tenant.policies store
  rw [Deed.reply, isSorted] at read
  unfold list
  rw [Program.finish_bind_of_ok read]
  exact ⟨left, rfl⟩

/-- What a tenant lists are its documents by the time of their creation. -/
theorem sortedBy_of_finish_list
    {tenant : Tenant} {store left : Store} {found : List Value}
    (ended :
      Program.finish Program.undisturbed (list tenant) store =
        (.ok found, left)) :
    ∃ documents,
      sortedBy "created_at" (store.documents tenant.policies) =
          .ok documents ∧
        found = documents.map answered := by
  have ends := Operation.ends_list tenant store
  rw [Operation.run_eq_map tenant store rfl, ended] at ends
  cases ends with
  | listed sorted same =>
      exact ⟨_, sorted, rfl⟩

end Registry

/-- Looking up an ability leaves the documents as they are. -/
theorem Claimant.same_of_finish_ability
    {claimant : Claimant} {store before : Store} {ability : Ability}
    (found :
      Program.finish Program.undisturbed claimant.ability store =
        (.ok ability, before)) :
    before.Same store := by
  have same := claimant.readOnly_ability.same store
  rw [found] at same
  exact same

namespace Http

/-- The policies that are shown, and their number, in an envelope. -/
def listingContent (entries : List (Fields × Nat)) : Content :=
  .json
    (.record
      [("success", .boolean true),
       ("message", .text "Success"),
       ("data",
        .record
          [("policies",
            .list (entries.map fun entry => Registry.answered entry.1)),
           ("total", .integer entries.length)])])

namespace Call

/-- What a success with these data says. -/
def successRecord (data message : Value) : Value :=
  .record
    ([("success", .boolean true), ("message", message)] ++
      Envelope.dataField data)

/-- A success is answered unless it cannot be written. -/
theorem finish_succeed
    (interfere : Command → Store → Store) (data message : Value)
    (status : Nat) (store : Store) :
    Program.finish interfere (succeed data message status) store =
      (match (successRecord data message).writingFault? with
      | none => .ok (Response.json status (successRecord data message))
      | some failure => .error failure, store) := by
  unfold succeed Response.enveloped Envelope.success Envelope.ofContent
    Value.written successRecord
  rw [Program.finish_ofExcept]
  generalize
    Value.record ([("success", .boolean true), ("message", message)] ++
      Envelope.dataField data) = content
  cases content.writingFault? <;> rfl

theorem filter_of_finish_listPolicies
    {call : Call} {store left : Store} {response : Response}
    (ended :
      Program.finish Program.undisturbed call.listPolicies store =
        (.ok response, left)) :
    ∃ documents visible,
      sortedBy "created_at" (store.documents call.tenant.policies) =
          .ok documents ∧
        call.ability.filter "ListPolicies" "Policy" (fun policy => policy)
            (documents.map Registry.answered) =
          .ok visible ∧
        response.content =
          .json
            (.record
              [("success", .boolean true), ("message", .text "Success"),
                ("data", listing visible)]) := by
  obtain ⟨_, asked, demanded, ended⟩ := Program.exists_of_finish_bind ended
  have unchanged : asked = store :=
    (congrArg Prod.snd
      ((call.ability.finish_demand _ store).symm.trans demanded)).symm
  rw [unchanged] at ended
  obtain ⟨found, listed, read, ended⟩ := Program.exists_of_finish_bind ended
  obtain ⟨documents, sorted, rfl⟩ := Registry.sortedBy_of_finish_list read
  obtain ⟨visible, kept, filtering, ended⟩ :=
    Program.exists_of_finish_bind ended
  have filtered :=
    exists_of_mapError_eq_ok (congrArg Prod.fst filtering)
  refine ⟨documents, visible, sorted, filtered, ?_⟩
  rw [finish_succeed] at ended
  split at ended
  · cases ended
    rfl
  · cases ended

/-- The data of a listing can be written when the policies can. -/
theorem writingFault?_listing
    {visible : List Value}
    (writable : ∀ value ∈ visible, value.writingFault? = none) :
    (successRecord (listing visible) Envelope.successMessage).writingFault? =
      none := by
  have items := Value.itemsFault?_eq_none writable
  have number : (Value.integer visible.length).writingFault? = none := rfl
  have data : (listing visible).writingFault? = none := by
    unfold listing
    rw [Value.writingFault?, Value.fieldsFault?, Value.fieldsFault?,
      Value.fieldsFault?, Value.writingFault?, items, number]
    rfl
  have content :
      successRecord (listing visible) Envelope.successMessage =
        .record
          [("success", .boolean true), ("message", .text "Success"),
            ("data", listing visible)] := rfl
  rw [content, Value.writingFault?, Value.fieldsFault?, Value.fieldsFault?,
    Value.fieldsFault?, data]
  rfl

/-- A listing that nothing is in the way of is answered. -/
theorem exists_finish_listPolicies
    {call : Call} {store : Store}
    (canList :
      call.ability.CanList (store.documents call.tenant.policies)) :
    ∃ response left,
      Program.finish Program.undisturbed call.listPolicies store =
          (.ok response, left) ∧
        response.status = 200 := by
  obtain ⟨sorted, isSorted, permutes⟩ := exists_sortedBy canList.ordered
  obtain ⟨left, listed⟩ := Registry.finish_list isSorted
  have demanded :
      Program.finish Program.undisturbed
          (call.demand "ListPolicies" policySubject .null) store =
        (.ok (), store) := by
    unfold demand policySubject
    rw [Ability.finish_demand, canList.asked]
  let shown (policy : Value) : Bool :=
    call.ability.permits ⟨"ListPolicies", "Policy", policy⟩
  let visible := (sorted.map Registry.answered).filter shown
  have filtered :
      call.ability.filter "ListPolicies" policySubject (fun policy => policy)
          (sorted.map Registry.answered) =
        .ok visible :=
    Ability.filter_eq_ok fun policy member => by
      obtain ⟨document, stored, rfl⟩ := List.mem_map.mp member
      exact canList.decided document (permutes.mem_iff.mp stored)
  have writable : ∀ policy ∈ visible, policy.writingFault? = none := by
    intro policy member
    obtain ⟨document, stored, rfl⟩ :=
      List.mem_map.mp (List.mem_of_mem_filter member)
    exact canList.writable document (permutes.mem_iff.mp stored)
  refine
    ⟨Response.json 200
      (successRecord (listing visible) Envelope.successMessage), left, ?_,
      rfl⟩
  unfold listPolicies
  rw [Program.finish_bind_of_ok demanded, Program.finish_bind_of_ok listed,
    filtered]
  exact
    (finish_succeed _ _ _ _ left).trans (by rw [writingFault?_listing writable])

end Call

/-- An endpoint acts for the tenant of the claimant, with its ability. -/
theorem Endpoint.finish_serve
    {endpoint : Endpoint} {claimant : Claimant} {stamp : Stamp} {body : Body}
    {store before : Store} {ability : Ability} {tenant : Tenant}
    (found :
      Program.finish Program.undisturbed claimant.ability store =
        (.ok ability, before))
    (valid : Tenant.ofValue claimant.unit = .ok tenant) :
    Program.finish Program.undisturbed (endpoint.serve claimant stamp body)
        store =
      Program.finish Program.undisturbed
        (endpoint.act ⟨tenant, ability, claimant.principal, stamp, body⟩)
        before := by
  obtain ⟨-, -, -, unitKnown, -⟩ := Claimant.policies_of_finish_ability found
  have tenantFound :
      Program.finish Program.undisturbed claimant.tenant before =
        (.ok tenant, before) := by
    unfold Claimant.tenant
    rw [if_pos unitKnown, valid]
    rfl
  unfold serve
  rw [Program.finish_bind_of_ok found, Program.finish_bind_of_ok tenantFound]

/-- An endpoint that gives an answer does so with the ability that the stored policies
give to the claimant. -/
theorem Endpoint.exists_of_finish_serve
    {endpoint : Endpoint} {claimant : Claimant} {stamp : Stamp} {body : Body}
    {store left : Store} {response : Response}
    (ended :
      Program.finish Program.undisturbed (endpoint.serve claimant stamp body)
          store =
        (.ok response, left)) :
    ∃ tenant policies before,
      claimant.principal.isTruthy = true ∧
        claimant.unit.isTruthy = true ∧
        Tenant.ofValue claimant.unit = .ok tenant ∧
        (Program.run Program.undisturbed
            (Registry.effective tenant claimant.principal) store).result =
          .ok policies ∧
        before.Same store ∧
        Program.finish Program.undisturbed
            (endpoint.act
              ⟨tenant, Ability.ofPolicies policies, claimant.principal, stamp,
                body⟩)
            before =
          (.ok response, left) := by
  obtain ⟨ability, before, found, -⟩ := Program.exists_of_finish_bind ended
  obtain ⟨tenant, policies, known, unitKnown, valid, loaded, rfl⟩ :=
    Claimant.policies_of_finish_ability found
  rw [finish_serve found valid] at ended
  exact
    ⟨tenant, policies, before, known, unitKnown, valid, loaded,
      Claimant.same_of_finish_ability found, ended⟩

/-! ## The layers of a success -/

namespace Service

variable {service : Service} {occasion : Occasion} {request : Request}
  {claimant : Claimant} {endpoint : Endpoint} {body : Body}
  {response : Response}

/-- Neither the gate nor a failure gives a success. -/
theorem exists_pass_of_answer
    (succeeds : (service.answer occasion request).1.response.Succeeds) :
    ∃ claimant,
      Gate.pass service.configuration.signer service.session.now request =
          .ok claimant ∧
        (service.withOrigin occasion claimant request).1 =
          .ok (service.answer occasion request).1.response := by
  unfold answer at succeeds ⊢
  cases gated : service.withGate occasion request with
  | mk result rest =>
      obtain ⟨records, left⟩ := rest
      rw [gated] at succeeds
      cases result with
      | error failure =>
          exact absurd succeeds (left.not_succeeds_ended failure)
      | ok response =>
          unfold withGate at gated
          cases passed :
              Gate.pass service.configuration.signer service.session.now
                request with
          | error failure =>
              rw [passed] at gated
              exact
                absurd succeeds
                  (not_succeeds_of_answered_error (congrArg Prod.fst gated))
          | ok claimant =>
              rw [passed] at gated
              exact ⟨claimant, rfl, congrArg Prod.fst gated⟩

/-- The layer for origins adds headers. -/
theorem result_withOrigin
    (noPreflight : Origin.preflight? request = none)
    (occasion : Occasion) (claimant : Claimant) :
    (service.withOrigin occasion claimant request).1 =
      (service.route occasion claimant request).1.map
        (Response.adding
          (Origin.answerHeaders service.configuration request)) := by
  unfold withOrigin
  rw [noPreflight]

theorem exists_route_of_withOrigin
    (noPreflight : Origin.preflight? request = none)
    (given :
      (service.withOrigin occasion claimant request).1 = .ok response) :
    ∃ inner,
      (service.route occasion claimant request).1 = .ok inner ∧
        response =
          inner.adding (Origin.answerHeaders service.configuration request) := by
  rw [result_withOrigin noPreflight] at given
  cases routed : (service.route occasion claimant request).1 with
  | error failure =>
      rw [routed] at given
      cases given
  | ok inner =>
      rw [routed] at given
      cases given
      exact ⟨inner, rfl, rfl⟩

theorem route_of_find
    (found :
      Route.find service.routes request.method request.path =
        .endpoint endpoint)
    (occasion : Occasion) (claimant : Claimant) :
    service.route occasion claimant request =
      service.reach occasion claimant endpoint request := by
  unfold route
  rw [found]

theorem serve_of_reach
    (notHealth : endpoint ≠ .health)
    (given : (service.reach occasion claimant endpoint request).1 = .ok response)
    (succeeds : response.Succeeds) :
    (service.serve occasion claimant endpoint
        (if endpoint.takesBody then
          Body.ofRequest service.configuration.depth request
          else .absent)).1 =
      .ok response := by
  unfold reach at given
  split at given
  · exact absurd rfl notHealth
  · simp only at given
    split at given
    · exact absurd succeeds (Response.not_succeeds_of_ofIssues given)
    · cases given
      exact absurd succeeds (Response.not_succeeds_ofRefusal _)
    · exact given

/-- Once the database is reached, the endpoint's program is run. -/
theorem result_serve :
    (service.serve occasion claimant endpoint body).1 = (do
      let _ ←
        (service.connection.obtain service.databaseName occasion.ping).1
      answered
        (Program.finish occasion.interfere
          (endpoint.serve claimant service.session.stamp body)
          service.session.store).1) := by
  unfold serve
  cases service.connection.obtain service.databaseName occasion.ping with
  | mk handle rest =>
      cases handle <;> rfl

/-- A success of an endpoint for policies is what its program gives, with headers for
the origin. -/
theorem exists_finish_of_succeeds
    (reaches : service.Reaches request endpoint)
    (succeeds : (service.answer occasion request).1.response.Succeeds) :
    ∃ claimant response,
      Gate.pass service.configuration.signer service.session.now request =
          .ok claimant ∧
        (Program.finish occasion.interfere
            (endpoint.serve claimant service.session.stamp
              (if endpoint.takesBody then
                Body.ofRequest service.configuration.depth request
                else .absent))
            service.session.store).1 =
          .ok response ∧
        (service.answer occasion request).1.response =
          response.adding
            (Origin.answerHeaders service.configuration request) := by
  obtain ⟨noPreflight, found, notHealth⟩ := reaches
  obtain ⟨claimant, passed, given⟩ := exists_pass_of_answer succeeds
  obtain ⟨response, routed, answers⟩ :=
    exists_route_of_withOrigin noPreflight given
  have innerSucceeds : response.Succeeds := by
    rw [answers] at succeeds
    exact succeeds
  rw [route_of_find found] at routed
  have served := serve_of_reach notHealth routed innerSucceeds
  rw [result_serve] at served
  obtain ⟨_, -, given⟩ := exists_of_bind_eq_ok served
  exact
    ⟨claimant, response, passed, succeeds_of_answered given innerSucceeds,
      answers⟩

/-- A listing is answered when the database can be reached and nothing else is in its
way. -/
theorem status_of_canList
    {ping : Connection.Ping} {handle : Handle} {ability : Ability}
    {before : Store} {tenant : Tenant}
    (reaches : service.Reaches request .listPolicies)
    (passed :
      Gate.pass service.configuration.signer service.session.now request =
        .ok claimant)
    (connects :
      (service.connection.obtain service.databaseName ping).1 = .ok handle)
    (found :
      Program.finish Program.undisturbed claimant.ability
          service.session.store =
        (.ok ability, before))
    (valid : Tenant.ofValue claimant.unit = .ok tenant)
    (canList :
      ability.CanList (service.session.store.documents tenant.policies)) :
    (service.answer (quiet ping) request).1.response.status = 200 := by
  obtain ⟨noPreflight, routed, -⟩ := reaches
  rw [← Claimant.same_of_finish_ability found] at canList
  let call : Call :=
    ⟨tenant, ability, claimant.principal, service.session.stamp, .absent⟩
  have canListNow :
      call.ability.CanList (before.documents call.tenant.policies) := canList
  obtain ⟨response, left, listed, status⟩ :=
    Call.exists_finish_listPolicies canListNow
  have acted :
      Program.finish Program.undisturbed
          (Endpoint.listPolicies.serve claimant service.session.stamp .absent)
          service.session.store =
        (.ok response, left) := by
    rw [Endpoint.finish_serve found valid]
    exact listed
  have served :
      (service.serve (quiet ping) claimant .listPolicies .absent).1 =
        .ok response := by
    unfold quiet
    rw [result_serve, connects, acted]
    rfl
  have given :
      (service.withOrigin (quiet ping) claimant request).1 =
        .ok
          (response.adding
            (Origin.answerHeaders service.configuration request)) := by
    rw [result_withOrigin noPreflight, route_of_find routed]
    exact congrArg (Except.map (Response.adding _)) served
  rw [response_of_pass passed given]
  exact status

/-- Where the documents can be written, a listing that is answered shows the policies
of the unit that the caller's ability lets be listed, the oldest first, and their
number. -/
theorem shows_permitted_in_order
    (service : Service) (ping : Connection.Ping) (request : Request)
    (reaches : service.Reaches request .listPolicies)
    (writable :
      ∀ unit tenant, Tenant.ofUnit unit = .ok tenant →
        ∀ document ∈ service.session.store.documents tenant.policies,
          (Registry.answered document).writingFault? = none)
    (answers :
      (service.answer (quiet ping) request).1.response.status = 200) :
    ∃ principal unit tenant policies entries,
      service.Authenticates request principal unit ∧
        Tenant.ofUnit unit = .ok tenant ∧
        (Program.run Program.undisturbed
            (Registry.effective tenant (.text principal))
            service.session.store).result =
          .ok policies ∧
        (Ability.ofPolicies policies).Lists
          (service.session.store.documents tenant.policies) entries ∧
        (service.answer (quiet ping) request).1.response.content =
          listingContent entries := by
  have succeeds :
      (service.answer (quiet ping) request).1.response.Succeeds := by
    unfold Response.Succeeds
    omega
  obtain ⟨claimant, response, passed, finished, outer⟩ :=
    exists_finish_of_succeeds reaches succeeds
  obtain ⟨tenant, policies, before, known, unitKnown, valid, loaded, same,
    acted⟩ := Endpoint.exists_of_finish_serve (Prod.ext finished rfl)
  obtain ⟨documents, visible, sorted, filtered, content⟩ :=
    Call.filter_of_finish_listPolicies acted
  obtain ⟨principal, unit, rfl, authenticated⟩ :=
    authenticates_of_pass passed known unitKnown valid
  rw [same] at sorted
  have ascending :=
    sortedBy_ascending
      (fun document stored _ held =>
        Value.measured_of_serializedFields
          (writable unit tenant valid document stored) held)
      sorted
  obtain ⟨entries, lists, rfl⟩ :=
    Ability.exists_lists_of_filter ascending filtered
  refine
    ⟨principal, unit, tenant, policies, entries, authenticated, valid, loaded,
      lists, ?_⟩
  rw [outer, Response.adding, content, Call.listing, List.length_map,
    listingContent]

end Service

/-- Lets all policies be listed. -/
def readerPolicy : Policy :=
  ⟨"reader", .allow, ["Policy:ListPolicies"], ["*"], none⟩

/-- Keeps one policy, this one itself, from being listed. -/
def screenPolicy : Policy :=
  ⟨"screen", .deny, ["Policy:ListPolicies"], ["000000000000000000000003"],
    none⟩

def datedPolicy (number : UInt8) (policy : Policy) (instant : Int) : Fields :=
  ("_id", .id (.numbered number)) :: policy.dump ++
    [("created_at", .date (.ofMicroseconds instant))]

/-- The keeper has a policy that lets policies be listed and one that hides itself.
Two of the policies were created at the same time. -/
def readerService : Service :=
  { keeperService with
    session :=
      { keeperService.session with
        store :=
          ⟨[("office_policies",
              [datedPolicy 1 readerPolicy 2000000,
                datedPolicy 3 screenPolicy 0,
                datedPolicy 4 keeperPolicy 1000000,
                datedPolicy 5 keeperPolicy 1000000]),
            ("office_users",
              [[("_id", .id (.numbered 2)),
                ("policies", .list [.id (.numbered 1), .id (.numbered 3)])]])]⟩ } }

def readerRequest : Request :=
  ⟨"GET", "/api/v1/iam/policies/", [("Authorization", keeperHeader)], none, ""⟩

def readerTenant : Tenant := ⟨"office", "office"⟩

/-- The other collection holds identifiers in lists, which cannot be written, but it is
no collection of policies. -/
theorem readerService_writable (tenant : Tenant) :
    ∀ document ∈ readerService.session.store.documents tenant.policies,
      (Registry.answered document).writingFault? = none := by
  have writable :
      ∀ collection ∈ readerService.session.store.collections,
        "_policies".toList <:+ collection.1.toList →
          ∀ document ∈ collection.2,
            (Registry.answered document).writingFault?.isNone = true := by
    decide +kernel
  intro document stored
  obtain ⟨collection, kept, named, member⟩ :=
    Store.exists_of_mem_documents stored
  have suffix : "_policies".toList <:+ collection.1.toList :=
    named ▸ tenant.suffix_policies
  exact
    Option.isNone_iff_eq_none.mp
      (writable collection kept suffix document member)

theorem readerService_canList :
    ∃ ability before,
      Program.finish Program.undisturbed keeper.ability
          readerService.session.store =
        (.ok ability, before) ∧
      ability.CanList
        (readerService.session.store.documents readerTenant.policies) := by
  let query (resource : Value) : Query := ⟨"ListPolicies", "Policy", resource⟩
  let documents := readerService.session.store.documents readerTenant.policies
  have decidable :
      (Program.finish Program.undisturbed keeper.ability
          readerService.session.store).1.toOption.any
            (fun ability =>
              ability.permits (query .null) &&
                documents.all fun document =>
                  (ability.can
                    (query (Registry.answered document))).toOption.isSome) =
        true := by
    decide +kernel
  cases found :
      Program.finish Program.undisturbed keeper.ability
        readerService.session.store with
  | mk result before =>
      rw [found] at decidable
      cases result with
      | error failure =>
          cases decidable
      | ok ability =>
          obtain ⟨allowed, decided⟩ := Bool.and_eq_true_iff.mp decidable
          exact
            ⟨ability, before, rfl,
              { asked := Ability.permits_iff.mp allowed
                ordered := Option.isNone_iff_eq_none.mp (by decide +kernel)
                decided := fun document stored =>
                  Ability.isSome_can_iff.mp
                    (List.all_eq_true.mp decided document stored)
                writable := readerService_writable readerTenant }⟩

/-- What the keeper is shown: the two policies that were created at the same time, as
they are stored, and then the one that was created later. -/
def readerEntries : List (Fields × Nat) :=
  [(datedPolicy 4 keeperPolicy 1000000, 2),
    (datedPolicy 5 keeperPolicy 1000000, 3),
    (datedPolicy 1 readerPolicy 2000000, 0)]

theorem readerEntries_listed
    {policies : List Policy}
    (loaded :
      (Program.run Program.undisturbed
          (Registry.effective readerTenant keeper.principal)
          readerService.session.store).result =
        .ok policies) :
    (Ability.ofPolicies policies).Lists
      (readerService.session.store.documents readerTenant.policies)
      readerEntries := by
  let permits (policies : List Policy) (document : Fields) : Bool :=
    (Ability.ofPolicies policies).permits
      ⟨"ListPolicies", "Policy", Registry.answered document⟩
  have verdicts :
      (Program.run Program.undisturbed
          (Registry.effective readerTenant keeper.principal)
          readerService.session.store).result.toOption.map
            (fun policies =>
              (readerService.session.store.documents
                readerTenant.policies).map (permits policies)) =
        some [true, false, true, true] := by
    decide +kernel
  rw [loaded] at verdicts
  have decided :
      [permits policies (datedPolicy 1 readerPolicy 2000000),
          permits policies (datedPolicy 3 screenPolicy 0),
          permits policies (datedPolicy 4 keeperPolicy 1000000),
          permits policies (datedPolicy 5 keeperPolicy 1000000)] =
        [true, false, true, true] :=
    Option.some.inj verdicts
  simp only [List.cons.injEq, and_true] at decided
  have stored :
      (readerService.session.store.documents readerTenant.policies).zipIdx =
        [(datedPolicy 1 readerPolicy 2000000, 0),
          (datedPolicy 3 screenPolicy 0, 1),
          (datedPolicy 4 keeperPolicy 1000000, 2),
          (datedPolicy 5 keeperPolicy 1000000, 3)] :=
    rfl
  refine
    { permitted := fun entry => ?_
      once := List.Nodup.of_map Prod.snd (by decide)
      ascending := ?_ }
  · obtain ⟨reader, screen, first, second⟩ := decided
    rw [stored, ← Ability.permits_iff]
    simp only [readerEntries, List.mem_cons, List.not_mem_nil, or_false]
    constructor
    · rintro (rfl | rfl | rfl)
      · exact ⟨.inr (.inr (.inl rfl)), first⟩
      · exact ⟨.inr (.inr (.inr rfl)), second⟩
      · exact ⟨.inl rfl, reader⟩
    · rintro ⟨rfl | rfl | rfl | rfl, permitted⟩
      · exact .inr (.inr rfl)
      · exact absurd (screen.symm.trans permitted) Bool.false_ne_true
      · exact .inl rfl
      · exact .inr (.inl rfl)
  · have tied :
        ComesBefore "created_at" (datedPolicy 4 keeperPolicy 1000000, 2)
          (datedPolicy 5 keeperPolicy 1000000, 3) :=
      .inr ⟨rfl, by decide⟩
    have older (number : UInt8) (place : Nat) :
        ComesBefore "created_at" (datedPolicy number keeperPolicy 1000000, place)
          (datedPolicy 1 readerPolicy 2000000, 0) :=
      .inl (show ([1, 1000000] : Key) < [1, 2000000] by decide)
    simp only [readerEntries, List.pairwise_cons, List.mem_cons,
      List.not_mem_nil, or_false, forall_eq_or_imp, forall_eq]
    exact
      ⟨⟨tied, older 4 2⟩, older 5 3, fun _ absent => absurd absent id, .nil⟩

theorem readerRequest_shown :
    (readerService.Reaches readerRequest .listPolicies ∧
      (∀ unit tenant, Tenant.ofUnit unit = .ok tenant →
        ∀ document ∈ readerService.session.store.documents tenant.policies,
          (Registry.answered document).writingFault? = none) ∧
      (readerService.answer (Service.quiet none)
        readerRequest).1.response.status = 200) ∧
      ∃ principal unit tenant policies,
        readerService.Authenticates readerRequest principal unit ∧
          Tenant.ofUnit unit = .ok tenant ∧
          (Program.run Program.undisturbed
              (Registry.effective tenant (.text principal))
              readerService.session.store).result =
            .ok policies ∧
          (Ability.ofPolicies policies).Lists
            (readerService.session.store.documents tenant.policies)
            readerEntries ∧
          (readerService.answer (Service.quiet none)
              readerRequest).1.response.content =
            listingContent readerEntries := by
  have reaches : readerService.Reaches readerRequest .listPolicies :=
    ⟨rfl, by decide +kernel, by decide⟩
  have writable :
      ∀ unit tenant, Tenant.ofUnit unit = .ok tenant →
        ∀ document ∈ readerService.session.store.documents tenant.policies,
          (Registry.answered document).writingFault? = none :=
    fun _ tenant _ => readerService_writable tenant
  have closed : Gate.isOpen readerRequest = false := by
    decide +kernel
  have passed :
      Gate.pass readerService.configuration.signer readerService.session.now
          readerRequest =
        .ok keeper :=
    keeper_passes closed (by decide +kernel)
  obtain ⟨ability, before, found, canList⟩ := readerService_canList
  have status :
      (readerService.answer (Service.quiet none)
        readerRequest).1.response.status = 200 :=
    Service.status_of_canList reaches passed rfl found rfl canList
  obtain ⟨principal, unit, tenant, policies, entries, authenticated, valid,
    loaded, lists, content⟩ :=
      readerService.shows_permitted_in_order none readerRequest reaches
        writable status
  cases passed.symm.trans (Service.pass_of_authenticates closed authenticated)
  cases (show Tenant.ofUnit "office" = .ok readerTenant from rfl).symm.trans valid
  obtain rfl := lists.unique (readerEntries_listed loaded)
  exact
    ⟨⟨reaches, writable, status⟩, _, _, _, policies, authenticated, valid,
      loaded, lists, content⟩

end Http

end AccessControl
