import AccessControl.Proofs.Authorization
import AccessControl.Proofs.Revision

/-!
# The request log

The request log is kept behind the gate.  Of a request that the gate lets pass it
has one record when the request comes and one when it is answered, with the status
of the answer, whether the endpoint answers, refuses or fails.  Of a request that
the gate turns away it has none (`logs_iff_admits`).
-/

namespace AccessControl

/-- The record comes from inside, not from the request log itself. -/
def LogRecord.IsInner (record : LogRecord) : Prop :=
  record.reporter ≠ .request

theorem LogRecord.isInner_mk
    (level : Level) {reporter : Reporter} (text : String)
    (other : reporter ≠ .request) :
    IsInner ⟨level, reporter, text⟩ :=
  other

namespace Program

variable {α β : Type}

/-- All records that the program notes are allowed. -/
inductive Notes (allowed : LogRecord → Prop) {α : Type} : Program α → Prop
  | done (result : Except Failure α) : Notes allowed (done result)
  | note {record : LogRecord} {next : Program α} :
      allowed record → Notes allowed next → Notes allowed (note record next)
  | ask (command : Command) {next : command.deed.Reply → Program α} :
      (∀ reply, Notes allowed (next reply)) → Notes allowed (ask command next)

namespace Notes

variable {allowed : LogRecord → Prop}

theorem log {record : LogRecord} (allows : allowed record) :
    Notes allowed (log record) :=
  .note allows (.done _)

theorem logAll
    {records : List LogRecord} (allow : ∀ record ∈ records, allowed record) :
    Notes allowed (logAll records) := by
  induction records with
  | nil =>
      exact .done _
  | cons record rest inductionHypothesis =>
      rw [List.forall_mem_cons] at allow
      exact .note allow.1 (inductionHypothesis allow.2)

theorem query (collection : String) (deed : Deed) :
    Notes allowed (query collection deed) :=
  .ask _ fun _ => .done _

theorem bind
    {program : Program α} {rest : α → Program β}
    (first : Notes allowed program)
    (next : ∀ value, Notes allowed (rest value)) :
    Notes allowed (program >>= rest) := by
  induction first with
  | done result =>
      cases result with
      | error failure =>
          exact .done _
      | ok value =>
          exact next value
  | note allows _ inductionHypothesis =>
      exact .note allows inductionHypothesis
  | ask command _ inductionHypothesis =>
      exact .ask command inductionHypothesis

/-- A run writes what its program notes. -/
theorem of_mem_records
    {program : Program α} (notes : Notes allowed program)
    (interfere : Command → Store → Store) {store : Store}
    {record : LogRecord}
    (written : record ∈ (run interfere program store).records) :
    allowed record := by
  induction notes generalizing store with
  | done result =>
      cases written
  | note allows _ inductionHypothesis =>
      rcases List.mem_cons.mp written with rfl | written
      · exact allows
      · exact inductionHypothesis written
  | ask command _ inductionHypothesis =>
      exact inductionHypothesis _ written

end Notes

/-- The program leaves the request log alone. -/
abbrev Inner (program : Program α) : Prop :=
  program.Notes LogRecord.IsInner

end Program

namespace Registry

open Program (Inner)

theorem inner_gather (unit : String) (found : List Fields) (groups : List Value) :
    Inner (gather unit found groups) := by
  induction groups with
  | nil =>
      exact .done _
  | cons group rest inductionHypothesis =>
      unfold gather
      cases group.isKey with
      | false =>
          exact .done _
      | true =>
          cases documentOf found group with
          | none =>
              exact
                .note (LogRecord.isInner_mk _ _ (by decide))
                  inductionHypothesis
          | some document =>
              exact (Program.Notes.done _).bind fun ids =>
                inductionHypothesis.bind fun others => .done _

theorem inner_valid (found : List Fields) (ids : List Value) :
    Inner (valid found ids) := by
  induction ids with
  | nil =>
      exact .done _
  | cons id rest inductionHypothesis =>
      unfold valid
      cases documentOf found id with
      | none =>
          exact inductionHypothesis
      | some document =>
          simp only
          cases Policy.ofFields document with
          | ok policy =>
              exact inductionHypothesis.bind fun others => .done _
          | error issues =>
              exact
                .note (LogRecord.isInner_mk _ _ (by decide))
                  inductionHypothesis

variable (tenant : Tenant)

theorem inner_groupPolicyIds (groups : Value) :
    Inner (groupPolicyIds tenant groups) := by
  have searched : Inner (groupsIn tenant groups) := by
    cases groups with
    | list ids =>
        exact .query _ _
    | _ =>
        exact (Program.Notes.query _ _).bind fun documents => .done _
  unfold groupPolicyIds
  cases groups.isTruthy with
  | false =>
      exact .done _
  | true =>
      exact searched.bind fun found =>
        (Program.Notes.done _).bind fun names => inner_gather tenant.unit found names

theorem inner_policiesOf (ids : List Value) :
    Inner (policiesOf tenant ids) := by
  unfold policiesOf
  cases ids.find? (!·.isKey) with
  | some id =>
      exact .done _
  | none =>
      cases ids.isEmpty with
      | true =>
          exact .done _
      | false =>
          exact (Program.Notes.query _ _).bind fun found => inner_valid found ids

theorem inner_effective (principal : Value) :
    Inner (effective tenant principal) := by
  unfold effective
  cases principal.recordId? with
  | none =>
      exact .note (LogRecord.isInner_mk _ _ (by decide)) (.done _)
  | some id =>
      refine (Program.Notes.query _ _).bind fun found => ?_
      cases found with
      | none =>
          exact .done _
      | some document =>
          exact (Program.Notes.done _).bind fun own =>
            (inner_groupPolicyIds tenant _).bind fun inherited =>
              inner_policiesOf tenant _

theorem inner_requireId (subject : String) (value : Value) :
    Inner (requireId subject value) := by
  unfold requireId
  cases value.recordId? <;> exact .done _

theorem inner_stored (id : ObjectId) : Inner (stored tenant id) := by
  refine (Program.Notes.query _ _).bind fun found => ?_
  cases found <;> exact .done _

theorem inner_get (policy : Value) : Inner (get tenant policy) :=
  (inner_requireId _ _).bind fun id =>
    (inner_stored tenant id).bind fun _ => .done _

theorem inner_list : Inner (list tenant) := by
  refine (Program.Notes.query _ _).bind fun found => ?_
  cases found <;> exact .done _

theorem inner_announce (text : String) : Inner (announce text) :=
  .log (LogRecord.isInner_mk _ _ (by decide))

theorem inner_create (stamp : Stamp) (data createdBy : Value) :
    Inner (create tenant stamp data createdBy) := by
  refine (Program.Notes.done _).bind fun policy => ?_
  refine (Program.Notes.query _ _).bind fun namesake => ?_
  cases namesake with
  | some document =>
      exact .done _
  | none =>
      exact (Program.Notes.done _).bind fun now =>
        (Program.Notes.query _ _).bind fun inserted =>
          (inner_announce _).bind fun announced => .done _

theorem inner_overwrite
    (now : Except Clock.Fault Timestamp) (id : ObjectId) (merged : Policy) :
    Inner (overwrite tenant now id merged) := by
  refine (Program.Notes.done _).bind fun time => ?_
  refine (Program.Notes.query _ _).bind fun found => ?_
  cases found <;> exact .done _

theorem inner_update
    (now : Except Clock.Fault Timestamp) (policy changes : Value) :
    Inner (update tenant now policy changes) := by
  refine (inner_requireId _ _).bind fun id => ?_
  refine (inner_stored tenant id).bind fun current => ?_
  cases changes with
  | record given =>
      refine (Program.Notes.done _).bind fun merged => ?_
      simp only
      split
      · have asked : Inner (hasNamesake tenant id merged.name) :=
          (Program.Notes.query _ _).bind fun found => .done _
        refine asked.bind fun taken => ?_
        cases taken with
        | true =>
            exact .done _
        | false =>
            exact inner_overwrite tenant now id merged
      · exact inner_overwrite tenant now id merged
  | _ =>
      exact .done _

theorem inner_delete (policy : Value) : Inner (delete tenant policy) := by
  refine (inner_requireId _ _).bind fun id => ?_
  refine (Program.Notes.query _ _).bind fun deleted => ?_
  cases deleted with
  | false =>
      exact .done _
  | true =>
      exact (Program.Notes.query _ _).bind fun _ =>
        (Program.Notes.query _ _).bind fun _ =>
          (inner_announce _).bind fun announced => .done _

theorem inner_changeList
    (principal : ObjectId) (edit : ArrayEdit) (text : String) :
    Inner (changeList tenant principal edit text) := by
  refine (Program.Notes.query _ _).bind fun found => ?_
  cases found <;> exact .done _

theorem inner_attach (principal policy : Value) :
    Inner (attach tenant principal policy) :=
  (inner_requireId _ _).bind fun _ =>
    (inner_requireId _ _).bind fun policyId =>
      (inner_stored tenant policyId).bind fun _ =>
        inner_changeList tenant _ _ _

theorem inner_detach (principal policy : Value) :
    Inner (detach tenant principal policy) :=
  (inner_requireId _ _).bind fun _ =>
    (inner_requireId _ _).bind fun _ => inner_changeList tenant _ _ _

end Registry

section Access

open Program (Inner)

/-- The compiler reports in its own name. -/
theorem reporter_of_mem_reportsOf
    {policies : List Policy} {record : LogRecord}
    (reported : record ∈ reportsOf (Policy.compile policies)) :
    record.reporter = .compiler := by
  obtain ⟨outcome, compiled, kept⟩ := List.mem_filterMap.mp reported
  obtain ⟨policy, -, outcomeOf⟩ := List.mem_flatMap.mp compiled
  obtain ⟨action, -, rfl⟩ := List.mem_map.mp outcomeOf
  unfold Policy.outcome at kept
  cases ruled : policy.rule action with
  | ok rule =>
      rw [ruled] at kept
      cases kept
  | error fault =>
      rw [ruled] at kept
      cases kept
      cases fault <;> rfl

theorem Ability.inner_compiled (policies : List Policy) :
    Inner (compiled policies) := by
  refine (Program.Notes.logAll fun record reported => ?_).bind fun _ => .done _
  unfold LogRecord.IsInner
  rw [reporter_of_mem_reportsOf reported]
  decide

theorem Ability.inner_demand (ability : Ability) (query : Query) :
    Inner (ability.demand query) := by
  refine (Program.Notes.done _).bind fun allowed => ?_
  cases allowed with
  | true =>
      exact .done _
  | false =>
      exact .note (LogRecord.isInner_mk _ _ (by decide)) (.done _)

theorem Claimant.inner_tenant (claimant : Claimant) : Inner claimant.tenant := by
  unfold tenant
  cases claimant.unit.isTruthy <;> exact .done _

theorem Claimant.inner_ability (claimant : Claimant) :
    Inner claimant.ability := by
  unfold ability
  cases claimant.principal.isTruthy with
  | false =>
      exact .done _
  | true =>
      exact claimant.inner_tenant.bind fun tenant =>
        (Registry.inner_effective tenant _).bind fun policies =>
          Ability.inner_compiled policies

end Access

namespace Http

namespace Endpoint

open Program (Inner)

theorem inner_withBody
    {α : Type} (call : Call) {ofFields : Fields → Verdict α}
    {rest : α → Program Response} (inner : ∀ read, Inner (rest read)) :
    Inner (call.withBody ofFields rest) := by
  unfold Call.withBody
  cases call.body.check ofFields with
  | error issues =>
      exact .done _
  | ok read =>
      exact inner read

theorem inner_act (endpoint : Endpoint) (call : Call) :
    Inner (endpoint.act call) := by
  have demanded (verb subjectType : String) (resource : Value) :
      Inner (call.demand verb subjectType resource) :=
    call.ability.inner_demand _
  cases endpoint with
  | createPolicy =>
      exact inner_withBody call fun policy =>
        (demanded _ _ _).bind fun _ =>
          (Registry.inner_create _ _ _ _).bind fun created => .done _
  | listPolicies =>
      exact (demanded _ _ _).bind fun _ =>
        (Registry.inner_list _).bind fun policies =>
          (Program.Notes.done _).bind fun visible => .done _
  | getPolicy policy =>
      exact (Registry.inner_get _ _).bind fun found =>
        (demanded _ _ _).bind fun _ => .done _
  | updatePolicy policy =>
      exact inner_withBody call fun patch =>
        (Registry.inner_get _ _).bind fun found =>
          (demanded _ _ _).bind fun _ =>
            (Registry.inner_update _ _ _ _).bind fun updated => .done _
  | deletePolicy policy =>
      exact (Registry.inner_get _ _).bind fun found =>
        (demanded _ _ _).bind fun _ =>
          (Registry.inner_delete _ _).bind fun deleted => .done _
  | attachPolicy principal policy =>
      exact (demanded _ _ _).bind fun _ =>
        (Registry.inner_attach _ _ _).bind fun attached => .done _
  | detachPolicy principal policy =>
      exact (demanded _ _ _).bind fun _ =>
        (Registry.inner_detach _ _ _).bind fun detached => .done _
  | health =>
      exact .done _

theorem inner_serve
    (endpoint : Endpoint) (claimant : Claimant) (stamp : Stamp)
    (body : Body) :
    Inner (endpoint.serve claimant stamp body) :=
  claimant.inner_ability.bind fun _ =>
    claimant.inner_tenant.bind fun _ => endpoint.inner_act _

end Endpoint

/-! ## Layers inside the log -/

/-- Nothing that the layer writes comes from the request log. -/
def Layer.Inner (layer : Layer) : Prop :=
  ∀ record ∈ layer.2.1, record.IsInner

theorem Layer.inner_of_nil (result : Except Failure Response) (service : Service) :
    Layer.Inner (result, [], service) :=
  List.forall_mem_nil _

end Http

theorem Connection.inner_obtain
    (connection : Connection) (name : String) (ping : Ping) :
    ∀ record ∈ (connection.obtain name ping).2.1, record.IsInner := by
  unfold obtain connect
  cases connection.connected with
  | true =>
      exact List.forall_mem_nil _
  | false =>
      cases ping with
      | none =>
          exact List.forall_mem_singleton.mpr
            (LogRecord.isInner_mk _ _ (by decide))
      | some fault =>
          exact List.forall_mem_singleton.mpr
            (LogRecord.isInner_mk _ _ (by decide))

namespace Http.Service

variable (service : Service) (occasion : Occasion) (claimant : Claimant)
  (request : Request)

theorem inner_serve (endpoint : Endpoint) (body : Body) :
    (service.serve occasion claimant endpoint body).Inner := by
  have connecting :=
    service.connection.inner_obtain service.databaseName occasion.ping
  unfold serve
  cases obtained :
      service.connection.obtain service.databaseName occasion.ping with
  | mk handle rest =>
      rw [obtained] at connecting
      cases handle with
      | error failure =>
          exact connecting
      | ok handle =>
          intro record written
          rcases List.mem_append.mp written with written | written
          · exact connecting record written
          · exact
              (endpoint.inner_serve claimant _ body).of_mem_records
                occasion.interfere written

theorem inner_reach (endpoint : Endpoint) :
    (service.reach occasion claimant endpoint request).Inner := by
  unfold reach
  split
  · exact Layer.inner_of_nil _ _
  · simp only
    split
    · exact Layer.inner_of_nil _ _
    · exact Layer.inner_of_nil _ _
    · exact service.inner_serve occasion claimant endpoint _

theorem inner_route : (service.route occasion claimant request).Inner := by
  unfold route
  cases Route.find service.routes request.method request.path with
  | endpoint endpoint =>
      exact service.inner_reach occasion claimant request endpoint
  | notAllowed allowed =>
      exact Layer.inner_of_nil _ _
  | elsewhere path =>
      exact Layer.inner_of_nil _ _
  | nowhere =>
      exact Layer.inner_of_nil _ _

theorem inner_withOrigin :
    (service.withOrigin occasion claimant request).Inner := by
  unfold withOrigin
  cases Origin.preflight? request with
  | some preflight =>
      exact Layer.inner_of_nil _ _
  | none =>
      exact service.inner_route occasion claimant request

end Http.Service

namespace LogRecord

/-- The record is one of the request log that begins with this mark. -/
def bears (mark : String) (record : LogRecord) : Bool :=
  record.reporter == .request &&
    mark.toList.isPrefixOf record.text.toList

abbrev isArrival : LogRecord → Bool :=
  bears "-->"

abbrev isDeparture : LogRecord → Bool :=
  bears "<--"

theorem bears_eq_false_of_isInner
    {record : LogRecord} (inner : record.IsInner) (mark : String) :
    record.bears mark = false := by
  unfold bears
  rw [beq_false_of_ne inner, Bool.false_and]

theorem filter_bears_of_inner
    {records : List LogRecord} (inner : ∀ record ∈ records, record.IsInner)
    (mark : String) :
    records.filter (bears mark) = [] := by
  rw [List.filter_eq_nil_iff]
  intro record member
  rw [bears_eq_false_of_isInner (inner record member)]
  exact Bool.false_ne_true

end LogRecord

namespace Http

namespace Service

/-- What a record of the request log begins with is seen from the first part of its
text. -/
theorem bears_note (level : Level) (mark first rest : String) :
    (note level (first ++ rest)).bears mark =
      mark.toList.isPrefixOf (first.toList ++ rest.toList) := by
  unfold note LogRecord.bears
  rw [String.toList_append]
  rfl

variable (service : Service) (occasion : Occasion) (request : Request)

theorem bears_arrival :
    (arrival request).isArrival = true ∧
      (arrival request).isDeparture = false := by
  simp only [LogRecord.isArrival, LogRecord.isDeparture, arrival,
    String.append_assoc, bears_note]
  exact ⟨rfl, rfl⟩

theorem bears_departure (elapsed : Double) (status : Nat) :
    (departure request elapsed status).isArrival = false ∧
      (departure request elapsed status).isDeparture = true := by
  simp only [LogRecord.isArrival, LogRecord.isDeparture, departure,
    String.append_assoc, bears_note]
  exact ⟨rfl, rfl⟩

theorem bears_exception (failure : Failure) :
    (note .error s!"    Exception: {failure.message}").isArrival = false ∧
      (note .error s!"    Exception: {failure.message}").isDeparture =
        false := by
  simp only [LogRecord.isArrival, LogRecord.isDeparture, bears_note]
  exact ⟨rfl, rfl⟩

theorem bears_unhandled :
    (note .error s!"Unhandled exception on {title request}:").isArrival =
        false ∧
      (note .error s!"Unhandled exception on {title request}:").isDeparture =
        false := by
  simp only [LogRecord.isArrival, LogRecord.isDeparture, String.append_assoc,
    bears_note]
  exact ⟨rfl, rfl⟩

/-- The status that the outcome of a layer is answered with in the end. -/
def statusOf : Except Failure Response → Nat
  | .ok response => response.status
  | .error _ => 500

theorem status_ended (failure : Failure) :
    (service.ended failure).1.status = 500 := by
  unfold ended
  cases service.session.now <;> rfl

/-- What the service adds at the very end is no record of a coming or an answer. -/
theorem answer_eq_withGate :
    (service.answer occasion request).1.response.status =
        statusOf (service.withGate occasion request).1 ∧
      (service.answer occasion request).1.records.filter
          LogRecord.isArrival =
        (service.withGate occasion request).2.1.filter
          LogRecord.isArrival ∧
      (service.answer occasion request).1.records.filter
          LogRecord.isDeparture =
        (service.withGate occasion request).2.1.filter
          LogRecord.isDeparture := by
  unfold answer
  cases service.withGate occasion request with
  | mk result rest =>
      cases result with
      | ok response =>
          exact ⟨rfl, rfl, rfl⟩
      | error failure =>
          have last := bears_unhandled request
          simp only [List.filter_append]
          rw [List.filter_cons_of_neg (ne_true_of_eq_false last.1),
            List.filter_cons_of_neg (ne_true_of_eq_false last.2)]
          exact
            ⟨rest.2.status_ended failure, List.append_nil _,
              List.append_nil _⟩

/-! ## What the log has of a request -/

/-- The gate lets the request pass: it is open to everybody, or its token names a
principal and a unit. -/
def Admits : Prop :=
  request.method = "OPTIONS" ∨
    (∃ ending ∈ Gate.publicEndings,
      Path.endsIn (Path.logged request.path) ending = true) ∨
    ∃ text claims principal unit,
      Gate.token ((request.header? "authorization").getD "") = .ok text ∧
        Token.claimsOf service.configuration.signer service.session.now
            (Token.bytesOf text) =
          .ok claims ∧
        claims.get? "sub" = some principal ∧ principal.isTruthy = true ∧
        claims.get? "unit" = some unit ∧ unit.isTruthy = true

/-- The log has the request with its method and path once when it comes, and once
when it is answered, with the status of the answer and how long it took. -/
structure Answer.Logs (answer : Answer) (request : Request) (elapsed : Double) :
    Prop where
  arrived :
    ∃ client : String,
      let path := Path.logged request.path
      answer.records.filter LogRecord.isArrival =
        [⟨.info, .request, s!"--> {request.method} {path} (from {client})"⟩]
  departed :
    ∃ level : Level,
      let path := Path.logged request.path
      let status := answer.response.status
      let duration := String.ofList elapsed.text
      answer.records.filter LogRecord.isDeparture =
        [⟨level, .request,
          s!"<-- {request.method} {path} | {status} | {duration}ms"⟩]

variable {service request}

theorem isOpen_iff :
    Gate.isOpen request = true ↔
      request.method = "OPTIONS" ∨
        ∃ ending ∈ Gate.publicEndings,
          Path.endsIn (Path.logged request.path) ending = true := by
  unfold Gate.isOpen
  rw [Bool.or_eq_true, beq_iff_eq, List.any_eq_true]

theorem exists_claimant_iff {claims : Fields} :
    (∃ claimant, Gate.claimant claims = .ok claimant) ↔
      ∃ principal unit,
        claims.get? "sub" = some principal ∧ principal.isTruthy = true ∧
          claims.get? "unit" = some unit ∧ unit.isTruthy = true := by
  constructor
  · rintro ⟨claimant, named⟩
    obtain ⟨principal, unit⟩ := Gate.fields_of_claimant named
    simp only [Gate.claimant] at named
    split at named
    · rename_i truthy
      rw [Bool.and_eq_true] at truthy
      exact
        ⟨_, _, get?_of_truthy rfl truthy.1, truthy.1,
          get?_of_truthy rfl truthy.2, truthy.2⟩
    · cases named
  · rintro ⟨principal, unit, subject, truthy, unitOf, unitTruthy⟩
    refine ⟨⟨principal, unit⟩, ?_⟩
    unfold Gate.claimant
    simp only [subject, unitOf, Option.getD_some, truthy, unitTruthy]
    rfl

theorem admits_iff :
    service.Admits request ↔
      ∃ claimant,
        Gate.pass service.configuration.signer service.session.now request =
          .ok claimant := by
  unfold Admits
  rw [← or_assoc, ← isOpen_iff]
  cases isOpen : Gate.isOpen request with
  | true =>
      refine iff_of_true (.inl rfl) ⟨Claimant.nobody, ?_⟩
      unfold Gate.pass
      rw [isOpen, if_pos rfl]
  | false =>
      rw [or_iff_right Bool.false_ne_true]
      simp only [Gate.pass_eq_ok_iff isOpen]
      constructor
      · rintro ⟨text, claims, principal, unit, shown, read, named⟩
        obtain ⟨claimant, naming⟩ :=
          exists_claimant_iff.mpr ⟨principal, unit, named⟩
        exact ⟨claimant, text, claims, shown, read, naming⟩
      · rintro ⟨claimant, text, claims, shown, read, naming⟩
        obtain ⟨principal, unit, named⟩ :=
          exists_claimant_iff.mp ⟨claimant, naming⟩
        exact ⟨text, claims, principal, unit, shown, read, named⟩

/-- Behind the gate a request leaves its two records, and no other one like them. -/
theorem filter_withRecords
    (service : Service) (occasion : Occasion) (request : Request)
    (claimant : Claimant) :
    (service.withRecords occasion claimant request).2.1.filter
          LogRecord.isArrival =
        [arrival request] ∧
      (service.withRecords occasion claimant request).2.1.filter
          LogRecord.isDeparture =
        [departure request service.elapsed
          (statusOf (service.withRecords occasion claimant request).1)] := by
  have silent :=
    LogRecord.filter_bears_of_inner
      (service.inner_withOrigin occasion claimant request)
  have arrived := bears_arrival request
  have ended (result : Except Failure Response) :
      (ending request service.elapsed result).filter LogRecord.isArrival = [] ∧
        (ending request service.elapsed result).filter LogRecord.isDeparture =
          [departure request service.elapsed (statusOf result)] := by
    have departed := bears_departure request service.elapsed (statusOf result)
    cases result with
    | ok response =>
        exact
          ⟨List.filter_cons_of_neg (ne_true_of_eq_false departed.1),
            List.filter_cons_of_pos departed.2⟩
    | error failure =>
        have excepted := bears_exception failure
        have others :
            [note .error s!"    Exception: {failure.message}"].filter
                  LogRecord.isArrival =
                [] ∧
              [note .error s!"    Exception: {failure.message}"].filter
                  LogRecord.isDeparture =
                [] :=
          ⟨List.filter_cons_of_neg (ne_true_of_eq_false excepted.1),
            List.filter_cons_of_neg (ne_true_of_eq_false excepted.2)⟩
        constructor
        · exact
            (List.filter_cons_of_neg (ne_true_of_eq_false departed.1)).trans
              others.1
        · exact
            (List.filter_cons_of_pos departed.2).trans
              (congrArg (departure request service.elapsed 500 :: ·) others.2)
  unfold withRecords
  simp only [List.cons_append]
  rw [List.filter_cons_of_pos arrived.1,
    List.filter_cons_of_neg (ne_true_of_eq_false arrived.2),
    List.filter_append, List.filter_append, (ended _).1, (ended _).2]
  exact
    ⟨congrArg (arrival request :: · ++ []) (silent "-->"),
      congrArg (· ++ _) (silent "<--")⟩

/-- A request that the gate lets pass is logged when it comes and when it is
answered, however it is answered; one that the gate turns away is not logged. -/
theorem logs_iff_admits
    (service : Service) (occasion : Occasion) (request : Request) :
    ((service.answer occasion request).1.Logs request service.elapsed ↔
      service.Admits request) ∧
      (¬ service.Admits request →
        ∀ record ∈ (service.answer occasion request).1.records,
          record.isArrival = false ∧ record.isDeparture = false) := by
  obtain ⟨status, arrivals, departures⟩ :=
    service.answer_eq_withGate occasion request
  rw [admits_iff]
  cases passed :
      Gate.pass service.configuration.signer service.session.now request with
  | ok claimant =>
      have entered :
          service.withGate occasion request =
            service.withRecords occasion claimant request := by
        unfold withGate
        rw [passed]
      obtain ⟨arrived, departed⟩ :=
        service.filter_withRecords occasion request claimant
      rw [entered] at status arrivals departures
      have logs :
          (service.answer occasion request).1.Logs request service.elapsed := by
        have answeredAs := departures.trans departed
        rw [← status] at answeredAs
        exact ⟨⟨_, arrivals.trans arrived⟩, ⟨_, answeredAs⟩⟩
      exact
        ⟨iff_of_true logs ⟨claimant, rfl⟩,
          fun turnedAway => absurd ⟨claimant, rfl⟩ turnedAway⟩
  | error failure =>
      have turnedAway :
          (service.withGate occasion request).2.1 = [] := by
        unfold withGate
        rw [passed]
      rw [turnedAway] at arrivals departures
      have noClaimant :
          ¬ ∃ claimant : Claimant, Except.error failure = .ok claimant := by
        rintro ⟨claimant, isClaimant⟩
        cases isClaimant
      refine ⟨iff_of_false ?_ noClaimant, fun _ record member => ?_⟩
      · intro logs
        obtain ⟨client, arrived⟩ := logs.arrived
        rw [arrivals] at arrived
        cases arrived
      · have noArrival := List.filter_eq_nil_iff.mp arrivals record member
        have noDeparture := List.filter_eq_nil_iff.mp departures record member
        exact
          ⟨eq_false_of_ne_true noArrival, eq_false_of_ne_true noDeparture⟩

end Service

/-- A request without a token. -/
def tokenless : Request :=
  ⟨"GET", "/api/v1/iam/policies/", [], some "client", ""⟩

theorem tokenless_unlogged :
    (keeperService.answer (Service.quiet none) tokenless).1.response.status =
        401 ∧
      (keeperService.answer (Service.quiet none) tokenless).1.records = [] ∧
      ¬ (keeperService.answer (Service.quiet none) tokenless).1.Logs
          tokenless keeperService.elapsed := by
  have silent :
      (keeperService.answer (Service.quiet none) tokenless).1.records = [] := by
    decide +kernel
  refine ⟨by decide +kernel, silent, fun logs => ?_⟩
  obtain ⟨client, arrived⟩ := logs.arrived
  rw [silent] at arrived
  cases arrived

end Http

end AccessControl
