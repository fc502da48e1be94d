import AccessControl.Http.Service
import AccessControl.Proofs.Endpoint

/-!
# No effect without authorization

A request can change the documents of the store, or be answered with a success
by an endpoint for policies, only when its token names a principal and a unit
and the stored policies of that principal allow what the endpoint asks.  The
law goes through the layers of the service from the outside to the inside:
`takesEffect_of_answer` and its followers say that each layer takes effect only
when the next one does.
-/

namespace AccessControl

namespace Token

theorem isText_of_checkClaim
    {claims : Fields} {name : String} {value : Value}
    (accepted : checkClaim claims name isText = .ok ())
    (found : claims.get? name = some value) :
    ∃ text, value = .text text := by
  unfold checkClaim at accepted
  rw [found] at accepted
  cases value with
  | text text =>
      exact ⟨text, rfl⟩
  | _ =>
      cases accepted

/-- The subject of accepted claims is a text. -/
theorem subject_of_check
    {now : Except Clock.Fault Timestamp} {claims : Fields} {subject : Value}
    (accepted : check now claims = .ok ())
    (found : claims.get? "sub" = some subject) :
    ∃ text, subject = .text text := by
  unfold check at accepted
  obtain ⟨_, -, accepted⟩ := exists_of_bind_eq_ok accepted
  obtain ⟨_, -, accepted⟩ := exists_of_bind_eq_ok accepted
  obtain ⟨_, -, accepted⟩ := exists_of_bind_eq_ok accepted
  obtain ⟨_, -, accepted⟩ := exists_of_bind_eq_ok accepted
  obtain ⟨_, subjectAccepted, -⟩ := exists_of_bind_eq_ok accepted
  exact isText_of_checkClaim subjectAccepted found

theorem check_of_claimsOf
    {signer : Signer} {now : Except Clock.Fault Timestamp}
    {token : List UInt8} {claims : Fields}
    (read : claimsOf signer now token = .ok claims) :
    check now claims = .ok () := by
  unfold claimsOf at read
  obtain ⟨found, -, read⟩ := exists_of_bind_eq_ok read
  obtain ⟨_, checked, read⟩ := exists_of_bind_eq_ok read
  cases read
  exact checked

end Token

namespace Http

/-- The request carries an acceptable token that names this principal and this
unit. -/
def Service.Authenticates (service : Service) (request : Request)
    (principal unit : String) : Prop :=
  ∃ text claims,
    Gate.token ((request.header? "authorization").getD "") = .ok text ∧
    Token.claimsOf service.configuration.signer service.session.now
        (Token.bytesOf text) =
      .ok claims ∧
    claims.get? "sub" = some (.text principal) ∧ principal ≠ "" ∧
    claims.get? "unit" = some (.text unit) ∧ unit ≠ ""

theorem Gate.fields_of_claimant
    {claims : Fields} {claimant : Claimant}
    (named : Gate.claimant claims = .ok claimant) :
    (claims.get? "sub").getD .null = claimant.principal ∧
      (claims.get? "unit").getD .null = claimant.unit := by
  simp only [Gate.claimant] at named
  split at named
  · cases named
    exact ⟨rfl, rfl⟩
  · cases named

/-- A field that counts as something is there. -/
theorem get?_of_truthy
    {claims : Fields} {name : String} {value : Value}
    (read : (claims.get? name).getD .null = value)
    (truthy : value.isTruthy = true) :
    claims.get? name = some value := by
  cases found : claims.get? name with
  | none =>
      rw [found] at read
      cases read
      cases truthy
  | some other =>
      rw [found] at read
      exact congrArg some read

theorem ne_empty_of_truthy
    {text : String} (truthy : (Value.text text).isTruthy = true) :
    text ≠ "" :=
  bne_iff_ne.mp truthy

/-- A token is read, then its claims, and then who they name. -/
theorem Gate.pass_eq_ok_iff
    {signer : Signer} {now : Except Clock.Fault Timestamp} {request : Request}
    {named : Claimant} (closed : isOpen request = false) :
    pass signer now request = .ok named ↔
      ∃ text claims,
        token ((request.header? "authorization").getD "") = .ok text ∧
          Token.claimsOf signer now (Token.bytesOf text) = .ok claims ∧
          claimant claims = .ok named := by
  unfold pass
  rw [closed, if_neg Bool.false_ne_true]
  constructor
  · intro passed
    obtain ⟨text, shown, passed⟩ := exists_of_bind_eq_ok passed
    obtain ⟨claims, read, naming⟩ := exists_of_bind_eq_ok passed
    exact
      ⟨text, claims, exists_of_mapError_eq_ok shown, read,
        exists_of_mapError_eq_ok naming⟩
  · rintro ⟨text, claims, shown, read, naming⟩
    rw [shown]
    change
      (Token.claimsOf signer now (Token.bytesOf text) >>= fun claims =>
        (claimant claims).mapError Failure.refused) = _
    rw [read]
    change (claimant claims).mapError Failure.refused = _
    rw [naming]
    rfl

/-- Whoever passes the gate and is somebody has shown such a token. -/
theorem Service.authenticates_of_pass
    {service : Service} {request : Request} {claimant : Claimant}
    {tenant : Tenant}
    (passed :
      Gate.pass service.configuration.signer service.session.now request =
        .ok claimant)
    (known : claimant.principal.isTruthy = true)
    (unitKnown : claimant.unit.isTruthy = true)
    (valid : Tenant.ofValue claimant.unit = .ok tenant) :
    ∃ principal unit,
      claimant = ⟨.text principal, .text unit⟩ ∧
        service.Authenticates request principal unit := by
  cases isOpen : Gate.isOpen request with
  | true =>
      unfold Gate.pass at passed
      rw [isOpen, if_pos rfl] at passed
      cases passed
      cases known
  | false =>
      obtain ⟨text, claims, tokenRead, claimsRead, naming⟩ :=
        (Gate.pass_eq_ok_iff isOpen).mp passed
      obtain ⟨subject, owner⟩ := Gate.fields_of_claimant naming
      have subjectHeld := get?_of_truthy subject known
      have ownerHeld := get?_of_truthy owner unitKnown
      obtain ⟨principal, isPrincipal⟩ :=
        Token.subject_of_check (Token.check_of_claimsOf claimsRead) subjectHeld
      obtain ⟨unit, isUnit⟩ : ∃ unit, claimant.unit = .text unit := by
        cases held : claimant.unit with
        | text unit =>
            exact ⟨unit, rfl⟩
        | _ =>
            rw [held] at valid
            cases valid
      rw [isPrincipal] at known subjectHeld
      rw [isUnit] at unitKnown ownerHeld
      refine ⟨principal, unit, ?_, text, claims, tokenRead, claimsRead,
        subjectHeld, ne_empty_of_truthy known, ownerHeld,
        ne_empty_of_truthy unitKnown⟩
      rw [← isPrincipal, ← isUnit]

/-- Such a token gets a request through the gate under the names that it bears. -/
theorem Service.pass_of_authenticates
    {service : Service} {request : Request} {principal unit : String}
    (closed : Gate.isOpen request = false)
    (authenticates : service.Authenticates request principal unit) :
    Gate.pass service.configuration.signer service.session.now request =
      .ok ⟨.text principal, .text unit⟩ := by
  obtain ⟨text, claims, shown, read, subject, named, owner, unitNamed⟩ :=
    authenticates
  have truthy {text : String} (filled : text ≠ "") :
      (Value.text text).isTruthy = true :=
    bne_iff_ne.mpr filled
  have naming :
      Gate.claimant claims = .ok ⟨.text principal, .text unit⟩ := by
    unfold Gate.claimant
    simp only [subject, owner, Option.getD_some, truthy named,
      truthy unitNamed]
    rfl
  exact
    (Gate.pass_eq_ok_iff closed).mpr ⟨text, claims, shown, read, naming⟩

/-! ## The layers of the service -/

namespace Service

/-- The request is no preflight, and its method and path lead to an endpoint for
policies. -/
def Reaches (service : Service) (request : Request) (endpoint : Endpoint) :
    Prop :=
  Origin.preflight? request = none ∧
    Route.find service.routes request.method request.path =
      .endpoint endpoint ∧
    endpoint ≠ .health

/-- A layer changes documents, or it answers a success to a request that reaches an
endpoint for policies. -/
def TakesEffect (service : Service) (request : Request) (layer : Layer) :
    Prop :=
  ¬ layer.2.2.session.store.Same service.session.store ∨
    (∃ endpoint, service.Reaches request endpoint) ∧
      ∃ response, layer.1 = .ok response ∧ response.Succeeds

variable {service : Service} {request : Request} {claimant : Claimant}
  {ping : Connection.Ping}

/-- Nothing happens around the request. -/
def quiet (ping : Connection.Ping) : Occasion := ⟨ping, Program.undisturbed⟩

theorem not_succeeds_of_answered_error
    {failure : Failure} {response : Response}
    (given : answered (.error failure) = .ok response) :
    ¬ response.Succeeds := by
  cases failure with
  | refused refusal =>
      cases given
      exact Response.not_succeeds_ofRefusal refusal
  | _ =>
      cases given

theorem succeeds_of_answered
    {result : Except Failure Response} {response : Response}
    (given : answered result = .ok response)
    (succeeds : response.Succeeds) :
    result = .ok response := by
  cases result with
  | ok inner =>
      exact given
  | error failure =>
      exact absurd succeeds (not_succeeds_of_answered_error given)

/-- A layer that leaves the service alone and gives no success has no effect. -/
theorem not_takesEffect
    {result : Except Failure Response} {records : List LogRecord}
    {left : Service}
    (same : left.session = service.session)
    (fails : ∀ response, result = .ok response → ¬ response.Succeeds) :
    ¬ service.TakesEffect request (result, records, left) := by
  rintro (changed | ⟨-, response, answered, succeeds⟩)
  · rw [same] at changed
    exact changed (.refl _)
  · exact fails response answered succeeds

/-- The endpoint's program takes effect when the innermost layer does. -/
theorem takesEffect_of_serve
    {endpoint : Endpoint} {body : Body}
    (effect :
      service.TakesEffect request
        (service.serve (quiet ping) claimant endpoint body)) :
    (endpoint.serve claimant service.session.stamp body).TakesEffect
      service.session.store := by
  unfold serve at effect
  cases obtained :
      service.connection.obtain service.databaseName (quiet ping).ping with
  | mk handle rest =>
      obtain ⟨connecting, connection⟩ := rest
      rw [obtained] at effect
      cases handle with
      | error failure =>
          refine absurd effect (not_takesEffect rfl ?_)
          intro response given
          cases given
      | ok handle =>
          rcases effect with changed | ⟨-, response, given, succeeds⟩
          · exact Or.inl changed
          · exact Or.inr
              ⟨response, succeeds_of_answered given succeeds, succeeds⟩

/-- Nothing happens for the service's own state, or for a body that cannot be
read. -/
theorem takesEffect_of_reach
    {endpoint : Endpoint}
    (reached :
      Route.find service.routes request.method request.path =
        .endpoint endpoint)
    (effect :
      service.TakesEffect request
        (service.reach (quiet ping) claimant endpoint request)) :
    endpoint ≠ .health ∧
      service.TakesEffect request
        (service.serve (quiet ping) claimant endpoint
          (if endpoint.takesBody then
            Body.ofRequest service.configuration.depth request
            else .absent)) := by
  unfold reach at effect
  split at effect
  · rcases effect with changed | ⟨⟨other, -, otherReached, notHealth⟩, -⟩
    · exact absurd (Store.Same.refl _) changed
    · rw [reached] at otherReached
      cases otherReached
      exact absurd rfl notHealth
  · rename_i notHealth
    refine ⟨notHealth, ?_⟩
    simp only at effect
    split at effect
    · refine absurd effect (not_takesEffect rfl ?_)
      intro response given
      exact Response.not_succeeds_of_ofIssues given
    · refine absurd effect (not_takesEffect rfl ?_)
      intro response given
      cases given
      exact Response.not_succeeds_ofRefusal _
    · exact effect

theorem takesEffect_of_route
    (effect :
      service.TakesEffect request
        (service.route (quiet ping) claimant request)) :
    ∃ endpoint,
      Route.find service.routes request.method request.path =
          .endpoint endpoint ∧
        service.TakesEffect request
          (service.reach (quiet ping) claimant endpoint request) := by
  have unreached
      {destination : Route.Destination}
      (found :
        Route.find service.routes request.method request.path =
          destination)
      (elsewhere : ∀ endpoint, destination ≠ .endpoint endpoint)
      {result : Except Failure Response} {records : List LogRecord} :
      ¬ service.TakesEffect request (result, records, service) := by
    rintro (changed | ⟨⟨endpoint, -, reached, -⟩, -⟩)
    · exact changed (.refl _)
    · exact elsewhere endpoint (found.symm.trans reached)
  unfold route at effect
  cases found : Route.find service.routes request.method request.path with
  | endpoint endpoint =>
      rw [found] at effect
      exact ⟨endpoint, rfl, effect⟩
  | notAllowed allowed =>
      rw [found] at effect
      exact absurd effect (unreached found (by simp))
  | elsewhere path =>
      rw [found] at effect
      exact absurd effect (unreached found (by simp))
  | nowhere =>
      rw [found] at effect
      exact absurd effect (unreached found (by simp))

theorem takesEffect_of_withOrigin
    (effect :
      service.TakesEffect request
        (service.withOrigin (quiet ping) claimant request)) :
    Origin.preflight? request = none ∧
      service.TakesEffect request
        (service.route (quiet ping) claimant request) := by
  unfold withOrigin at effect
  cases preflight : Origin.preflight? request with
  | some asked =>
      rw [preflight] at effect
      rcases effect with changed | ⟨⟨endpoint, noPreflight, -⟩, -⟩
      · exact absurd (Store.Same.refl _) changed
      · rw [preflight] at noPreflight
        cases noPreflight
  | none =>
      rw [preflight] at effect
      refine ⟨rfl, ?_⟩
      rcases effect with changed | ⟨reached, response, given, succeeds⟩
      · exact Or.inl changed
      · refine Or.inr ⟨reached, ?_⟩
        simp only at given
        cases result : (service.route (quiet ping) claimant request).1 with
        | error failure =>
            rw [result] at given
            cases given
        | ok inner =>
            rw [result] at given
            cases given
            exact ⟨inner, rfl, succeeds⟩

theorem takesEffect_of_withGate
    (effect :
      service.TakesEffect request
        (service.withGate (quiet ping) request)) :
    ∃ claimant,
      Gate.pass service.configuration.signer service.session.now request =
          .ok claimant ∧
        service.TakesEffect request
          (service.withOrigin (quiet ping) claimant request) := by
  unfold withGate at effect
  cases passed :
      Gate.pass service.configuration.signer service.session.now request with
  | error failure =>
      rw [passed] at effect
      exact absurd effect
        (not_takesEffect rfl fun _ => not_succeeds_of_answered_error)
  | ok claimant =>
      rw [passed] at effect
      exact ⟨claimant, rfl, effect⟩

theorem not_succeeds_ended (service : Service) (failure : Failure) :
    ¬ (service.ended failure).1.Succeeds := by
  rintro ⟨-, below⟩
  have status : (service.ended failure).1.status = 500 := by
    unfold ended
    cases service.session.now <;> rfl
  omega

theorem takesEffect_of_answer
    (effect :
      ¬ (service.answer (quiet ping) request).2.session.store.Same
          service.session.store ∨
        (∃ endpoint, service.Reaches request endpoint) ∧
          (service.answer (quiet ping) request).1.response.Succeeds) :
    service.TakesEffect request
      (service.withGate (quiet ping) request) := by
  unfold answer at effect
  cases gated : service.withGate (quiet ping) request with
  | mk result rest =>
      obtain ⟨records, left⟩ := rest
      rw [gated] at effect
      cases result with
      | ok response =>
          rcases effect with changed | ⟨reached, succeeds⟩
          · exact Or.inl changed
          · exact Or.inr ⟨reached, response, rfl, succeeds⟩
      | error failure =>
          rcases effect with changed | ⟨reached, succeeds⟩
          · exact Or.inl changed
          · exact absurd succeeds (left.not_succeeds_ended failure)

/-- A request that changes the documents, or that an endpoint for policies answers
with a success, carries a token that names a principal and a unit, and the
policies that the unit's collections had for that principal before the request
allow what the endpoint asks. -/
theorem allowed_of_effect
    (service : Service) (ping : Connection.Ping) (request : Request)
    (effect :
      ¬ (service.answer (quiet ping) request).2.session.store.Same
          service.session.store ∨
        (∃ endpoint, service.Reaches request endpoint) ∧
          (service.answer (quiet ping) request).1.response.Succeeds) :
    ∃ endpoint principal unit tenant,
      service.Reaches request endpoint ∧
        service.Authenticates request principal unit ∧
        Tenant.ofUnit unit = .ok tenant ∧
        endpoint.Allowed tenant (.text principal) service.session.store
          (Body.ofRequest service.configuration.depth request) := by
  obtain ⟨claimant, passed, effect⟩ :=
    takesEffect_of_withGate (takesEffect_of_answer effect)
  obtain ⟨noPreflight, effect⟩ := takesEffect_of_withOrigin effect
  obtain ⟨endpoint, reached, effect⟩ := takesEffect_of_route effect
  obtain ⟨notHealth, effect⟩ := takesEffect_of_reach reached effect
  obtain ⟨tenant, known, unitKnown, valid, allowed⟩ :=
    Endpoint.allowed_of_takesEffect (takesEffect_of_serve effect)
  obtain ⟨principal, unit, rfl, authenticated⟩ :=
    authenticates_of_pass passed known unitKnown valid
  exact
    ⟨endpoint, principal, unit, tenant, ⟨noPreflight, reached, notHealth⟩,
      authenticated, valid, allowed⟩

/-- Behind the gate an answer is what the next layer gives. -/
theorem response_of_pass
    {occasion : Occasion} {response : Response}
    (passed :
      Gate.pass service.configuration.signer service.session.now request =
        .ok claimant)
    (given :
      (service.withOrigin occasion claimant request).1 = .ok response) :
    (service.answer occasion request).1.response = response := by
  unfold answer withGate
  rw [passed]
  simp only [withRecords, given]

end Service

/-- A policy that may be removed by those who have it, and nothing else. -/
def keeperPolicy : Policy :=
  ⟨"keeper", .allow, ["Policy:RemovePolicy"], ["000000000000000000000001"],
    none⟩

def keeperSigner : Signer :=
  ⟨.text "secret", .text "HS256", .integer 60, Json.deepest⟩

def keeper : Claimant :=
  ⟨.text "000000000000000000000002", .text "office"⟩

def keeperService : Service where
  configuration :=
    { appName := .text "office"
      appVersion := .text "1"
      debug := .boolean false
      apiVersion := .text "v1"
      databaseName := .text "office"
      signer := keeperSigner
      origins := []
      credentials := .boolean false
      methods := []
      headers := []
      depth := Json.deepest }
  routes := (Route.all "v1").toOption.getD []
  session :=
    { store :=
        ⟨[("office_policies",
            [("_id", .id (.numbered 1)) :: keeperPolicy.dump]),
          ("office_users",
            [[("_id", .id (.numbered 2)),
              ("policies", .list [.id (.numbered 1)])]])]⟩
      clock := .integer 1704067200
      issued := 0 }
  connection := Connection.fresh
  elapsed := ⟨0⟩

/-- A header with a token of the keeper, without an expiry. -/
def keeperHeader : String :=
  "Bearer eyJhbGciOiJIUzI1NiJ9." ++
    "eyJzdWIiOiIwMDAwMDAwMDAwMDAwMDAwMDAwMDAwMDIiLCJ1bml0Ijoib2ZmaWNlIn0" ++
    ".n_PETG60ulMx4FczbnLM4j-fFQ3Bh25GMpnIGIvuNtA"

def keeperRequest : Request :=
  ⟨"DELETE", "/api/v1/iam/policies/000000000000000000000001",
    [("Authorization", keeperHeader)], none, ""⟩

theorem keeper_passes
    {request : Request} (closed : Gate.isOpen request = false)
    (shown : request.header? "authorization" = some keeperHeader) :
    Gate.pass keeperSigner (Clock.date (.integer 1704067200)) request =
      .ok keeper := by
  unfold Gate.pass
  rw [closed, shown, if_neg Bool.false_ne_true, Option.getD_some]
  generalize named : (do
    let text ← (Gate.token keeperHeader).mapError Failure.refused
    let claims ←
      Token.claimsOf keeperSigner (Clock.date (.integer 1704067200))
        (Token.bytesOf text)
    (Gate.claimant claims).mapError Failure.refused) = passed
  have same :
      passed.toOption.any
          (fun claimant =>
            claimant.principal.same keeper.principal &&
              claimant.unit.same keeper.unit) =
        true := by
    rw [← named]
    decide +kernel
  cases passed with
  | error failure =>
      cases same
  | ok claimant =>
      obtain ⟨principal, unit⟩ := claimant
      obtain ⟨samePrincipal, sameUnit⟩ := Bool.and_eq_true_iff.mp same
      simp only [keeper, Value.same_text_iff] at samePrincipal sameUnit
      rw [samePrincipal, sameUnit]
      rfl

theorem keeperRequest_allowed :
    ((∃ endpoint, keeperService.Reaches keeperRequest endpoint) ∧
      (keeperService.answer (Service.quiet none)
        keeperRequest).1.response.Succeeds) ∧
      ∃ endpoint principal unit tenant,
        keeperService.Reaches keeperRequest endpoint ∧
          keeperService.Authenticates keeperRequest principal unit ∧
          Tenant.ofUnit unit = .ok tenant ∧
          endpoint.Allowed tenant (.text principal)
            keeperService.session.store
            (Body.ofRequest keeperService.configuration.depth
              keeperRequest) := by
  have reaches :
      keeperService.Reaches keeperRequest
        (.deletePolicy "000000000000000000000001") :=
    ⟨rfl, by decide +kernel, by decide⟩
  have succeeds :
      (keeperService.answer (Service.quiet none)
        keeperRequest).1.response.Succeeds := by
    have status :
        (keeperService.withOrigin (Service.quiet none) keeper
          keeperRequest).1.toOption.any
            (fun response => decide response.Succeeds) =
          true := by
      decide +kernel
    cases given :
        (keeperService.withOrigin (Service.quiet none) keeper
          keeperRequest).1 with
    | error failure =>
        rw [given] at status
        cases status
    | ok response =>
        rw [given] at status
        have passed :
            Gate.pass keeperService.configuration.signer
                keeperService.session.now keeperRequest =
              .ok keeper :=
          keeper_passes (by decide +kernel) (by decide +kernel)
        rw [Service.response_of_pass passed given]
        exact of_decide_eq_true status
  exact
    ⟨⟨⟨_, reaches⟩, succeeds⟩,
      keeperService.allowed_of_effect none keeperRequest
        (.inr ⟨⟨_, reaches⟩, succeeds⟩)⟩

end Http

end AccessControl
