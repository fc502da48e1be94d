import AccessControl.Proofs.Authorization

/-!
# Requests by nobody

A request whose token does not name a principal and a unit reaches many
endpoints all the same: preflights and the paths that end like a public one are
open.  But nothing of the store is seen on its way, and nothing is changed: over
other documents each layer gives the same and leaves those documents, from the
inside to the outside, and so does the whole service
(`answer_of_unauthenticated`).
-/

namespace AccessControl

namespace Claimant

/-- The caller names a principal, and a unit that is a tenant's. -/
def Belongs (claimant : Claimant) : Prop :=
  claimant.principal.isTruthy = true ∧
    claimant.unit.isTruthy = true ∧
    ∃ tenant, Tenant.ofValue claimant.unit = .ok tenant

theorem exists_tenant_eq_fail
    {claimant : Claimant}
    (tenantless :
      ¬ (claimant.unit.isTruthy = true ∧
        ∃ tenant, Tenant.ofValue claimant.unit = .ok tenant)) :
    ∃ failure, claimant.tenant = Program.fail failure := by
  unfold Claimant.tenant
  cases truthy : claimant.unit.isTruthy with
  | false =>
      exact ⟨_, rfl⟩
  | true =>
      cases found : Tenant.ofValue claimant.unit with
      | error failure =>
          exact ⟨failure, rfl⟩
      | ok tenant =>
          exact absurd ⟨truthy, tenant, found⟩ tenantless

/-- Without a principal or a tenant there is no ability, and no document is read to
find this out. -/
theorem exists_ability_eq_fail
    {claimant : Claimant} (outside : ¬ claimant.Belongs) :
    ∃ failure, claimant.ability = Program.fail failure := by
  unfold Claimant.ability
  cases truthy : claimant.principal.isTruthy with
  | false =>
      exact ⟨_, rfl⟩
  | true =>
      have tenantless :
          ¬ (claimant.unit.isTruthy = true ∧
            ∃ tenant, Tenant.ofValue claimant.unit = .ok tenant) :=
        fun known => outside ⟨truthy, known⟩
      obtain ⟨failure, failed⟩ := exists_tenant_eq_fail tenantless
      rw [failed]
      exact ⟨failure, rfl⟩

end Claimant

namespace Http

theorem Endpoint.exists_serve_eq_fail
    {claimant : Claimant} (outside : ¬ claimant.Belongs)
    (endpoint : Endpoint) :
    ∃ failure, ∀ stamp body,
      endpoint.serve claimant stamp body = Program.fail failure := by
  obtain ⟨failure, failed⟩ := Claimant.exists_ability_eq_fail outside
  refine ⟨failure, fun stamp body => ?_⟩
  unfold Endpoint.serve
  rw [failed]
  rfl

/-! ## Layers over other documents -/

/-- The same service over other documents. -/
def Service.withStore (service : Service) (store : Store) : Service :=
  { service with session := { service.session with store := store } }

/-- What the layer gives, and the service that it leaves over other documents. -/
def Layer.withStore (layer : Layer) (store : Store) : Layer :=
  (layer.1, layer.2.1, layer.2.2.withStore store)

namespace Service

variable {claimant : Claimant}

theorem serve_withStore
    (outside : ¬ claimant.Belongs) (service : Service) (store : Store)
    (occasion : Occasion) (endpoint : Endpoint) (body : Body) :
    (service.withStore store).serve occasion claimant endpoint body =
      (service.serve occasion claimant endpoint body).withStore store := by
  obtain ⟨failure, failed⟩ :=
    Endpoint.exists_serve_eq_fail outside endpoint
  have connecting :
      (service.withStore store).connection.obtain
          (service.withStore store).databaseName occasion.ping =
        service.connection.obtain service.databaseName occasion.ping := rfl
  unfold serve
  rw [connecting]
  cases service.connection.obtain service.databaseName occasion.ping with
  | mk handle rest =>
      cases handle with
      | error fault =>
          rfl
      | ok handle =>
          simp only [failed]
          rfl

theorem reach_withStore
    (outside : ¬ claimant.Belongs) (service : Service) (store : Store)
    (occasion : Occasion) (endpoint : Endpoint) (request : Request) :
    (service.withStore store).reach occasion claimant endpoint request =
      (service.reach occasion claimant endpoint request).withStore store := by
  have configured :
      (service.withStore store).configuration = service.configuration := rfl
  unfold reach
  rw [configured]
  split
  · rfl
  · simp only
    split
    · rfl
    · rfl
    · exact serve_withStore outside service store occasion endpoint _

theorem route_withStore
    (outside : ¬ claimant.Belongs) (service : Service) (store : Store)
    (occasion : Occasion) (request : Request) :
    (service.withStore store).route occasion claimant request =
      (service.route occasion claimant request).withStore store := by
  have sent : (service.withStore store).routes = service.routes := rfl
  unfold route
  rw [sent]
  cases Route.find service.routes request.method request.path with
  | endpoint endpoint =>
      exact reach_withStore outside service store occasion endpoint request
  | notAllowed allowed =>
      rfl
  | elsewhere path =>
      rfl
  | nowhere =>
      rfl

theorem withOrigin_withStore
    (outside : ¬ claimant.Belongs) (service : Service) (store : Store)
    (occasion : Occasion) (request : Request) :
    (service.withStore store).withOrigin occasion claimant request =
      (service.withOrigin occasion claimant request).withStore store := by
  unfold withOrigin
  cases Origin.preflight? request with
  | some preflight =>
      rfl
  | none =>
      rw [route_withStore outside]
      rfl

theorem withRecords_withStore
    (outside : ¬ claimant.Belongs) (service : Service) (store : Store)
    (occasion : Occasion) (request : Request) :
    (service.withStore store).withRecords occasion claimant request =
      (service.withRecords occasion claimant request).withStore store := by
  unfold withRecords
  rw [withOrigin_withStore outside]
  rfl

variable {service : Service} {request : Request}

/-- Whoever belongs to a tenant has shown a token that says so. -/
theorem not_belongs_of_pass
    (unauthenticated :
      ∀ principal unit, ¬ service.Authenticates request principal unit)
    (passed :
      Gate.pass service.configuration.signer service.session.now request =
        .ok claimant) :
    ¬ claimant.Belongs := by
  rintro ⟨known, unitKnown, tenant, valid⟩
  obtain ⟨principal, unit, -, authenticated⟩ :=
    authenticates_of_pass passed known unitKnown valid
  exact unauthenticated principal unit authenticated

theorem withGate_withStore
    (unauthenticated :
      ∀ principal unit, ¬ service.Authenticates request principal unit)
    (store : Store) (occasion : Occasion) :
    (service.withStore store).withGate occasion request =
      (service.withGate occasion request).withStore store := by
  have passing :
      Gate.pass (service.withStore store).configuration.signer
          (service.withStore store).session.now request =
        Gate.pass service.configuration.signer service.session.now request :=
    rfl
  unfold withGate
  rw [passing]
  cases passed :
      Gate.pass service.configuration.signer service.session.now request with
  | error failure =>
      rfl
  | ok claimant =>
      have outside := not_belongs_of_pass unauthenticated passed
      exact withRecords_withStore outside service store occasion request

/-- What is answered at the end, and with which documents the service is left. -/
theorem answer_withStore
    (unauthenticated :
      ∀ principal unit, ¬ service.Authenticates request principal unit)
    (store : Store) (occasion : Occasion) :
    (service.withStore store).answer occasion request =
      ((service.answer occasion request).1,
        (service.answer occasion request).2.withStore store) := by
  unfold answer
  rw [withGate_withStore unauthenticated]
  cases service.withGate occasion request with
  | mk result rest =>
      cases result <;> rfl

/-- A request without a token that names a principal and a unit changes no document,
and over all other documents it is answered in the same way. -/
theorem answer_of_unauthenticated
    (service : Service) (occasion : Occasion) (request : Request)
    (unauthenticated :
      ∀ principal unit, ¬ service.Authenticates request principal unit) :
    (service.answer occasion request).2.session.store =
        service.session.store ∧
      ∀ store,
        ((service.withStore store).answer occasion request).1 =
          (service.answer occasion request).1 := by
  have moved := fun store => answer_withStore unauthenticated store occasion
  constructor
  · have own := moved service.session.store
    exact congrArg (fun answered => answered.2.session.store) own
  · intro store
    rw [moved store]

end Service

/-- A path that ends like a public one, and leads to an endpoint for policies. -/
def openRequest : Request :=
  ⟨"GET", "/api/v1/iam/policies/health", [], none, ""⟩

theorem openRequest_unseen :
    Gate.isOpen openRequest = true ∧
      keeperService.Reaches openRequest (.getPolicy "health") ∧
      (∀ principal unit,
        ¬ keeperService.Authenticates openRequest principal unit) ∧
      (keeperService.answer (Service.quiet none)
          openRequest).2.session.store =
        keeperService.session.store ∧
      ((keeperService.withStore Store.empty).answer (Service.quiet none)
          openRequest).1 =
        (keeperService.answer (Service.quiet none) openRequest).1 := by
  have unauthenticated (principal unit : String) :
      ¬ keeperService.Authenticates openRequest principal unit := by
    rintro ⟨text, claims, read, -⟩
    cases read
  obtain ⟨kept, same⟩ :=
    keeperService.answer_of_unauthenticated (Service.quiet none) openRequest
      unauthenticated
  exact
    ⟨by decide +kernel, ⟨rfl, by decide +kernel, by decide⟩, unauthenticated,
      kept, same Store.empty⟩

end Http

end AccessControl
