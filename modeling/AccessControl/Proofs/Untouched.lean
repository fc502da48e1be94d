import AccessControl.Proofs.Authorization
import AccessControl.Proofs.Consistency

/-!
# Failures leave the documents alone

A call that fails has not written anything yet, or what it wrote changed nothing;
so it leaves every collection as it was.  A request that is answered with a
rejection does so, too: an endpoint only reads before the call that it makes, and
behind that call it only succeeds or ends with an answer that cannot be written,
which is no rejection (`FailsClean.spares_bind_succeed`).  The law is then carried
through the layers of the service: `documents_same_of_failure`.
-/

namespace AccessControl

theorem Operation.same_of_run_eq_error
    {tenant : Tenant} {operation : Operation} {store : Store}
    {failure : Failure}
    (failed : (operation.run tenant store).1 = .error failure) :
    (operation.run tenant store).2.Same store := by
  have ends := ends_run tenant store operation
  rw [failed] at ends
  cases ends with
  | failed same =>
      exact same

namespace Program

variable {α β : Type}

def FailsClean (program : Program α) : Prop :=
  ∀ store failure,
    (finish undisturbed program store).1 = .error failure →
      (finish undisturbed program store).2.Same store

theorem failsClean_of_program_eq
    {called : Program α} {answer : α → Operation.Answer} (tenant : Tenant)
    (operation : Operation)
    (program_eq : operation.program tenant = answer <$> called) :
    called.FailsClean := by
  intro store failure failed
  have run_eq := Operation.run_eq_map tenant store program_eq
  have failedToo : (operation.run tenant store).1 = .error failure := by
    rw [run_eq, failed]
    rfl
  have same := Operation.same_of_run_eq_error failedToo
  rw [run_eq] at same
  exact same

end Program

namespace Http

/-- The status of the answer is one of the client's faults. -/
def Response.Rejects (response : Response) : Prop :=
  400 ≤ response.status ∧ response.status < 500

instance (response : Response) : Decidable response.Rejects :=
  inferInstanceAs (Decidable (_ ∧ _))

end Http

namespace Program

variable {α : Type}

/-- Where the program ends with a rejection, it has left every collection as it
was. -/
def Spares (program : Program Http.Response) (store : Store) : Prop :=
  ∀ response,
    Http.Service.answered (finish undisturbed program store).1 =
        .ok response →
      response.Rejects → (finish undisturbed program store).2.Same store

theorem ReadOnly.spares
    {program : Program Http.Response} (readOnly : ReadOnly program)
    (store : Store) :
    program.Spares store :=
  fun _ _ _ => readOnly.same store

theorem spares_bind_of_readOnly
    {first : Program α} {rest : α → Program Http.Response}
    (readOnly : first.ReadOnly)
    (next : ∀ value left, (rest value).Spares left) (store : Store) :
    (first >>= rest).Spares store := by
  intro response answered rejects
  have same := readOnly.same store
  rw [finish_bind] at answered ⊢
  cases ended : finish undisturbed first store with
  | mk result left =>
      rw [ended] at same answered
      cases result with
      | error failure =>
          exact same
      | ok value =>
          have sparing := next value left response answered rejects
          exact sparing.trans same

/-- Behind its last write a program only succeeds or fails with an answer that
cannot be written. -/
theorem FailsClean.spares_bind_succeed
    {first : Program Value} (clean : first.FailsClean)
    (message : Value) {status : Nat} (success : status < 400)
    (store : Store) :
    (do
      let value ← first
      Http.Call.succeed value message status).Spares store := by
  intro response answered rejects
  have failing := clean store
  rw [finish_bind] at answered ⊢
  cases ended : finish undisturbed first store with
  | mk result left =>
      rw [ended] at answered failing
      cases result with
      | error failure =>
          exact failing failure rfl
      | ok value =>
          exfalso
          rcases Http.Call.succeed_cases value message status with
            ⟨written, succeeded, statusEq⟩ | ⟨failure, unwritten, ofWriting⟩
          · simp only [succeeded, finish_ofExcept] at answered
            cases answered
            have high : 400 ≤ response.status := rejects.1
            omega
          · simp only [unwritten, finish_ofExcept] at answered
            cases failure with
            | unwritable value => cases answered
            | outOfRange => cases answered
            | _ => exact ofWriting

end Program

/-! ## Rejecting endpoints -/

namespace Http

namespace Endpoint

theorem spares_withBody
    {α : Type} {call : Call} {ofFields : Fields → Verdict α}
    {rest : α → Program Response} {store : Store}
    (next : ∀ read, (rest read).Spares store) :
    (call.withBody ofFields rest).Spares store := by
  unfold Call.withBody
  cases call.body.check ofFields with
  | ok read =>
      exact next read
  | error issues =>
      exact Program.ReadOnly.spares (.ofExcept _) store

/-- What is done after the checkpoint fails clean, and then only succeeds. -/
theorem spares_demand
    {call : Call} {verb subjectType : String} {resource message : Value}
    {called : Program Value} {status : Nat} (clean : called.FailsClean)
    (success : status < 400) (store : Store) :
    (do
      call.demand verb subjectType resource
      let value ← called
      Call.succeed value message status).Spares store := by
  apply Program.spares_bind_of_readOnly (call.ability.readOnly_demand _)
  intro _ left
  exact clean.spares_bind_succeed message success left

/-- Whatever an endpoint does, with a rejection it leaves every collection as it
was. -/
theorem spares_act (endpoint : Endpoint) (call : Call) (store : Store) :
    (endpoint.act call).Spares store := by
  cases endpoint with
  | createPolicy =>
      apply spares_withBody
      intro policy
      have clean :
          (Registry.create call.tenant call.stamp (.record policy.dump)
            call.caller).FailsClean :=
        Program.failsClean_of_program_eq call.tenant
          (.create call.stamp _ call.caller) rfl
      exact spares_demand clean (by decide) store
  | listPolicies =>
      have listing : (Registry.list call.tenant).ReadOnly :=
        (Registry.reads_list call.tenant).mono fun _ reads => reads.1
      have readOnly : call.listPolicies.ReadOnly :=
        (call.ability.readOnly_demand _).bind fun _ =>
          listing.bind fun _ =>
            (Program.Uses.ofExcept _).bind fun _ => .ofExcept _
      exact readOnly.spares store
  | getPolicy policy =>
      have readOnly : (call.getPolicy policy).ReadOnly :=
        (Registry.readOnly_get call.tenant _).bind fun _ =>
          (call.ability.readOnly_demand _).bind fun _ => .ofExcept _
      exact readOnly.spares store
  | updatePolicy policy =>
      apply spares_withBody
      intro patch
      apply Program.spares_bind_of_readOnly
        (Registry.readOnly_get call.tenant _)
      intro found left
      have clean :
          (Registry.update call.tenant call.stamp.now (.text policy)
            (.record patch.dump)).FailsClean :=
        Program.failsClean_of_program_eq call.tenant
          (.update call.stamp.now _ _) rfl
      exact spares_demand clean (by decide) left
  | deletePolicy policy =>
      apply Program.spares_bind_of_readOnly
        (Registry.readOnly_get call.tenant _)
      intro found left
      have clean :
          (Registry.delete call.tenant (.text policy)).FailsClean :=
        Program.failsClean_of_program_eq call.tenant (.delete _) rfl
      exact spares_demand clean (by decide) left
  | attachPolicy principal policy =>
      have clean :
          (Registry.attach call.tenant (.text principal)
            (.text policy)).FailsClean :=
        Program.failsClean_of_program_eq call.tenant (.attach _ _) rfl
      exact spares_demand clean (by decide) store
  | detachPolicy principal policy =>
      have clean :
          (Registry.detach call.tenant (.text principal)
            (.text policy)).FailsClean :=
        Program.failsClean_of_program_eq call.tenant (.detach _ _) rfl
      exact spares_demand clean (by decide) store
  | health =>
      exact Program.ReadOnly.spares (.refuse _) store

theorem spares_serve
    (endpoint : Endpoint) (claimant : Claimant) (stamp : Stamp)
    (body : Body) (store : Store) :
    (endpoint.serve claimant stamp body).Spares store := by
  apply Program.spares_bind_of_readOnly claimant.readOnly_ability
  intro ability first
  apply Program.spares_bind_of_readOnly claimant.readOnly_tenant
  intro tenant second
  exact endpoint.spares_act _ second

end Endpoint

namespace Service

/-- A layer that answers with a rejection leaves every collection as it was. -/
def Spares (service : Service) (layer : Layer) : Prop :=
  ∀ response, layer.1 = .ok response → response.Rejects →
    layer.2.2.session.store.Same service.session.store

variable {service : Service} {request : Request} {claimant : Claimant}
  {ping : Connection.Ping}

theorem spares_of_store_eq
    {layer : Layer}
    (kept : layer.2.2.session.store = service.session.store) :
    service.Spares layer := by
  intro response _ _
  rw [kept]
  exact .refl _

theorem spares_serve (endpoint : Endpoint) (body : Body) :
    service.Spares (service.serve (quiet ping) claimant endpoint body) := by
  unfold serve
  cases obtained :
      service.connection.obtain service.databaseName (quiet ping).ping with
  | mk handle rest =>
      cases handle with
      | error failure =>
          exact spares_of_store_eq rfl
      | ok handle =>
          exact endpoint.spares_serve claimant service.session.stamp body
            service.session.store

theorem spares_reach (endpoint : Endpoint) :
    service.Spares
      (service.reach (quiet ping) claimant endpoint request) := by
  unfold reach
  split
  · exact spares_of_store_eq rfl
  · simp only
    split
    · exact spares_of_store_eq rfl
    · exact spares_of_store_eq rfl
    · exact spares_serve endpoint _

theorem spares_route :
    service.Spares (service.route (quiet ping) claimant request) := by
  unfold route
  cases Route.find service.routes request.method request.path with
  | endpoint endpoint =>
      exact spares_reach endpoint
  | _ =>
      exact spares_of_store_eq rfl

theorem spares_withOrigin :
    service.Spares (service.withOrigin (quiet ping) claimant request) := by
  unfold withOrigin
  cases Origin.preflight? request with
  | some preflight =>
      exact spares_of_store_eq rfl
  | none =>
      have inner : service.Spares
          (service.route (quiet ping) claimant request) := spares_route
      intro response answered rejects
      cases routed : service.route (quiet ping) claimant request with
      | mk result rest =>
          rw [routed] at inner answered
          cases result with
          | error failure =>
              cases answered
          | ok given =>
              -- The headers that are added say nothing about the status.
              cases answered
              exact inner given rfl rejects

theorem spares_withGate :
    service.Spares (service.withGate (quiet ping) request) := by
  unfold withGate
  cases Gate.pass service.configuration.signer service.session.now request with
  | error failure =>
      exact spares_of_store_eq rfl
  | ok claimant =>
      exact spares_withOrigin

theorem not_rejects_ended (service : Service) (failure : Failure) :
    ¬ (service.ended failure).1.Rejects := by
  intro rejects
  have below : (service.ended failure).1.status < 500 := rejects.2
  have status : (service.ended failure).1.status = 500 := by
    unfold ended
    cases service.session.now <;> rfl
  omega

theorem same_of_rejects
    (rejects :
      (service.answer (quiet ping) request).1.response.Rejects) :
    (service.answer (quiet ping) request).2.session.store.Same
      service.session.store := by
  have inner : service.Spares (service.withGate (quiet ping) request) :=
    spares_withGate
  unfold answer at rejects ⊢
  cases gated : service.withGate (quiet ping) request with
  | mk result rest =>
      rw [gated] at rejects inner
      cases result with
      | ok response =>
          exact inner response rfl rejects
      | error failure =>
          exact absurd rejects (not_rejects_ended _ failure)

end Service
end Http

/-- Calls that fail, in whatever way, leave every collection as it was, and so do
requests that are answered with a rejection. -/
theorem documents_same_of_failure :
    (∀ (tenant : Tenant) (operation : Operation) (store : Store)
      (failure : Failure),
      (operation.run tenant store).1 = .error failure →
        (operation.run tenant store).2.Same store) ∧
      ∀ (service : Http.Service) (ping : Connection.Ping)
        (request : Http.Request),
        (service.answer (Http.Service.quiet ping) request).1.response.Rejects →
          (service.answer (Http.Service.quiet ping) request).2.session.store.Same
            service.session.store := by
  constructor
  · intro tenant operation store failure failed
    exact Operation.same_of_run_eq_error failed
  · intro service ping request rejects
    exact Http.Service.same_of_rejects rejects

def secondRead : Value :=
  .record (Policy.dump ⟨"read", .deny, ["*:Read"], ["*"], none⟩)

/-- The keeper asks for a policy to be removed that is not stored. -/
def absentRequest : Http.Request :=
  ⟨"DELETE", "/api/v1/iam/policies/0000000000000000000000ff",
    [("Authorization", Http.keeperHeader)], none, ""⟩

theorem secondRead_and_absentRequest_fail :
    (((Operation.create Http.keeperService.session.stamp secondRead
            .null).run office officeStore).1 =
        .error (.refused Registry.policyExists) ∧
      ((Operation.create Http.keeperService.session.stamp secondRead
            .null).run office officeStore).2.Same officeStore) ∧
      (Http.keeperService.answer (Http.Service.quiet none)
          absentRequest).1.response.status = 404 ∧
      (Http.keeperService.answer (Http.Service.quiet none)
          absentRequest).2.session.store.Same
        Http.keeperService.session.store := by
  obtain ⟨calls, requests⟩ := documents_same_of_failure
  have taken :
      ((Operation.create Http.keeperService.session.stamp secondRead
          .null).run office officeStore).1 =
        .error (.refused Registry.policyExists) := rfl
  have status :
      (Http.keeperService.answer (Http.Service.quiet none)
        absentRequest).1.response.status = 404 := by
    have answered :
        (Http.keeperService.withOrigin (Http.Service.quiet none) Http.keeper
          absentRequest).1.toOption.any
            (fun response => response.status == 404) =
          true := by
      decide +kernel
    cases given :
        (Http.keeperService.withOrigin (Http.Service.quiet none) Http.keeper
          absentRequest).1 with
    | error failure =>
        rw [given] at answered
        cases answered
    | ok response =>
        rw [given] at answered
        have passed :
            Http.Gate.pass Http.keeperService.configuration.signer
                Http.keeperService.session.now absentRequest =
              .ok Http.keeper :=
          Http.keeper_passes (by decide +kernel) (by decide +kernel)
        rw [Http.Service.response_of_pass passed given]
        exact beq_iff_eq.mp answered
  have rejects :
      (Http.keeperService.answer (Http.Service.quiet none)
        absentRequest).1.response.Rejects := by
    constructor <;> omega
  exact
    ⟨⟨taken, calls office _ officeStore _ taken⟩, status,
      requests Http.keeperService none absentRequest rejects⟩

end AccessControl
