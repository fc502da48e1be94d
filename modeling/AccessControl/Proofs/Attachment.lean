import AccessControl.Proofs.Deletion
import AccessControl.Proofs.Precedence

/-!
# Lists in the order of attachment

What is attached to a principal comes to the end of its list, what is detached or
deleted leaves it, and everything else on it keeps its order; nothing ever stands on it
twice.  So the list tells in which order the policies were attached, and a policy that
is detached and attached again overrides the other ones:
`Tenant.rosters_in_order_of_attachment`.
-/

namespace AccessControl

namespace Roster

/-- The items with the identifier behind them, unless it is one of them. -/
def adding (items : List Value) (id : ObjectId) : List Value :=
  if .id id ∈ items then items else items ++ [.id id]

/-- The items but for the identifier, in their order. -/
def removing (items : List Value) (id : ObjectId) : List Value :=
  items.filter (· ≠ .id id)

/-- No two of the items are equal. -/
def Distinct (items : List Value) : Prop :=
  items.Pairwise fun first second => first.same second = false

instance (items : List Value) : Decidable (Distinct items) :=
  inferInstanceAs
    (Decidable (items.Pairwise fun first second => first.same second = false))

variable {items : List Value} {id : ObjectId}

theorem notMem_removing : Value.id id ∉ removing items id := by
  simp [removing]

theorem removing_of_notMem (absent : Value.id id ∉ items) :
    removing items id = items := by
  refine List.filter_eq_self.mpr fun item member => ?_
  exact decide_eq_true fun same => absent (same ▸ member)

theorem adding_of_notMem (absent : Value.id id ∉ items) :
    adding items id = items ++ [.id id] :=
  if_neg absent

theorem removing_adding (absent : Value.id id ∉ items) :
    removing (adding items id) id = items := by
  have kept : items.filter (· ≠ .id id) = items := removing_of_notMem absent
  rw [adding_of_notMem absent, removing, List.filter_append, kept]
  simp

namespace Distinct

theorem adding (distinct : Distinct items) (id : ObjectId) :
    Distinct (Roster.adding items id) := by
  by_cases already : Value.id id ∈ items
  · rw [Roster.adding, if_pos already]
    exact distinct
  · rw [adding_of_notMem already]
    refine List.pairwise_append.mpr
      ⟨distinct, List.pairwise_singleton _ _, ?_⟩
    intro item member added isAdded
    rw [List.mem_singleton.mp isAdded, ← Bool.not_eq_true,
      Value.same_id_iff]
    intro same
    exact already (same ▸ member)

theorem removing (distinct : Distinct items) (id : ObjectId) :
    Distinct (Roster.removing items id) :=
  List.Pairwise.filter _ distinct

end Distinct

end Roster

namespace Fields

/-- What stands on the list of policies of a document, in order. -/
def roster (document : Fields) : List Value :=
  ArrayEdit.held document "policies"

/-- The document has no list of policies, or one on which nothing stands twice. -/
structure Rostered (document : Fields) : Prop where
  listed :
    document.get? "policies" = none ∨
      ∃ items, document.get? "policies" = some (.list items)
  distinct : Roster.Distinct document.roster

/-- The second document is the first one with its list of policies edited.  Where there
is nothing to edit, not even an empty list is written. -/
structure Relists (edit : List Value → List Value) (before after : Fields) :
    Prop where
  others : ∀ name, name ≠ "policies" → after.get? name = before.get? name
  spared : edit before.roster = before.roster → after = before
  written :
    edit before.roster ≠ before.roster →
      after.get? "policies" = some (.list (edit before.roster))

theorem roster_of_get?_list
    {document : Fields} {items : List Value}
    (held : document.get? "policies" = some (.list items)) :
    document.roster = items := by
  unfold roster ArrayEdit.held
  rw [held]

/-- Giving a field the value that it has changes nothing. -/
theorem set_eq_self
    {fields : Fields} {name : String} {value : Value}
    (held : fields.get? name = some value) :
    fields.set name value = fields := by
  induction fields with
  | nil =>
      cases held
  | cons field rest inductionHypothesis =>
      obtain ⟨key, old⟩ := field
      unfold set
      by_cases same : key = name
      · subst same
        rw [get?, List.lookup_cons_self] at held
        cases held
        rw [if_pos rfl]
      · have other : (name == key) = false := by
          simpa using fun equal : name = key => same equal.symm
        rw [get?, List.lookup_cons, other] at held
        rw [if_neg same, inductionHypothesis held]

namespace Relists

variable {edit : List Value → List Value} {before after : Fields}

theorem unedited (document : Fields) : Relists id document document where
  others _ _ := rfl
  spared _ := rfl
  written changed := absurd rfl changed

theorem congr
    (relists : Relists edit before after)
    {other : List Value → List Value}
    (same : other before.roster = edit before.roster) :
    Relists other before after where
  others := relists.others
  spared unchanged := relists.spared (same ▸ unchanged)
  written changed := same ▸ relists.written (same ▸ changed)

theorem roster_eq (relists : Relists edit before after) :
    after.roster = edit before.roster := by
  by_cases changed : edit before.roster = before.roster
  · rw [relists.spared changed, changed]
  · exact roster_of_get?_list (relists.written changed)

theorem rostered
    (relists : Relists edit before after) (rostered : before.Rostered)
    (distinct : Roster.Distinct (edit before.roster)) :
    after.Rostered := by
  refine ⟨?_, relists.roster_eq ▸ distinct⟩
  by_cases changed : edit before.roster = before.roster
  · rw [relists.spared changed]
    exact rostered.listed
  · exact .inr ⟨_, relists.written changed⟩

end Relists

theorem relists_addToSet (document : Fields) (id : ObjectId) :
    Relists (Roster.adding · id) document
      ((ArrayEdit.addToSet "policies" (.id id)).apply document) := by
  by_cases already : Value.id id ∈ document.roster
  · have kept : Roster.adding document.roster id = document.roster :=
      if_pos already
    have unchanged :
        (ArrayEdit.addToSet "policies" (.id id)).apply document =
          document :=
      if_pos (any_same_iff_mem.mpr already)
    rw [unchanged]
    exact (Relists.unedited document).congr kept
  · have added := Roster.adding_of_notMem already
    have applied :
        (ArrayEdit.addToSet "policies" (.id id)).apply document =
          document.set "policies" (.list (document.roster ++ [.id id])) :=
      if_neg (mt any_same_iff_mem.mp already)
    rw [applied]
    refine ⟨fun name different => get?_set_of_ne different, ?_, ?_⟩
    · intro kept
      rw [added] at kept
      simp at kept
    · intro _
      rw [get?_set_self, added]

theorem relists_pull (document : Fields) (id : ObjectId) :
    Relists (Roster.removing · id) document
      ((ArrayEdit.pull "policies" (.id id)).apply document) := by
  have unlisted
      (nothing : document.roster = [])
      (unchanged :
        (ArrayEdit.pull "policies" (.id id)).apply document = document) :
      Relists (Roster.removing · id) document
        ((ArrayEdit.pull "policies" (.id id)).apply document) := by
    rw [unchanged]
    refine (Relists.unedited document).congr ?_
    rw [nothing]
    rfl
  cases held : document.get? "policies" with
  | none =>
      refine unlisted ?_ ?_
      · rw [roster, ArrayEdit.held, held]
      · simp only [ArrayEdit.apply, held]
  | some value =>
      cases value with
      | list items =>
          have roster := roster_of_get?_list held
          have removed :
              items.filter (fun item => !(Value.id id).same item) =
                Roster.removing items id := by
            refine List.filter_congr fun item _ => ?_
            rw [Bool.eq_iff_iff, Bool.not_eq_true', ← Bool.not_eq_true,
              Value.id_same_iff, decide_eq_true_iff]
          have applied :
              (ArrayEdit.pull "policies" (.id id)).apply document =
                document.set "policies"
                  (.list (Roster.removing items id)) := by
            simp only [ArrayEdit.apply, held, removed]
          rw [applied]
          refine ⟨fun name different => get?_set_of_ne different, ?_, ?_⟩
          · intro kept
            rw [roster] at kept
            rw [kept, set_eq_self held]
          · intro _
            rw [get?_set_self, roster]
      | _ =>
          refine unlisted ?_ ?_
          · rw [roster, ArrayEdit.held, held]
          · simp only [ArrayEdit.apply, held]

theorem relists_releasing (document : Fields) (id : ObjectId) :
    Relists (Roster.removing · id) document (document.releasing id) := by
  by_cases admitted :
      Filter.admits [("policies", .equals (.id id))] document = true
  · have released :
        document.releasing id =
          (ArrayEdit.pull "policies" (.id id)).apply document :=
      if_pos admitted
    rw [released]
    exact document.relists_pull id
  · have unchanged : document.releasing id = document := if_neg admitted
    have absent : Value.id id ∉ document.roster := by
      intro member
      apply admitted
      unfold roster ArrayEdit.held at member
      cases held : document.get? "policies" with
      | none =>
          rw [held] at member
          cases member
      | some value =>
          rw [held] at member
          cases value with
          | list items =>
              simp only [Filter.admits, List.all_cons, List.all_nil,
                Bool.and_true, FieldTest.passes, FieldTest.agrees, held,
                Option.getD_some, Bool.or_eq_true]
              exact .inr (any_same_iff_mem.mpr member)
          | _ =>
              cases member
    rw [unchanged]
    exact
      (Relists.unedited document).congr (Roster.removing_of_notMem absent)

end Fields

/-! ## What a call makes of the lists -/

/-- What a call that succeeds makes of the roster of a principal. -/
def Operation.relist (principal : ObjectId) (items : List Value) :
    Operation → List Value
  | attach owner policy =>
      if owner.recordId? = some principal then
        policy.recordId?.elim items (Roster.adding items)
      else items
  | detach owner policy =>
      if owner.recordId? = some principal then
        policy.recordId?.elim items (Roster.removing items)
      else items
  | delete policy => policy.recordId?.elim items (Roster.removing items)
  | create _ _ _ | get _ | list | update _ _ _ | load _ => items

/-- What a call that succeeds makes of the roster of a group. -/
def Operation.unlist (items : List Value) : Operation → List Value
  | delete policy => policy.recordId?.elim items (Roster.removing items)
  | attach _ _ | detach _ _ | create _ _ _ | get _ | list | update _ _ _
  | load _ => items

namespace Event

/-- The roster of a principal after a call, told from the call and from whether it
succeeded. -/
def relist (event : Event) (principal : ObjectId) (items : List Value) :
    List Value :=
  match event.result with
  | .ok _ => event.operation.relist principal items
  | .error _ => items

/-- The roster of a group after a call, told in the same way. -/
def unlist (event : Event) (items : List Value) : List Value :=
  match event.result with
  | .ok _ => event.operation.unlist items
  | .error _ => items

end Event

/-- The document of the principal with this identifier. -/
def Tenant.principal? (tenant : Tenant) (store : Store) (id : ObjectId) :
    Option Fields :=
  (tenant.holdings store).principals.find? (Filter.byId id).admits

namespace Event

/-- What a call does to the documents that have rosters: nothing at all, or it takes a
policy out of all of them, or it edits the one of a principal. -/
inductive Edits (tenant : Tenant) (event : Event) : Prop
  | nothing :
      (tenant.holdings event.after).principals =
        (tenant.holdings event.before).principals →
      (tenant.holdings event.after).groups =
        (tenant.holdings event.before).groups →
      (∀ principal, event.relist principal = id) →
      event.unlist = id →
      Edits tenant event
  | everywhere {policy : ObjectId} :
      (tenant.holdings event.after).principals =
        (tenant.holdings event.before).principals.map
          (Fields.releasing · policy) →
      (tenant.holdings event.after).groups =
        (tenant.holdings event.before).groups.map
          (Fields.releasing · policy) →
      (∀ principal, event.relist principal = (Roster.removing · policy)) →
      event.unlist = (Roster.removing · policy) →
      Edits tenant event
  | one {owner : ObjectId} {edit : ArrayEdit}
      {change : List Value → List Value} :
      (∀ document : Fields, document.Relists change (edit.apply document)) →
      (∀ items, Roster.Distinct items → Roster.Distinct (change items)) →
      (tenant.holdings event.after).principals =
        Store.replaceFirst (Filter.byId owner).admits edit.apply
          (tenant.holdings event.before).principals →
      (tenant.holdings event.after).groups =
        (tenant.holdings event.before).groups →
      (∀ principal,
        event.relist principal = if owner = principal then change else id) →
      event.unlist = id →
      Edits tenant event

variable {tenant : Tenant} {event : Event}

theorem edits_of_ends
    (ends :
      Operation.Ends tenant event.before event.after event.operation
        event.result) :
    event.Edits tenant := by
  obtain ⟨before, operation, result, after⟩ := event
  have nothing
      (same : after.Same before)
      (relists :
        ∀ principal,
          Event.relist ⟨before, operation, result, after⟩ principal = id)
      (unlists : Event.unlist ⟨before, operation, result, after⟩ = id) :
      Edits tenant ⟨before, operation, result, after⟩ := by
    have kept := tenant.holdings_of_same same
    exact
      .nothing (congrArg Holdings.principals kept :)
        (congrArg Holdings.groups kept :) relists unlists
  cases ends with
  | failed same =>
      exact nothing same (fun _ => rfl) rfl
  | fetched _ _ same =>
      exact nothing same (fun _ => rfl) rfl
  | listed _ same =>
      exact nothing same (fun _ => rfl) rfl
  | loaded same =>
      exact nothing same (fun _ => rfl) rfl
  | created _ _ _ same =>
      have inserted := tenant.holdings_of_same same
      rw [tenant.holdings_inserting] at inserted
      exact
        .nothing (congrArg Holdings.principals inserted :)
          (congrArg Holdings.groups inserted :) (fun _ => rfl) rfl
  | updated _ _ _ _ _ same =>
      have overwritten := tenant.holdings_of_same same
      rw [tenant.holdings_overwriting] at overwritten
      exact
        .nothing (congrArg Holdings.principals overwritten :)
          (congrArg Holdings.groups overwritten :) (fun _ => rfl) rfl
  | @deleted policy id read _ same =>
      have removed := tenant.holdings_of_same same
      rw [tenant.holdings_removing] at removed
      have unlisted :
          (Event.unlist ⟨before, .delete policy, .ok
              (.value (Registry.done "Policy deleted successfully")), after⟩) =
            (Roster.removing · id) := by
        funext items
        simp only [unlist, Operation.unlist, read, Option.elim_some]
      exact
        .everywhere (congrArg Holdings.principals removed :)
          (congrArg Holdings.groups removed :) (fun _ => unlisted) unlisted
  | @attached owner policy ownerId policyId readOwner readPolicy _ _ same =>
      have edited := tenant.holdings_of_same same
      rw [tenant.holdings_relisting] at edited
      refine
        .one (fun document => document.relists_addToSet policyId)
          (fun _ distinct => distinct.adding policyId)
          (congrArg Holdings.principals edited :)
          (congrArg Holdings.groups edited :) (fun principal => ?_) rfl
      funext items
      simp only [relist, Operation.relist, readOwner, readPolicy,
        Option.some.injEq, Option.elim_some]
      by_cases own : ownerId = principal <;> simp [own]
  | @detached owner policy ownerId policyId readOwner readPolicy _ same =>
      have edited := tenant.holdings_of_same same
      rw [tenant.holdings_relisting] at edited
      refine
        .one (fun document => document.relists_pull policyId)
          (fun _ distinct => distinct.removing policyId)
          (congrArg Holdings.principals edited :)
          (congrArg Holdings.groups edited :) (fun principal => ?_) rfl
      funext items
      simp only [relist, Operation.relist, readOwner, readPolicy,
        Option.some.injEq, Option.elim_some]
      by_cases own : ownerId = principal <;> simp [own]

namespace Edits

theorem get?_id
    {edit : List Value → List Value} {document changed : Fields}
    (relists : document.Relists edit changed) :
    changed.get? "_id" = document.get? "_id" :=
  relists.others "_id" (by decide)

/-- Principals that are kept apart stay so. -/
theorem keyed_principals
    (edits : event.Edits tenant)
    (keyed : Keyed (tenant.holdings event.before).principals) :
    Keyed (tenant.holdings event.after).principals := by
  cases edits with
  | nothing principals _ _ _ =>
      rw [principals]
      exact keyed
  | everywhere principals _ _ _ =>
      rw [principals]
      exact keyed.map fun document => get?_id (document.relists_releasing _)
  | one relists _ principals _ _ _ =>
      rw [principals]
      exact keyed.replaceFirst (fun document => get?_id (relists document)) _

/-- The documents of the groups after a call are those before it, with their rosters
edited. -/
theorem forall₂_groups (edits : event.Edits tenant) :
    List.Forall₂ (Fields.Relists event.unlist)
      (tenant.holdings event.before).groups
      (tenant.holdings event.after).groups := by
  have unedited :
      List.Forall₂ (Fields.Relists id) (tenant.holdings event.before).groups
        (tenant.holdings event.before).groups :=
    List.forall₂_same.mpr fun document _ => .unedited document
  cases edits with
  | nothing _ groups _ unlists =>
      rw [groups, unlists]
      exact unedited
  | everywhere _ groups _ unlists =>
      rw [groups, unlists]
      exact
        List.forall₂_map_right_iff.mpr
          (List.forall₂_same.mpr fun document _ =>
            document.relists_releasing _)
  | one _ _ _ groups _ unlists =>
      rw [groups, unlists]
      exact unedited

/-- A principal's document after a call is its document before it, with the roster
edited, and nothing stands twice on it. -/
theorem exists_principal
    (edits : event.Edits tenant)
    (keyed : Keyed (tenant.holdings event.before).principals)
    {principal : ObjectId} {document : Fields}
    (found : tenant.principal? event.before principal = some document)
    (rostered : document.Rostered) :
    ∃ changed,
      tenant.principal? event.after principal = some changed ∧
        changed.Rostered ∧
        document.Relists (event.relist principal) changed := by
  unfold Tenant.principal? at found ⊢
  cases edits with
  | nothing principals _ relists _ =>
      rw [principals, relists]
      exact ⟨document, found, rostered, .unedited document⟩
  | @everywhere policy principals _ relists _ =>
      have asked :
          (Filter.byId principal).admits ∘ (Fields.releasing · policy) =
            (Filter.byId principal).admits := by
        funext other
        simp only [Function.comp_apply, Filter.admits, Filter.byId,
          List.all_cons, List.all_nil,
          get?_id (other.relists_releasing policy)]
      have edited := document.relists_releasing policy
      rw [principals, relists, List.find?_map, asked, found]
      exact
        ⟨_, rfl, edited.rostered rostered (rostered.distinct.removing policy),
          edited⟩
  | @one owner edit change edited distinct principals _ relists _ =>
      rw [principals, relists,
        keyed.find?_byId_replaceFirst
          (fun document => get?_id (edited document)),
        found]
      by_cases own : owner = principal
      · rw [if_pos own, if_pos own]
        have relisted := edited document
        exact
          ⟨_, rfl, relisted.rostered rostered (distinct _ rostered.distinct),
            relisted⟩
      · rw [if_neg own, if_neg own]
        exact ⟨document, rfl, rostered, .unedited document⟩

end Edits

end Event

/-- A call edits the roster of the principal and those of the groups as it is told by the
call and its success, and nothing stands twice on the principal's before or after it. -/
structure Event.KeepsRosters
    (tenant : Tenant) (principal : ObjectId) (event : Event) : Prop where
  own :
    ∃ before after,
      tenant.principal? event.before principal = some before ∧
        tenant.principal? event.after principal = some after ∧
        before.Rostered ∧ after.Rostered ∧
        before.Relists (event.relist principal) after
  groups :
    List.Forall₂ (Fields.Relists event.unlist)
      (tenant.holdings event.before).groups
      (tenant.holdings event.after).groups

namespace Tenant

variable {tenant : Tenant} {start : Store} {principal : ObjectId}
  {document : Fields}

theorem keepsRosters_of_mem_trace
    (keyed : Keyed (tenant.holdings start).principals)
    (found : tenant.principal? start principal = some document)
    (rostered : document.Rostered) (operations : List Operation) :
    ∀ event ∈ tenant.trace start operations,
      event.KeepsRosters tenant principal := by
  intro event member
  obtain ⟨⟨keyedNow, before, foundNow, rosteredNow⟩, ends⟩ :=
    tenant.ends_of_mem_trace
      (fun store =>
        Keyed (tenant.holdings store).principals ∧
          ∃ document,
            tenant.principal? store principal = some document ∧
              document.Rostered)
      (by
        rintro event ⟨keyed, document, found, rostered⟩ ends
        have edits := Event.edits_of_ends ends
        obtain ⟨changed, there, again, -⟩ :=
          edits.exists_principal keyed found rostered
        exact ⟨edits.keyed_principals keyed, changed, there, again⟩)
      ⟨keyed, document, found, rostered⟩ operations event member
  have edits := Event.edits_of_ends ends
  obtain ⟨after, there, again, relists⟩ :=
    edits.exists_principal keyedNow foundNow rosteredNow
  exact
    ⟨⟨before, after, foundNow, there, rosteredNow, again, relists⟩,
      edits.forall₂_groups⟩

end Tenant

namespace Operation

variable {tenant : Tenant} {store : Store} {principal : ObjectId}
  {document : Fields}

theorem exists_principal_of_run
    (operation : Operation)
    (keyed : Keyed (tenant.holdings store).principals)
    (found : tenant.principal? store principal = some document)
    (rostered : document.Rostered) :
    let left := operation.run tenant store
    Keyed (tenant.holdings left.2).principals ∧
      ∃ changed,
        tenant.principal? left.2 principal = some changed ∧
          changed.Rostered ∧
          changed.roster =
            Event.relist ⟨store, operation, left.1, left.2⟩ principal
              document.roster := by
  have edits :
      Event.Edits tenant
        ⟨store, operation, (operation.run tenant store).1,
          (operation.run tenant store).2⟩ :=
    Event.edits_of_ends (ends_run tenant store operation)
  obtain ⟨changed, there, again, relists⟩ :=
    edits.exists_principal keyed found rostered
  exact
    ⟨edits.keyed_principals keyed, changed, there, again,
      relists.roster_eq⟩

/-- Attaching leaves the stored policies alone. -/
theorem policies_run_attach
    (tenant : Tenant) (store : Store) (owner policy : Value) :
    (tenant.holdings ((attach owner policy).run tenant store).2).policies =
      (tenant.holdings store).policies := by
  have ends := ends_run tenant store (attach owner policy)
  generalize (attach owner policy).run tenant store = left at ends ⊢
  obtain ⟨result, after⟩ := left
  cases ends with
  | failed same =>
      rw [tenant.holdings_of_same same]
  | attached _ _ _ _ same =>
      rw [tenant.holdings_of_same same, tenant.holdings_relisting]

/-- So does detaching. -/
theorem policies_run_detach
    (tenant : Tenant) (store : Store) (owner policy : Value) :
    (tenant.holdings ((detach owner policy).run tenant store).2).policies =
      (tenant.holdings store).policies := by
  have ends := ends_run tenant store (detach owner policy)
  generalize (detach owner policy).run tenant store = left at ends ⊢
  obtain ⟨result, after⟩ := left
  cases ends with
  | failed same =>
      rw [tenant.holdings_of_same same]
  | detached _ _ _ same =>
      rw [tenant.holdings_of_same same, tenant.holdings_relisting]

section Pair

variable {owner policy : Value} {policyId : ObjectId}
  (readOwner : owner.recordId? = some principal)
  (readPolicy : policy.recordId? = some policyId)

include readOwner readPolicy

/-- Detaching from a principal that is there succeeds, whether the policy was attached or
not. -/
theorem run_detach
    (found : tenant.principal? store principal = some document) :
    ((detach owner policy).run tenant store).1 =
      .ok (.value (Registry.done "Policy detached")) := by
  have present :
      (store.documents tenant.principals).any
          (Filter.byId principal).admits =
        true :=
    List.any_eq_true.mpr
      ⟨document, List.mem_of_find?_eq_some found, List.find?_some found⟩
  rw [run_eq_map tenant store rfl]
  unfold Registry.detach
  rw [Program.finish_bind_of_ok
      (finish_requireId_of_some store readOwner "principal"),
    Program.finish_bind_of_ok
      (finish_requireId_of_some store readPolicy "policy"),
    finish_changeList, present]
  rfl

/-- A policy that was not attached is attached and detached again, or not attached and
not detached. -/
theorem roster_of_attach_detach
    (keyed : Keyed (tenant.holdings store).principals)
    (found : tenant.principal? store principal = some document)
    (rostered : document.Rostered) (absent : .id policyId ∉ document.roster) :
    ∃ changed,
      tenant.principal?
          ((detach owner policy).run tenant
            ((attach owner policy).run tenant store).2).2 principal =
        some changed ∧
      changed.roster = document.roster := by
  obtain ⟨keyedThen, attached, foundThen, rosteredThen, attachedRoster⟩ :=
    exists_principal_of_run (attach owner policy) keyed found rostered
  obtain ⟨-, detached, foundLast, -, detachedRoster⟩ :=
    exists_principal_of_run (detach owner policy) keyedThen foundThen
      rosteredThen
  refine ⟨detached, foundLast, ?_⟩
  rw [detachedRoster, attachedRoster]
  simp only [Event.relist, run_detach readOwner readPolicy foundThen, relist,
    readOwner, readPolicy, if_true, Option.elim_some]
  cases ((attach owner policy).run tenant store).1 with
  | error failure =>
      exact Roster.removing_of_notMem absent
  | ok answer =>
      exact Roster.removing_adding absent

/-- A policy that is detached and attached again comes to the end. -/
theorem roster_of_detach_attach
    (keyed : Keyed (tenant.holdings store).principals)
    (found : tenant.principal? store principal = some document)
    (rostered : document.Rostered) {answer : Answer} {left : Store}
    (attached :
      (attach owner policy).run tenant
          ((detach owner policy).run tenant store).2 =
        (.ok answer, left)) :
    ∃ changed,
      tenant.principal? left principal = some changed ∧ changed.Rostered ∧
        changed.roster =
          Roster.removing document.roster policyId ++ [.id policyId] := by
  obtain ⟨keyedThen, detached, foundThen, rosteredThen, detachedRoster⟩ :=
    exists_principal_of_run (detach owner policy) keyed found rostered
  obtain ⟨-, last, foundLast, rosteredLast, lastRoster⟩ :=
    exists_principal_of_run (attach owner policy) keyedThen foundThen
      rosteredThen
  rw [attached] at foundLast lastRoster
  refine ⟨last, foundLast, rosteredLast, ?_⟩
  rw [lastRoster, detachedRoster]
  simp only [Event.relist, run_detach readOwner readPolicy found, relist,
    readOwner, readPolicy, if_true, Option.elim_some]
  exact Roster.adding_of_notMem Roster.notMem_removing

end Pair

end Operation

/-! ## What a roster gives -/

/-- The documents that are fetched for policies with these names. -/
def Tenant.fetched (tenant : Tenant) (store : Store) (names : List Value) :
    List Fields :=
  (tenant.holdings store).policies.filter
    (Filter.admits [("_id", .oneOf (Value.distinct names))])

namespace Registry

variable {tenant : Tenant}

theorem entries_of_rostered
    {document : Fields} (rostered : document.Rostered) :
    (fieldOf document "policies").entries = .ok document.roster := by
  unfold fieldOf Fields.roster ArrayEdit.held
  rcases rostered.listed with missing | ⟨items, held⟩
  · rw [missing]
    rfl
  · rw [held]
    cases items <;> rfl

theorem finish_policiesOf_among
    {names : List Value} (keys : names.find? (!·.isKey) = none)
    (store : Store) :
    (Program.finish Program.undisturbed (policiesOf tenant names) store).1 =
      .ok (validAmong (tenant.fetched store names) names) := by
  unfold policiesOf
  rw [keys]
  cases names with
  | nil =>
      rfl
  | cons first rest =>
      have fetching :
          Program.finish Program.undisturbed
              (fetch tenant.policies (Value.distinct (first :: rest))) store =
            (.ok (tenant.fetched store (first :: rest)),
              store.execute
                ⟨tenant.policies,
                  .find [("_id", .oneOf (Value.distinct (first :: rest)))]⟩) :=
        rfl
      simp only [List.isEmpty_cons, Bool.false_eq_true, if_false]
      rw [Program.finish_bind_of_ok fetching, finish_valid_among]

theorem accepted_of_mem_validAmong
    {found : List Fields} {names : List Value} {policy : Policy}
    (member : policy ∈ validAmong found names) :
    policy.Accepted := by
  obtain ⟨name, -, valid⟩ := List.mem_filterMap.mp member
  obtain ⟨document, -, read⟩ := Option.bind_eq_some_iff.mp valid
  refine ⟨.record document, ?_⟩
  cases verdict : Policy.ofFields document with
  | error issues =>
      rw [verdict] at read
      cases read
  | ok accepted =>
      rw [verdict] at read
      cases read
      exact verdict

end Registry

theorem Operation.effective_of_run_load
    {tenant : Tenant} {store : Store} {owner : Value} {policies : List Policy}
    (loaded :
      ((load owner).run tenant store).1 = .ok (.policies policies)) :
    (Program.finish Program.undisturbed (Registry.effective tenant owner)
        store).1 =
      .ok policies := by
  rw [run_eq_map tenant store rfl] at loaded
  cases result :
      (Program.finish Program.undisturbed (Registry.effective tenant owner)
        store).1 with
  | error failure =>
      rw [result] at loaded
      cases loaded
  | ok given =>
      rw [result] at loaded
      cases loaded
      rfl

/-- What is loaded for a principal are the policies that its roster names and then those
that its groups name. -/
theorem Operation.policies_of_run_load
    {tenant : Tenant} {store : Store} {principal : ObjectId}
    {document : Fields} {owner : Value} {policies : List Policy}
    (read : owner.recordId? = some principal)
    (found : tenant.principal? store principal = some document)
    (rostered : document.Rostered)
    (loaded :
      ((load owner).run tenant store).1 = .ok (.policies policies)) :
    ∃ names,
      (Program.finish Program.undisturbed
          (Registry.groupPolicyIds tenant
            (Registry.fieldOf document "groups")) store).1 =
        .ok names ∧
      policies =
        Registry.validAmong
          (tenant.fetched store (document.roster ++ names))
          (document.roster ++ names) := by
  obtain ⟨left, same, searched⟩ :=
    Program.finish_query_of_reads
      (Deed.reads_findOne (Filter.byId principal)) tenant.principals store
  have replied :
      (Deed.findOne (Filter.byId principal)).reply
          (store.documents tenant.principals) =
        some document := found
  have ended := effective_of_run_load loaded
  unfold Registry.effective at ended
  rw [read] at ended
  simp only at ended
  rw [Program.finish_bind_of_ok searched, replied] at ended
  simp only [Registry.entries_of_rostered rostered, Program.finish_bind,
    Program.finish_ofExcept] at ended
  have asked :=
    (Registry.groupPolicyIds tenant
      (Registry.fieldOf document "groups")).finish_of_same same
  have reading :=
    (Registry.reads_groupPolicyIds tenant
      (Registry.fieldOf document "groups")).mono fun _ reads => reads.1
  have kept := Program.ReadOnly.same reading left
  cases gathered :
      Program.finish Program.undisturbed
        (Registry.groupPolicyIds tenant (Registry.fieldOf document "groups"))
        left with
  | mk result last =>
      rw [gathered] at ended asked kept
      cases result with
      | error failure =>
          cases ended
      | ok names =>
          refine ⟨names, asked.1.symm, ?_⟩
          have fetched (names : List Value) :
              tenant.fetched last names = tenant.fetched store names := by
            unfold Tenant.fetched
            rw [tenant.holdings_of_same (kept.trans same)]
          simp only at ended
          cases keys : (document.roster ++ names).find? (!·.isKey) with
          | some name =>
              unfold Registry.policiesOf at ended
              rw [keys] at ended
              cases ended
          | none =>
              rw [Registry.finish_policiesOf_among keys, fetched] at ended
              exact (Except.ok.inj ended).symm

/-- Where a policy takes part in a query, the policies before it do not matter. -/
theorem Policy.can_of_takesPart
    {earlier later : List Policy} {policy : Policy}
    (accepted : ∀ member ∈ earlier ++ policy :: later, member.Accepted)
    {verb subjectType : String} {resource : Option Fields}
    (takesPart : policy.TakesPart verb subjectType resource) :
    (Ability.ofPolicies (earlier ++ policy :: later)).can
        ⟨verb, subjectType, Value.ofResource resource⟩ =
      (Ability.ofPolicies (policy :: later)).can
        ⟨verb, subjectType, Value.ofResource resource⟩ := by
  have acceptedLater : ∀ member ∈ policy :: later, member.Accepted :=
    fun member inside => accepted member (List.mem_append_right _ inside)
  have firing :=
    (isSome_lastFiring?_iff (acceptedLater policy List.mem_cons_self)).mpr
      takesPart
  obtain ⟨rule, last⟩ := Option.isSome_iff_exists.mp firing
  rw [can_deciding accepted, can_deciding acceptedLater, deciding?_middle,
    deciding?_cons, last]
  cases deciding? verb subjectType resource later <;> rfl

/-- What a principal is given comes from the other policies on its roster, then from
this one, and then from its groups; and where this one takes part in a query, the other
ones on the roster do not matter. -/
def Tenant.OverridesOthers
    (tenant : Tenant) (store : Store) (owner : Value) (document : Fields)
    (id : ObjectId) (policy : Policy) : Prop :=
  ∀ policies,
    ((Operation.load owner).run tenant store).1 = .ok (.policies policies) →
    ∃ names,
      (Program.finish Program.undisturbed
          (Registry.groupPolicyIds tenant
            (Registry.fieldOf document "groups")) store).1 =
        .ok names ∧
      let found := tenant.fetched store (document.roster ++ names)
      let others :=
        Registry.validAmong found (Roster.removing document.roster id)
      let inherited := Registry.validAmong found names
      policies = others ++ policy :: inherited ∧
        ∀ verb subjectType resource,
          policy.TakesPart verb subjectType resource →
            (Ability.ofPolicies policies).can
                ⟨verb, subjectType, Value.ofResource resource⟩ =
              (Ability.ofPolicies (policy :: inherited)).can
                ⟨verb, subjectType, Value.ofResource resource⟩

theorem Tenant.overridesOthers_of_last
    {tenant : Tenant} {store : Store} {principal id : ObjectId}
    {document : Fields} {owner : Value} {policy : Policy}
    (keyed : Keyed (tenant.holdings store).policies)
    (read : owner.recordId? = some principal)
    (found : tenant.principal? store principal = some document)
    (rostered : document.Rostered) {others : List Value}
    (last : document.roster = others ++ [.id id])
    (absent : .id id ∉ others)
    (valid : (tenant.holdings store).policy? id = some policy) :
    tenant.OverridesOthers store owner document id policy := by
  intro policies loaded
  obtain ⟨names, gathered, rfl⟩ :=
    Operation.policies_of_run_load read found rostered loaded
  refine ⟨names, gathered, ?_⟩
  have removed : Roster.removing document.roster id = others := by
    have kept : others.filter (· ≠ .id id) = others :=
      Roster.removing_of_notMem absent
    rw [last, Roster.removing, List.filter_append, kept]
    simp
  have named : Value.id id ∈ document.roster ++ names := by
    rw [last]
    simp
  have own :
      Registry.validAmong (tenant.fetched store (document.roster ++ names))
          [.id id] =
        [policy] := by
    unfold Registry.validAmong Tenant.fetched
    rw [List.filterMap_cons,
      Registry.documentOf_fetched keyed (.refl _)
        (Registry.mem_distinct_of_id named)]
    unfold Holdings.policy? at valid
    rw [valid]
    rfl
  have split :
      Registry.validAmong (tenant.fetched store (document.roster ++ names))
          (document.roster ++ names) =
        Registry.validAmong (tenant.fetched store (document.roster ++ names))
            others ++
          policy ::
            Registry.validAmong
              (tenant.fetched store (document.roster ++ names)) names := by
    rw [← List.singleton_append, ← own]
    generalize tenant.fetched store (document.roster ++ names) = found
    unfold Registry.validAmong
    rw [last, List.append_assoc, List.filterMap_append,
      List.filterMap_append]
  simp only [removed]
  refine ⟨split, fun verb subjectType resource takesPart => ?_⟩
  rw [split]
  refine Policy.can_of_takesPart ?_ takesPart
  rw [← split]
  exact fun member inside => Registry.accepted_of_mem_validAmong inside

/-- Whatever calls are made, nothing ever stands twice on the list of a principal, and
each call edits it as the call and its success tell: what is attached comes to the end,
what is detached or deleted leaves it, and the rest keeps its order; from the lists of
groups only deletions take anything away.  Attaching and detaching restores the list,
and detaching and attaching again brings a policy to the end, where it overrides the
other ones. -/
theorem Tenant.rosters_in_order_of_attachment
    (tenant : Tenant) {start : Store}
    (keyed : (tenant.holdings start).Keyed) {principal : ObjectId}
    {document : Fields}
    (found : tenant.principal? start principal = some document)
    (rostered : document.Rostered) :
    (∀ operations, ∀ event ∈ tenant.trace start operations,
      event.KeepsRosters tenant principal) ∧
    ∀ (owner policy : Value) (id : ObjectId),
      owner.recordId? = some principal →
      policy.recordId? = some id →
      (.id id ∉ document.roster →
        ∃ changed,
          tenant.principal?
              ((Operation.detach owner policy).run tenant
                ((Operation.attach owner policy).run tenant start).2).2
              principal =
            some changed ∧
          changed.roster = document.roster) ∧
      ∀ answer left,
        (Operation.attach owner policy).run tenant
            ((Operation.detach owner policy).run tenant start).2 =
          (.ok answer, left) →
        ∃ changed,
          tenant.principal? left principal = some changed ∧
          changed.roster = Roster.removing document.roster id ++ [.id id] ∧
          ∀ decided,
            (tenant.holdings left).policy? id = some decided →
            tenant.OverridesOthers left owner changed id decided := by
  refine
    ⟨keepsRosters_of_mem_trace keyed.principals found rostered,
      fun owner policy id readOwner readPolicy => ⟨fun absent => ?_, ?_⟩⟩
  · exact
      Operation.roster_of_attach_detach readOwner readPolicy
        keyed.principals found rostered absent
  · intro answer left attached
    obtain ⟨changed, there, again, roster⟩ :=
      Operation.roster_of_detach_attach readOwner readPolicy
        keyed.principals found rostered attached
    have policiesKept :
        (tenant.holdings left).policies = (tenant.holdings start).policies := by
      have kept :=
        Operation.policies_run_attach tenant
          ((Operation.detach owner policy).run tenant start).2 owner policy
      rw [attached] at kept
      rw [kept, Operation.policies_run_detach]
    have keyedLeft : AccessControl.Keyed (tenant.holdings left).policies := by
      rw [policiesKept]
      exact keyed.policies
    refine ⟨changed, there, roster, fun decided valid => ?_⟩
    exact
      overridesOthers_of_last keyedLeft readOwner there again roster
        Roster.notMem_removing valid

/-- A tenant with a policy that opens the gate and one that shuts it, which are both
attached to a principal in this order, and one that is attached to nobody; another
principal has no list. -/
def gatehouse : Tenant := ⟨"gatehouse", "gatehouse"⟩

namespace Gatehouse

def opening : Policy :=
  ⟨"opening", .allow, ["Gate:Open"], ["*"], none⟩

def shutting : Policy :=
  ⟨"shutting", .deny, ["Gate:Open"], ["*"], none⟩

def watching : Policy :=
  ⟨"watching", .allow, ["*:List"], ["*"], none⟩

def keeper : Fields :=
  [("_id", .id (.numbered 4)),
   ("policies", .list [.id (.numbered 1), .id (.numbered 2)])]

def holdings : Holdings where
  policies :=
    [("_id", .id (.numbered 1)) :: opening.dump,
     ("_id", .id (.numbered 2)) :: shutting.dump,
     ("_id", .id (.numbered 3)) :: watching.dump]
  principals := [keeper, [("_id", .id (.numbered 5))]]
  groups :=
    [[("_id", .id (.numbered 6)), ("policies", .list [.id (.numbered 1)])]]

def store : Store :=
  ((Store.empty.write gatehouse.policies holdings.policies).write
    gatehouse.principals holdings.principals).write
      gatehouse.groups holdings.groups

theorem holdings_store : gatehouse.holdings store = holdings := by
  simp [store]

/-- Attached again, the policy that opens the gate comes after the one that shuts it. -/
theorem opening_attached_again :
    (gatehouse.holdings store).Keyed ∧
      gatehouse.principal? store (.numbered 4) = some keeper ∧
      keeper.Rostered ∧
      (∀ event ∈
          gatehouse.trace store
            [.attach (.id (.numbered 4)) (.id (.numbered 3)),
             .detach (.id (.numbered 5)) (.id (.numbered 1)),
             .delete (.id (.numbered 1))],
        event.KeepsRosters gatehouse (.numbered 4)) ∧
      (∃ changed,
        gatehouse.principal?
            ((Operation.detach (.id (.numbered 4)) (.id (.numbered 3))).run
              gatehouse
              ((Operation.attach (.id (.numbered 4)) (.id (.numbered 3))).run
                gatehouse store).2).2 (.numbered 4) =
          some changed ∧
        changed.roster = [.id (.numbered 1), .id (.numbered 2)]) ∧
      ∃ left changed,
        (Operation.attach (.id (.numbered 4)) (.id (.numbered 1))).run
            gatehouse
            ((Operation.detach (.id (.numbered 4)) (.id (.numbered 1))).run
              gatehouse store).2 =
          (.ok (.value (Registry.done "Policy attached")), left) ∧
        gatehouse.principal? left (.numbered 4) = some changed ∧
        changed.roster = [.id (.numbered 2), .id (.numbered 1)] ∧
        ((Operation.load (.id (.numbered 4))).run gatehouse left).1 =
          .ok (.policies [shutting, opening]) ∧
        gatehouse.OverridesOthers left (.id (.numbered 4)) changed
          (.numbered 1) opening ∧
        opening.TakesPart "Open" "Gate" none ∧
        (Ability.ofPolicies [opening, shutting]).can ⟨"Open", "Gate", .null⟩ =
          .ok false ∧
        (Ability.ofPolicies [shutting, opening]).can ⟨"Open", "Gate", .null⟩ =
          .ok true := by
  have keyed : (gatehouse.holdings store).Keyed := by
    rw [holdings_store]
    exact ⟨by decide, by decide, by decide⟩
  have found : gatehouse.principal? store (.numbered 4) = some keeper := by
    unfold Tenant.principal?
    rw [holdings_store]
    rfl
  have rostered : keeper.Rostered :=
    ⟨.inr ⟨_, rfl⟩, by decide⟩
  obtain ⟨runs, calls⟩ :=
    Tenant.rosters_in_order_of_attachment gatehouse keyed found rostered
  obtain ⟨restored, -⟩ :=
    calls (.id (.numbered 4)) (.id (.numbered 3)) (.numbered 3) rfl rfl
  obtain ⟨-, ended⟩ :=
    calls (.id (.numbered 4)) (.id (.numbered 1)) (.numbered 1) rfl rfl
  obtain ⟨changed, there, roster, overrides⟩ := ended _ _ rfl
  have takesPart : opening.TakesPart "Open" "Gate" none :=
    (Policy.isSome_lastFiring?_iff (by decide)).mp rfl
  exact
    ⟨keyed, found, rostered, runs _, restored (by decide), _, changed, rfl,
      there, roster, rfl, overrides opening rfl, takesPart, rfl, rfl⟩

end Gatehouse

end AccessControl
