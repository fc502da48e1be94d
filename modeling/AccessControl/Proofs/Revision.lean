import AccessControl.Proofs.History
import AccessControl.Proofs.Interleaving
import Mathlib.Logic.Function.Basic

/-!
# Changes that take turns

A change of a policy first reads it.  It looks for a namesake when it gives the
policy a new name, and then writes all fields of a policy, also those that it does
not change, as it has read them.  When any number of changes take turns, each turn
is one of the moves of `Move`, or the change whose turn it is fails.
-/

namespace AccessControl

structure Revision where
  now : Except Clock.Fault Timestamp
  policy : Value
  given : Fields

namespace Revision

def program (tenant : Tenant) (revision : Revision) : Program Value :=
  Registry.update tenant revision.now revision.policy (.record revision.given)

def apply (revision : Revision) (contents : Contents) : Contents :=
  contents.updated revision.now revision.given

/-- It names the policy, gives no field twice, and expects finite numbers only. -/
structure Names (revision : Revision) (id : ObjectId) : Prop where
  read : revision.policy.recordId? = some id
  nodup : revision.given.names.Nodup
  finite : revision.given.FiniteCondition

theorem beside_apply (revision : Revision) (contents : Contents) :
    (revision.apply contents).Beside contents := by
  intro name other notUpdated
  unfold apply Contents.updated
  rw [if_neg other, if_neg notUpdated]

end Revision

namespace Contents.Beside

variable {first second third : Contents}

theorem symm (beside : first.Beside second) : second.Beside first :=
  fun name other notUpdated => (beside name other notUpdated).symm

theorem trans
    (left : first.Beside second) (right : second.Beside third) :
    first.Beside third :=
  fun name other notUpdated =>
    (left name other notUpdated).trans (right name other notUpdated)

end Contents.Beside

namespace Registry

/-- What a change does after all checks. -/
def overwrite (tenant : Tenant) (now : Except Clock.Fault Timestamp)
    (id : ObjectId) (merged : Policy) : Program Value := do
  let written := writtenFields merged (← timed now)
  let found ← Program.query tenant.policies
    (.findOneAndSet (Filter.byId id) written)
  match found with
  | some document => pure (answered document)
  | none => Program.refuse policyNotFound

/-- What a change does once it has read the policy. -/
def resumed (tenant : Tenant) (now : Except Clock.Fault Timestamp)
    (id : ObjectId) (given current : Fields) : Program Value := do
  let merged ← validated
    (Policy.ofFields (Fields.merge current (effectiveChanges given)))
  let renamed := !(Value.text merged.name).same (fieldOf current "name")
  let taken ← if renamed then hasNamesake tenant id merged.name else pure false
  if taken then Program.refuse policyExists
  else overwrite tenant now id merged

theorem update_eq_ask
    (tenant : Tenant) (now : Except Clock.Fault Timestamp) {policy : Value}
    {id : ObjectId} (read : policy.recordId? = some id) (given : Fields) :
    update tenant now policy (.record given) =
      .ask ⟨tenant.policies, .findOne (Filter.byId id)⟩ fun found =>
        match found with
        | some current => resumed tenant now id given current
        | none => Program.refuse policyNotFound := by
  unfold update requireId
  rw [read]
  refine congrArg (Program.ask _) (funext fun found => ?_)
  cases found <;> rfl

end Registry

namespace Program

variable {α : Type}

def Ended (program : Program α) : Prop :=
  ∃ result, program = .done result

def Failed (program : Program α) : Prop :=
  ∃ failure, program = .done (.error failure)

theorem advance_search
    (tenant : Tenant) (id : ObjectId) (next : Option Fields → Program α)
    (store : Store) :
    (Program.ask ⟨tenant.policies, .findOne (Filter.byId id)⟩ next).advance
        store =
      next (tenant.stored? store id) :=
  rfl

end Program

section Steps

variable {tenant : Tenant} {id : ObjectId} {revision : Revision}

/-- The program has read this document, and found it to be accepted with the changes;
it goes on to look for a namesake or to write. -/
inductive Holding (tenant : Tenant) (id : ObjectId) (revision : Revision)
    (read : Fields) : Program Value → Prop
  | dooms {filter : Filter} {next : Option Fields → Program Value} :
      (∀ namesake, (next namesake).Failed) →
      Holding tenant id revision read
        (.ask ⟨tenant.policies, .findOne filter⟩ next)
  | checks {filter : Filter} {next : Option Fields → Program Value} :
      (∀ namesake, (next (some namesake)).Failed) →
      Holding tenant id revision read (next none) →
      Holding tenant id revision read
        (.ask ⟨tenant.policies, .findOne filter⟩ next)
  | writes {merged : Policy} {time : Timestamp}
      {next : Option Fields → Program Value} :
      Policy.ofFields (read.merge (Registry.effectiveChanges revision.given)) =
        .ok merged →
      revision.now = .ok time →
      (∀ found, (next found).Ended) →
      Holding tenant id revision read
        (.ask
          ⟨tenant.policies,
            .findOneAndSet (Filter.byId id)
              (Registry.writtenFields merged time)⟩ next)

theorem Holding.not_ended
    {read : Fields} {program : Program Value}
    (holding : Holding tenant id revision read program) :
    ¬ program.Ended := by
  rintro ⟨result, isDone⟩
  cases holding <;> cases isDone

theorem holding_overwrite
    {read : Fields} {merged : Policy}
    (accepted :
      Policy.ofFields (read.merge (Registry.effectiveChanges revision.given)) =
        .ok merged) :
    (Registry.overwrite tenant revision.now id merged).Failed ∨
      Holding tenant id revision read
        (Registry.overwrite tenant revision.now id merged) := by
  unfold Registry.overwrite
  cases shown : revision.now with
  | error fault =>
      exact Or.inl ⟨_, rfl⟩
  | ok time =>
      right
      refine .writes accepted shown ?_
      rintro (_ | document)
      · exact ⟨_, rfl⟩
      · exact ⟨_, rfl⟩

theorem holding_resumed (read : Fields) :
    (Registry.resumed tenant revision.now id revision.given read).Failed ∨
      Holding tenant id revision read
        (Registry.resumed tenant revision.now id revision.given read) := by
  unfold Registry.resumed
  cases accepted :
      Policy.ofFields
        (read.merge (Registry.effectiveChanges revision.given)) with
  | error issues =>
      exact Or.inl ⟨_, rfl⟩
  | ok merged =>
      have writing :
          (Registry.overwrite tenant revision.now id merged).Failed ∨
            Holding tenant id revision read
              (Registry.overwrite tenant revision.now id merged) :=
        holding_overwrite accepted
      have validated : Registry.validated (.ok merged) = .done (.ok merged) :=
        rfl
      simp only [validated, bind, Program.bind]
      cases (Value.text merged.name).same (Registry.fieldOf read "name") with
      | true =>
          exact writing
      | false =>
          right
          rcases writing with failing | holding
          · refine .dooms ?_
            rintro (_ | namesake)
            · exact failing
            · exact ⟨_, rfl⟩
          · refine .checks ?_ holding
            intro namesake
            exact ⟨_, rfl⟩

/-- A step of a change that has read the policy leaves everything as it is, or writes
and ends. -/
theorem Holding.step
    {read : Fields} {program : Program Value}
    (holding : Holding tenant id revision read program) (store : Store) :
    ((program.effect store).Same store ∧
        ((program.advance store).Failed ∨
          Holding tenant id revision read (program.advance store))) ∨
      (program.advance store).Ended ∧
        ∃ merged time,
          Policy.ofFields
              (read.merge (Registry.effectiveChanges revision.given)) =
            .ok merged ∧
          revision.now = .ok time ∧
          program.effect store =
            tenant.overwriting store id
              (Registry.writtenFields merged time) := by
  cases holding with
  | @dooms filter next fails =>
      left
      exact
        ⟨Store.execute_same_of_reads (Deed.reads_findOne filter) _ store,
          Or.inl (fails _)⟩
  | @checks filter next taken free =>
      left
      refine
        ⟨Store.execute_same_of_reads (Deed.reads_findOne filter) _ store, ?_⟩
      change
        (next ((store.documents tenant.policies).find? filter.admits)).Failed ∨
          Holding tenant id revision read
            (next ((store.documents tenant.policies).find? filter.admits))
      cases (store.documents tenant.policies).find? filter.admits with
      | none =>
          exact Or.inr free
      | some namesake =>
          exact Or.inl (taken namesake)
  | @writes merged time next accepted shown ends =>
      right
      exact ⟨ends _, merged, time, accepted, shown, rfl⟩

end Steps

/-! ## How far the changes are -/

/-- How far a change is: it has read nothing yet, or it goes by contents that it has
read, or it has ended. -/
inductive Phase where
  | waiting
  | holding (read : Contents)
  | ended

/-- The program of a change is as far as the phase says. -/
def Phase.Fits (tenant : Tenant) (id : ObjectId) (revision : Revision)
    (original : Contents) : Phase → Program Value → Prop
  | waiting, program => program = revision.program tenant
  | holding contents, program =>
      ∃ read : Fields,
        read.contents = contents ∧ contents.Beside original ∧
          read.FiniteCondition ∧ Holding tenant id revision read program
  | ended, program => program.Ended

/-- The changes that are under way are in these phases, and the policy has these
contents. -/
structure UnderWay {ι : Type} (tenant : Tenant) (id : ObjectId)
    (revisions : ι → Revision) (original : Contents) (phases : ι → Phase)
    (contents : Contents) (pool : Pool ι Value) : Prop where
  fits :
    ∀ place,
      (phases place).Fits tenant id (revisions place) original
        (pool.programs place)
  keyed : Keyed (tenant.holdings pool.store).policies
  beside : contents.Beside original
  stored :
    ∃ document,
      tenant.stored? pool.store id = some document ∧
        document.contents = contents ∧ document.FiniteCondition

/-- What one step of a change can do to the phases and to the contents. -/
inductive Move {ι : Type} [DecidableEq ι] (revisions : ι → Revision) (place : ι)
    (phases : ι → Phase) (contents : Contents) :
    (ι → Phase) → Contents → Prop
  | waits :
      phases place ≠ .waiting →
      Move revisions place phases contents phases contents
  | reads :
      phases place = .waiting →
      Move revisions place phases contents
        (Function.update phases place (.holding contents)) contents
  | writes {read : Contents} :
      phases place = .holding read →
      Move revisions place phases contents
        (Function.update phases place .ended) ((revisions place).apply read)

namespace Move

variable {ι : Type} [DecidableEq ι] {revisions : ι → Revision} {place : ι}
  {phases next : ι → Phase} {contents left : Contents}

theorem of_waiting
    (move : Move revisions place phases contents next left)
    (waiting : phases place = .waiting) :
    next = Function.update phases place (.holding contents) ∧
      left = contents := by
  cases move with
  | waits begun =>
      exact absurd waiting begun
  | reads _ =>
      exact ⟨rfl, rfl⟩
  | writes holding =>
      rw [waiting] at holding
      cases holding

theorem of_holding
    (move : Move revisions place phases contents next left)
    {read : Contents} (holding : phases place = .holding read) :
    (next = phases ∧ left = contents) ∨
      (next = Function.update phases place .ended ∧
        left = (revisions place).apply read) := by
  cases move with
  | waits _ =>
      exact Or.inl ⟨rfl, rfl⟩
  | reads waiting =>
      rw [waiting] at holding
      cases holding
  | writes held =>
      rw [holding] at held
      cases held
      exact Or.inr ⟨rfl, rfl⟩

theorem of_ended
    (move : Move revisions place phases contents next left)
    (ended : phases place = .ended) :
    next = phases ∧ left = contents := by
  cases move with
  | waits _ =>
      exact ⟨rfl, rfl⟩
  | reads waiting =>
      rw [waiting] at ended
      cases ended
  | writes held =>
      rw [held] at ended
      cases ended

theorem waiting_iff
    (move : Move revisions place phases contents next left) (other : ι) :
    next other = .waiting ↔ phases other = .waiting ∧ other ≠ place := by
  have changed {phase : Phase} (begun : phase ≠ .waiting) :
      Function.update phases place phase other = .waiting ↔
        phases other = .waiting ∧ other ≠ place := by
    by_cases same : other = place
    · subst same
      simp [begun]
    · simp [same]
  cases move with
  | waits begun =>
      constructor
      · intro waiting
        refine ⟨waiting, ?_⟩
        rintro rfl
        exact begun waiting
      · exact And.left
  | reads _ =>
      exact changed (by simp)
  | writes _ =>
      exact changed (by simp)

end Move

namespace UnderWay

variable {ι : Type} {tenant : Tenant} {id : ObjectId}
  {revisions : ι → Revision} {original contents : Contents}
  {phases : ι → Phase} {pool : Pool ι Value}

theorem ended_iff
    (underWay : UnderWay tenant id revisions original phases contents pool)
    (names : ∀ place, (revisions place).Names id) (place : ι) :
    (pool.programs place).Ended ↔ phases place = .ended := by
  have fits := underWay.fits place
  cases phase : phases place with
  | waiting =>
      rw [phase] at fits
      have asks :=
        fits.trans (Registry.update_eq_ask tenant _ (names place).read _)
      simp [Program.Ended, asks]
  | holding read =>
      rw [phase] at fits
      obtain ⟨document, -, -, -, holding⟩ := fits
      simp [holding.not_ended]
  | ended =>
      rw [phase] at fits
      exact iff_of_true fits rfl

variable [DecidableEq ι]

/-- The change whose turn it was is in another phase now, and the others are where they
were. -/
theorem fits_turn
    (underWay : UnderWay tenant id revisions original phases contents pool)
    {place : ι} {phase : Phase}
    (fits :
      phase.Fits tenant id (revisions place) original
        ((pool.programs place).advance pool.store)) (other : ι) :
    (Function.update phases place phase other).Fits tenant id
      (revisions other) original ((pool.turn place).programs other) := by
  by_cases same : other = place
  · subst same
    rw [Function.update_self, Pool.programs_turn_self]
    exact fits
  · rw [Function.update_of_ne same, Pool.programs_turn_of_ne pool same]
    exact underWay.fits other

theorem of_same
    (underWay : UnderWay tenant id revisions original phases contents pool)
    {place : ι} (phase : Phase)
    (fits :
      phase.Fits tenant id (revisions place) original
        ((pool.programs place).advance pool.store))
    (same : ((pool.programs place).effect pool.store).Same pool.store) :
    UnderWay tenant id revisions original
      (Function.update phases place phase) contents (pool.turn place) := by
  obtain ⟨document, found, holds, finite⟩ := underWay.stored
  refine ⟨underWay.fits_turn fits, ?_, underWay.beside, document, ?_, holds,
    finite⟩
  · have kept :
        tenant.holdings (pool.turn place).store = tenant.holdings pool.store :=
      tenant.holdings_of_same same
    rw [kept]
    exact underWay.keyed
  · have kept :
        tenant.stored? (pool.turn place).store id =
          tenant.stored? pool.store id :=
      tenant.stored?_of_same same id
    rw [kept]
    exact found

/-- A change writes what it made out of what it had read. -/
theorem of_written
    (underWay : UnderWay tenant id revisions original phases contents pool)
    {place : ι} (names : (revisions place).Names id)
    (ended : ((pool.programs place).advance pool.store).Ended)
    {read : Fields} (beside : read.contents.Beside original)
    (readFinite : read.FiniteCondition)
    {merged : Policy} {time : Timestamp}
    (accepted :
      Policy.ofFields
          (read.merge
            (Registry.effectiveChanges (revisions place).given)) =
        .ok merged)
    (shown : (revisions place).now = .ok time)
    (written :
      (pool.turn place).store =
        tenant.overwriting pool.store id
          (Registry.writtenFields merged time)) :
    UnderWay tenant id revisions original
      (Function.update phases place .ended)
      ((revisions place).apply read.contents) (pool.turn place) := by
  obtain ⟨document, found, holds, -⟩ := underWay.stored
  have finite :=
    Registry.finiteCondition_merge_effectiveChanges names.nodup readFinite
      names.finite
  obtain ⟨spelled, formed⟩ :=
    Policy.ofFields_eq_ok_iff_spelledBy.mp accepted
  have holdsNow :
      (document.merge (Registry.writtenFields merged time)).contents =
        (revisions place).apply read.contents := by
    unfold Revision.apply
    rw [shown]
    apply Operation.contents_overwritten names.nodup accepted finite
    rw [holds]
    exact underWay.beside.trans beside.symm
  refine ⟨underWay.fits_turn ended, ?_, ?_, _, ?_, holdsNow, ?_⟩
  · rw [written]
    exact Operation.keyed_overwriting underWay.keyed id merged time
  · exact ((revisions place).beside_apply _).trans beside
  · rw [written]
    exact Operation.stored?_overwritten underWay.keyed found merged time
  · exact Operation.finiteCondition_overwritten spelled formed finite

/-- A change whose turn comes fails, or makes one of the moves. -/
theorem turn
    (underWay : UnderWay tenant id revisions original phases contents pool)
    (names : ∀ place, (revisions place).Names id) (place : ι) :
    ((pool.turn place).programs place).Failed ∨
      ∃ next left,
        Move revisions place phases contents next left ∧
          UnderWay tenant id revisions original next left
            (pool.turn place) := by
  rw [Pool.programs_turn_self]
  have fits := underWay.fits place
  obtain ⟨document, found, holds, finite⟩ := underWay.stored
  cases phase : phases place with
  | waiting =>
      rw [phase] at fits
      have asks :=
        fits.trans (Registry.update_eq_ask tenant _ (names place).read _)
      have advanced :
          (pool.programs place).advance pool.store =
            Registry.resumed tenant (revisions place).now id
              (revisions place).given document := by
        rw [asks]
        refine (Program.advance_search tenant id _ pool.store).trans ?_
        rw [found]
      have same :
          ((pool.programs place).effect pool.store).Same pool.store := by
        rw [asks]
        exact Store.execute_same_of_reads (Deed.reads_findOne _) _ _
      rw [advanced]
      rcases holding_resumed document with failed | holding
      · exact Or.inl failed
      · right
        refine ⟨_, _, .reads phase, ?_⟩
        apply underWay.of_same _ _ same
        rw [advanced]
        exact ⟨document, holds, underWay.beside, finite, holding⟩
  | holding read =>
      rw [phase] at fits
      obtain ⟨readDocument, rfl, beside, readFinite, holding⟩ := fits
      rcases holding.step pool.store with
        ⟨same, failed | holdingStill⟩ |
          ⟨ended, merged, time, accepted, shown, written⟩
      · exact Or.inl failed
      · right
        refine ⟨_, _, .waits (by rw [phase]; simp), ?_⟩
        have kept := underWay.of_same (.holding readDocument.contents)
          ⟨readDocument, rfl, beside, readFinite, holdingStill⟩ same
        rw [← phase, Function.update_eq_self] at kept
        exact kept
      · right
        exact ⟨_, _, .writes phase,
          underWay.of_written (names place) ended beside readFinite accepted
            shown written⟩
  | ended =>
      rw [phase] at fits
      obtain ⟨result, isDone⟩ := fits
      right
      refine ⟨_, _, .waits (by rw [phase]; simp), ?_⟩
      have kept := underWay.of_same .ended
        ⟨result, by rw [isDone]; rfl⟩
        (by rw [isDone]; exact .refl _)
      rw [← phase, Function.update_eq_self] at kept
      exact kept

end UnderWay

end AccessControl
