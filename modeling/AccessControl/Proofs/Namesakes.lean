import AccessControl.Proofs.Naming
import AccessControl.Proofs.Simultaneous

/-!
# Two calls that give names at the same time

A creation or a change refuses a name that another policy has, but it looks for that
policy in one step and writes in a later one.  As long as one of two calls has ended
before the other one begins, the names stay different; when they overlap, both may
find the name free, and then both write it (`apart_iff`).
-/

namespace AccessControl

namespace Stage

def Unwritten : Stage → Prop
  | written _ _ => False
  | _ => True

/-- Both calls have written this name, each to a policy of its own. -/
def Clash (stages : Bool → Stage) : Prop :=
  ∃ name, ∃ ids : Bool → ObjectId,
    ids true ≠ ids false ∧
      ∀ place, stages place = .written (ids place) name

/-- What the policies are for a call in its own stage, beside another call.  When the
call has leave to write a name, nobody else has it, unless the other one came first
and both had begun by then. -/
structure Holds (call : Naming) (met : Prop) (own other : Stage)
    (policies : List Fields) : Prop where
  fresh :
    ∀ id, call.fresh? = some id → own.Unwritten →
      ∀ document ∈ policies, hasId id document = false
  cleared :
    ∀ id name, own = .cleared id name →
      ∀ document ∈ policies, document.get? "name" = some (.text name) →
        hasId id document = true ∨
          met ∧ ∃ rival, other = .written rival name ∧ rival ≠ id
  written :
    ∀ id name, own = .written id name →
      (∃ document ∈ policies,
        hasId id document = true ∧
          document.get? "name" = some (.text name)) ∨
        ∃ later, other = .written id later

theorem mem_of_changed
    {earlier later : List Fields} {first second stored : Fields}
    (member : stored ∈ earlier ++ first :: later) :
    stored = first ∨ stored ∈ earlier ++ second :: later := by
  simp only [List.mem_append, List.mem_cons] at member ⊢
  tauto

namespace Holds

variable {call rival : Naming} {met : Prop} {own other next : Stage}
  {policies left : List Fields}

/-- A call's own step. -/
theorem step_own
    (holds : Holds call met own other policies)
    (step : Step call policies own next left) :
    Holds call met next other left := by
  cases step with
  | rests _ =>
      exact holds
  | fails id name =>
      refine ⟨fun fresh isFresh _ => ?_, ?_, ?_⟩
      · exact holds.fresh fresh isFresh trivial
      · rintro _ _ ⟨⟩
      · rintro _ _ ⟨⟩
  | clears only =>
      refine ⟨fun fresh isFresh _ => ?_, ?_, ?_⟩
      · exact holds.fresh fresh isFresh trivial
      · rintro _ _ ⟨⟩ document member called
        exact .inl (only document member called)
      · rintro _ _ ⟨⟩
  | @inserts id name document isFresh identified called =>
      refine ⟨fun _ _ unwritten => unwritten.elim, ?_, ?_⟩
      · rintro _ _ ⟨⟩
      · rintro _ _ ⟨⟩
        exact .inl ⟨document, by simp, hasId_iff.mpr identified, called⟩
  | @overwrites id name earlier later current changed _ split has same called =>
      refine ⟨fun _ _ unwritten => unwritten.elim, ?_, ?_⟩
      · rintro _ _ ⟨⟩
      · rintro _ _ ⟨⟩
        have hasStill := (hasId_of_get?_eq same id).trans has
        exact .inl ⟨changed, by simp, hasStill, called⟩

/-- Who has leave to write a name is the only one to have it, or else the other call
has written it. -/
theorem taken_or_mine
    (holds : Holds call met own other policies) {id : ObjectId}
    {name : String} (isCleared : own = .cleared id name) :
    (met ∧ ∃ rival, other = .written rival name ∧ rival ≠ id) ∨
      ∀ document ∈ policies, document.get? "name" = some (.text name) →
        hasId id document = true := by
  by_cases taken : met ∧ ∃ rival, other = .written rival name ∧ rival ≠ id
  · exact .inl taken
  · right
    intro document member called
    exact
      (holds.cleared id name isCleared document member called).resolve_right
        taken

/-- As long as the other call has not written, its stage does not matter. -/
theorem of_unwritten
    (holds : Holds call met own other policies) (unwritten : other.Unwritten)
    (next : Stage) :
    Holds call met own next policies := by
  refine ⟨holds.fresh, ?_, ?_⟩
  · intro id name cleared document member called
    rcases holds.cleared id name cleared document member called with
      mine | ⟨-, rival, rfl, -⟩
    · exact .inl mine
    · exact unwritten.elim
  · intro id name written
    rcases holds.written id name written with stored | ⟨later, rfl⟩
    · exact .inl stored
    · exact unwritten.elim

/-- Who has leave to write a name when the other call writes it has had it while the
other one had leave, too. -/
theorem cleared_of_wrote
    {id rivalId : ObjectId} {name rivalName : String} {document : Fields}
    (haveMet : met) (has : hasId rivalId document = true)
    (called : document.get? "name" = some (.text rivalName))
    (alike : document.get? "name" = some (.text name)) :
    hasId id document = true ∨
      met ∧ ∃ other,
        Stage.written rivalId rivalName = .written other name ∧
          other ≠ id := by
  rw [called] at alike
  cases alike
  by_cases same : rivalId = id
  · exact .inl (same ▸ has)
  · exact .inr ⟨haveMet, rivalId, rfl, same⟩

/-- A step of the other call. -/
theorem step_other
    (holds : Holds call met own other policies)
    (step : Step rival policies other next left)
    (different : ∀ id, call.fresh? = some id → rival.fresh? ≠ some id)
    (meets :
      ∀ id name rivalId rivalName, own = .cleared id name →
        other = .cleared rivalId rivalName → met) :
    Holds call met own next left := by
  cases step with
  | rests _ =>
      exact holds
  | fails id name =>
      exact holds.of_unwritten trivial _
  | clears _ =>
      exact holds.of_unwritten trivial _
  | @inserts id name document isFresh identified called =>
      have before := holds.of_unwritten trivial (.written id name)
      refine ⟨?_, ?_, ?_⟩
      · intro fresh mine unwritten stored member
        rcases List.mem_append.mp member with old | new
        · exact holds.fresh fresh mine unwritten stored old
        · rw [List.mem_singleton.mp new, ← Bool.not_eq_true, hasId_iff,
            identified]
          rintro ⟨⟩
          exact different id mine isFresh
      · intro ownId ownName isCleared stored member alike
        rcases List.mem_append.mp member with old | new
        · exact before.cleared ownId ownName isCleared stored old alike
        · rw [List.mem_singleton.mp new] at alike ⊢
          have haveMet := meets _ _ _ _ isCleared rfl
          exact cleared_of_wrote haveMet (hasId_iff.mpr identified) called alike
      · intro ownId ownName isWritten
        rcases before.written ownId ownName isWritten with
          ⟨stored, member, has, named⟩ | later
        · exact .inl ⟨stored, List.mem_append_left _ member, has, named⟩
        · exact .inr later
  | @overwrites id name earlier later current changed _ split has same called =>
      subst split
      have before := holds.of_unwritten trivial (.written id name)
      have alikeIds := hasId_of_get?_eq same
      refine ⟨?_, ?_, ?_⟩
      · intro fresh mine unwritten stored member
        rcases mem_of_changed member with rfl | old
        · rw [alikeIds]
          exact holds.fresh fresh mine unwritten current (by simp)
        · exact holds.fresh fresh mine unwritten stored old
      · intro ownId ownName isCleared stored member alike
        rcases mem_of_changed member with rfl | old
        · have haveMet := meets _ _ _ _ isCleared rfl
          exact cleared_of_wrote haveMet ((alikeIds id).trans has) called alike
        · exact before.cleared ownId ownName isCleared stored old alike
      · intro ownId ownName isWritten
        rcases before.written ownId ownName isWritten with
          ⟨stored, member, hasOwn, named⟩ | later
        · rcases mem_of_changed member with rfl | kept
          · rw [hasId_iff] at has hasOwn
            rw [has] at hasOwn
            cases hasOwn
            exact .inr ⟨name, rfl⟩
          · exact .inl ⟨stored, kept, hasOwn, named⟩
        · exact .inr later

end Holds

/-- What the policies are for two calls in these stages. -/
structure Shared (calls : Bool → Naming) (met : Prop) (stages : Bool → Stage)
    (policies : List Fields) : Prop where
  keyed : Keyed policies
  holds :
    ∀ place,
      Holds (calls place) met (stages place) (stages (!place)) policies
  apart : Fields.Apart "name" policies ∨ met ∧ Clash stages

namespace Shared

variable {calls : Bool → Naming} {met : Prop} {stages : Bool → Stage}
  {policies left : List Fields} {place : Bool} {next : Stage}

theorem mono
    (shared : Shared calls met stages policies) {later : Prop}
    (wider : met → later) :
    Shared calls later stages policies := by
  refine ⟨shared.keyed, fun place => ?_, ?_⟩
  · have holds := shared.holds place
    refine ⟨holds.fresh, ?_, holds.written⟩
    intro id name isCleared document member called
    refine (holds.cleared id name isCleared document member called).imp_right ?_
    exact And.imp_left wider
  · exact shared.apart.imp_right (And.imp_left wider)

theorem keyed_step
    (shared : Shared calls met stages policies)
    (step : Step (calls place) policies (stages place) next left) :
    Keyed left := by
  have fresh := (shared.holds place).fresh
  generalize stages place = stage at step fresh
  cases step with
  | rests _ =>
      exact shared.keyed
  | fails _ _ =>
      exact shared.keyed
  | clears _ =>
      exact shared.keyed
  | @inserts id name document isFresh identified _ =>
      refine shared.keyed.append identified fun other member has => ?_
      have notHere := fresh id isFresh trivial other member
      rw [hasId_iff.mpr has] at notHere
      cases notHere
  | @overwrites id name earlier later current changed _ split _ same _ =>
      subst split
      exact shared.keyed.of_get?_eq same

/-- Names that are different stay different unless a name is written that the other
call has written since this one got leave. -/
theorem apart_step
    (shared : Shared calls met stages policies)
    (apart : Fields.Apart "name" policies)
    (step : Step (calls place) policies (stages place) next left) :
    Fields.Apart "name" left ∨
      met ∧ ∃ id name rival,
        next = .written id name ∧ stages (!place) = .written rival name ∧
          rival ≠ id := by
  have holds := shared.holds place
  generalize stages place = stage at step holds
  cases step with
  | rests _ =>
      exact .inl apart
  | fails _ _ =>
      exact .inl apart
  | clears _ =>
      exact .inl apart
  | @inserts id name document isFresh identified called =>
      rcases holds.taken_or_mine rfl with
        ⟨haveMet, rival, isWritten, differs⟩ | mine
      · exact .inr ⟨haveMet, id, name, rival, rfl, isWritten, differs⟩
      · left
        apply apart.append called (Value.sharp_text name)
        intro other member alike
        have has := mine other member alike
        rw [holds.fresh id isFresh trivial other member] at has
        cases has
  | @overwrites id name earlier later current changed _ split has same called =>
      rcases holds.taken_or_mine rfl with
        ⟨haveMet, rival, isWritten, differs⟩ | mine
      · exact .inr ⟨haveMet, id, name, rival, rfl, isWritten, differs⟩
      · left
        subst split
        exact shared.keyed.apart_renamed apart has called mine

theorem clash_of_written
    {id rival : ObjectId} {name : String}
    (own : stages place = .written id name)
    (other : stages (!place) = .written rival name) (differs : rival ≠ id) :
    Clash stages := by
  cases place with
  | false =>
      refine ⟨name, fun place => bif place then rival else id, differs, ?_⟩
      rintro (_ | _)
      · exact own
      · exact other
  | true =>
      refine
        ⟨name, fun place => bif place then id else rival, differs.symm, ?_⟩
      rintro (_ | _)
      · exact other
      · exact own

/-- A step of one of the two calls. -/
theorem step
    (shared : Shared calls met stages policies)
    (different :
      ∀ place id, (calls place).fresh? = some id →
        (calls (!place)).fresh? ≠ some id)
    (meets :
      (∀ place, ∃ id name, stages place = .cleared id name) → met)
    (step : Step (calls place) policies (stages place) next left) :
    Shared calls met (Function.update stages place next) left := by
  have away : (!place) ≠ place := Bool.not_ne_self place
  refine ⟨shared.keyed_step step, fun other => ?_, ?_⟩
  · rcases Bool.eq_or_eq_not other place with rfl | rfl
    · rw [Function.update_self, Function.update_of_ne away]
      exact (shared.holds other).step_own step
    · have holds := shared.holds (!place)
      rw [Bool.not_not] at holds ⊢
      rw [Function.update_self, Function.update_of_ne away]
      refine holds.step_other step ?_ ?_
      · intro id isFresh
        have differs := different (!place) id isFresh
        rw [Bool.not_not] at differs
        exact differs
      · intro id name rivalId rivalName own rival
        apply meets
        intro other
        rcases Bool.eq_or_eq_not other place with rfl | rfl
        · exact ⟨rivalId, rivalName, rival⟩
        · exact ⟨id, name, own⟩
  · rcases shared.apart with apart | ⟨haveMet, clash⟩
    · refine (shared.apart_step apart step).imp_right ?_
      rintro ⟨haveMet, id, name, rival, rfl, isWritten, differs⟩
      have own :
          Function.update stages place (written id name) place =
            .written id name :=
        Function.update_self ..
      rw [← Function.update_of_ne away (written id name) stages]
        at isWritten
      exact ⟨haveMet, clash_of_written own isWritten differs⟩
    · obtain ⟨name, ids, differ, written⟩ := clash
      rw [written place] at step
      cases step with
      | rests _ =>
          rw [← written place, Function.update_eq_self]
          exact .inr ⟨haveMet, name, ids, differ, written⟩

end Shared

end Stage

/-! ## Turns of two calls -/

namespace Naming

variable {tenant : Tenant} {calls : Bool → Naming}

/-- Calls that have not had a turn yet. -/
def begun {ι : Type} (tenant : Tenant) (calls : ι → Naming) (store : Store) :
    Pool ι Value :=
  ⟨fun place => (calls place).program tenant, store⟩

/-- Where the two calls are after these turns. -/
structure Reached (tenant : Tenant) (calls : Bool → Naming)
    (start : Pool Bool Value) (turns : List Bool) (stages : Bool → Stage) :
    Prop where
  fits :
    ∀ place,
      (stages place).Fits tenant (calls place)
        ((start.after turns).programs place)
  moved : ∀ place, stages place ≠ .pending → place ∈ turns
  shared :
    Stage.Shared calls (Overlapping start turns) stages
      (tenant.holdings (start.after turns).store).policies

theorem Writing.not_ended
    {call : Naming} {id : ObjectId} {name : String} {program : Program Value}
    (writing : Writing tenant call id name program) : ¬ program.Ended := by
  rintro ⟨result, isDone⟩
  cases writing <;> cases isDone

namespace Reached

variable {start : Pool Bool Value} {turns : List Bool} {stages : Bool → Stage}

theorem nil
    {store : Store} (keyed : Keyed (tenant.holdings store).policies)
    (apart : Fields.Apart "name" (tenant.holdings store).policies)
    (fresh :
      ∀ place id, (calls place).fresh? = some id →
        ∀ document ∈ (tenant.holdings store).policies,
          hasId id document = false) :
    Reached tenant calls (begun tenant calls store) []
      fun _ => .pending where
  fits place := pending_program tenant (calls place)
  moved _ waiting := absurd rfl waiting
  shared :=
    ⟨keyed,
      fun place => ⟨fun id isFresh _ => fresh place id isFresh, nofun, nofun⟩,
      .inl apart⟩

theorem concat
    (reached : Reached tenant calls start turns stages)
    (different :
      ∀ place id, (calls place).fresh? = some id →
        (calls (!place)).fresh? ≠ some id)
    (place : Bool) :
    ∃ next, Reached tenant calls start (turns ++ [place]) next := by
  have meets
      (both : ∀ place, ∃ id name, stages place = .cleared id name) :
      Overlapping start turns := by
    refine ⟨turns, List.prefix_refl turns, fun other => ?_⟩
    obtain ⟨id, name, isCleared⟩ := both other
    have fits := reached.fits other
    rw [isCleared] at fits
    refine ⟨reached.moved other ?_, Writing.not_ended fits⟩
    rw [isCleared]
    nofun
  have apart (waiting : stages place = .pending) :
      Fields.Apart "name"
        (tenant.holdings (start.after turns).store).policies := by
    rcases reached.shared.apart with apart | ⟨-, name, ids, -, written⟩
    · exact apart
    · rw [written place] at waiting
      cases waiting
  obtain ⟨next, fits, step⟩ :=
    (reached.fits place).step reached.shared.keyed apart
  refine ⟨Function.update stages place next, ?_, ?_, ?_⟩
  · intro other
    rw [Pool.after_concat]
    by_cases same : other = place
    · subst same
      rw [Function.update_self, Pool.programs_turn_self]
      exact fits
    · rw [Function.update_of_ne same, Pool.programs_turn_of_ne _ same]
      exact reached.fits other
  · intro other begun
    by_cases same : other = place
    · simp [same]
    · rw [Function.update_of_ne same] at begun
      exact List.mem_append_left _ (reached.moved other begun)
  · rw [Pool.after_concat]
    refine (reached.shared.step different meets step).mono fun met => ?_
    exact (overlapping_concat start turns place).mpr (.inl met)

theorem after
    (reached : Reached tenant calls start [] stages)
    (different :
      ∀ place id, (calls place).fresh? = some id →
        (calls (!place)).fresh? ≠ some id)
    (turns : List Bool) :
    ∃ next, Reached tenant calls start turns next := by
  induction turns using List.reverseRecOn with
  | nil =>
      exact ⟨stages, reached⟩
  | append_singleton turns place inductionHypothesis =>
      obtain ⟨next, before⟩ := inductionHypothesis
      exact before.concat different place

end Reached

/-- A call that has ended shows the policy that it gave a name, when it did. -/
theorem written_iff_shows
    {stage : Stage} {call : Naming} {result : Except Failure Value}
    (fits : stage.Fits tenant call (.done result)) (id : ObjectId)
    (name : String) :
    stage = .written id name ↔
      ∃ answer, result = .ok answer ∧ Registry.Shows id name answer := by
  cases stage with
  | pending =>
      cases fits with
      | looking looking =>
          cases looking with
          | failed failed =>
              obtain ⟨failure, isDone⟩ := failed
              cases isDone
              exact iff_of_false nofun (by rintro ⟨answer, ⟨⟩, -⟩)
  | cleared _ _ =>
      cases fits
  | written ownId ownName =>
      cases fits with
      | done shown =>
          constructor
          · rintro ⟨⟩
            exact ⟨_, rfl, shown⟩
          · rintro ⟨answer, ⟨⟩, shownToo⟩
            obtain ⟨rfl, rfl⟩ := shown.unique shownToo
            rfl

theorem not_apart_of_clash
    {met : Prop} {stages : Bool → Stage} {policies : List Fields}
    (shared : Stage.Shared calls met stages policies)
    (clash : Stage.Clash stages) : ¬ Fields.Apart "name" policies := by
  obtain ⟨name, ids, differ, written⟩ := clash
  have apart (place : Bool) : ids place ≠ ids (!place) := by
    cases place with
    | false =>
        exact differ.symm
    | true =>
        exact differ
  have stored (place : Bool) :
      ∃ document ∈ policies,
        hasId (ids place) document = true ∧
          document.get? "name" = some (.text name) := by
    rcases (shared.holds place).written _ _ (written place) with
      stored | ⟨later, isWritten⟩
    · exact stored
    · rw [written (!place)] at isWritten
      have sameId := (Stage.written.inj isWritten).1
      exact absurd sameId.symm (apart place)
  intro names
  obtain ⟨first, member, has, called⟩ := stored true
  obtain ⟨second, memberToo, hasToo, calledToo⟩ := stored false
  have same :=
    names.eq_of_get?_eq member memberToo called calledToo
      (Value.sharp_text name)
  rw [hasId_iff] at has hasToo
  rw [same, hasToo, Option.some.injEq, Value.id.injEq] at has
  exact differ has.symm

/-- The next step of the call looks for policies of some name and finds one. -/
def MeetsNamesake (tenant : Tenant) (pool : Pool Bool Value) (place : Bool) :
    Prop :=
  ∃ name filter, ∃ next : Option Fields → Program Value,
    pool.programs place = .ask ⟨tenant.policies, .findOne filter⟩ next ∧
      ("name", .equals (.text name)) ∈ filter ∧
      ∃ document ∈ (tenant.holdings pool.store).policies,
        filter.admits document = true

/-- Both calls succeed and show different policies of the same name. -/
def NameTwice (pool : Pool Bool Value) : Prop :=
  ∃ name, ∃ ids : Bool → ObjectId, ∃ answers : Bool → Value,
    ids true ≠ ids false ∧
      ∀ place,
        pool.programs place = .done (.ok (answers place)) ∧
          Registry.Shows (ids place) name (answers place)

theorem refused_of_meets
    {start : Pool Bool Value} {early : List Bool} {stages : Bool → Stage}
    (reached : Reached tenant calls start early stages) {place : Bool}
    (meets : MeetsNamesake tenant (start.after early) place) :
    (start.after (early ++ [place])).programs place =
      .done (.error (.refused Registry.policyExists)) := by
  obtain ⟨name, filter, next, asks, named, document, member, admitted⟩ := meets
  rw [Pool.after_concat, Pool.programs_turn_self, asks, Program.advance_findOne]
  have fits := reached.fits place
  rw [asks] at fits
  obtain ⟨namesake, found⟩ :
      ∃ namesake,
        (tenant.holdings (start.after early).store).policies.find?
            filter.admits =
          some namesake := by
    rw [← Option.isSome_iff_exists, List.find?_isSome]
    exact ⟨document, member, admitted⟩
  rw [found]
  -- Of all steps of a call only the search for a namesake asks for a name.
  cases stage : stages place with
  | pending =>
      rw [stage] at fits
      cases fits with
      | looking looking =>
          cases looking with
          | failed failed =>
              obtain ⟨failure, isDone⟩ := failed
              cases isDone
          | looks _ taken _ =>
              exact taken namesake
      | reads _ _ =>
          simp [Filter.byId] at named
  | cleared _ _ =>
      rw [stage] at fits
      cases fits
  | written _ _ =>
      rw [stage] at fits
      cases fits

/-- Two calls that have ended leave different names when they did not overlap, and
otherwise just when they did not both give the same name; a call that meets a namesake
when it looks for one is refused. -/
theorem apart_iff
    {store : Store} (keyed : Keyed (tenant.holdings store).policies)
    (apart : Fields.Apart "name" (tenant.holdings store).policies)
    (fresh :
      ∀ place id, (calls place).fresh? = some id →
        ∀ document ∈ (tenant.holdings store).policies,
          hasId id document = false)
    (different :
      ∀ place id, (calls place).fresh? = some id →
        (calls (!place)).fresh? ≠ some id)
    (turns : List Bool)
    (ended :
      ∀ place,
        (((begun tenant calls store).after turns).programs place).Ended) :
    let start := begun tenant calls store
    let left := (tenant.holdings (start.after turns).store).policies
    (¬ Overlapping start turns → Fields.Apart "name" left) ∧
      (Fields.Apart "name" left ↔ ¬ NameTwice (start.after turns)) ∧
      ∀ early place, early ++ [place] <+: turns →
        MeetsNamesake tenant (start.after early) place →
          (start.after turns).programs place =
              .done (.error (.refused Registry.policyExists)) ∧
            Registry.policyExists.status = 409 := by
  intro start left
  have reaches := (Reached.nil keyed apart fresh).after different
  obtain ⟨stages, reached⟩ := reaches turns
  have twice : NameTwice (start.after turns) ↔ Stage.Clash stages := by
    choose results isDone using ended
    have writes (place : Bool) (id : ObjectId) (name : String) :
        stages place = .written id name ↔
          ∃ answer,
            results place = .ok answer ∧
              Registry.Shows id name answer := by
      have fits := reached.fits place
      rw [isDone place] at fits
      exact written_iff_shows fits id name
    have same (place : Bool) :
        (start.after turns).programs place = .done (results place) :=
      isDone place
    constructor
    · rintro ⟨name, ids, answers, differ, shown⟩
      refine ⟨name, ids, differ, fun place => ?_⟩
      obtain ⟨answered, shows⟩ := shown place
      rw [same] at answered
      exact (writes _ _ _).mpr ⟨_, Program.done.inj answered, shows⟩
    · rintro ⟨name, ids, differ, written⟩
      choose answers answered shown using
        fun place => (writes place _ _).mp (written place)
      refine ⟨name, ids, answers, differ, fun place => ⟨?_, shown place⟩⟩
      rw [same, answered]
  refine ⟨fun alone => ?_, ⟨fun names both => ?_, fun single => ?_⟩, ?_⟩
  · exact reached.shared.apart.resolve_right fun met => alone met.1
  · exact not_apart_of_clash reached.shared (twice.mp both) names
  · exact reached.shared.apart.resolve_right fun met => single (twice.mpr met.2)
  · rintro early place ⟨rest, rfl⟩ meets
    obtain ⟨before, reachedBefore⟩ := reaches early
    refine ⟨?_, rfl⟩
    rw [Pool.after_append]
    exact Pool.done_after (refused_of_meets reachedBefore meets) rest

end Naming

/-- Two creations of a policy of one name. -/
def twinCreations (place : Bool) : Naming :=
  .creation
    ⟨.ok ⟨1704067200000000, none⟩, .numbered (bif place then 4 else 5)⟩
    (.record (Policy.dump ⟨"write", .allow, ["*:Write"], ["*"], none⟩)) .null

/-- Both look for a policy of that name before one of them writes. -/
def crossedLooks : List Bool :=
  [true, false, true, false, true, false]

theorem twinCreations_fresh (place : Bool) (id : ObjectId)
    (isFresh : (twinCreations place).fresh? = some id) :
    ∀ document ∈ (office.holdings officeStore).policies,
      hasId id document = false := by
  cases place <;> cases isFresh <;> decide +kernel

theorem twinCreations_different (place : Bool) (id : ObjectId)
    (isFresh : (twinCreations place).fresh? = some id) :
    (twinCreations (!place)).fresh? ≠ some id := by
  cases place <;> cases isFresh <;> decide +kernel

theorem twinCreations_succeed (place : Bool) :
    ∃ answer,
      ((Naming.begun office twinCreations officeStore).after
            crossedLooks).programs place =
          .done (.ok answer) ∧
        Registry.Shows (.numbered (bif place then 4 else 5)) "write"
          answer := by
  cases place with
  | false =>
      exact ⟨_, rfl, _, rfl, rfl, rfl⟩
  | true =>
      exact ⟨_, rfl, _, rfl, rfl, rfl⟩

theorem twinCreations_checked :
    Keyed (office.holdings officeStore).policies ∧
      Fields.Apart "name" (office.holdings officeStore).policies ∧
      Naming.NameTwice
        ((Naming.begun office twinCreations officeStore).after
          crossedLooks) ∧
      ¬ Fields.Apart "name"
        (office.holdings
          ((Naming.begun office twinCreations officeStore).after
            crossedLooks).store).policies ∧
      ((Naming.begun office twinCreations officeStore).after
          [true, true, true, false]).programs false =
        .done (.error (.refused Registry.policyExists)) := by
  have keyed : Keyed (office.holdings officeStore).policies := by
    decide +kernel
  have apart :
      Fields.Apart "name" (office.holdings officeStore).policies := by
    decide +kernel
  choose answers answered using twinCreations_succeed
  have twice :
      Naming.NameTwice
        ((Naming.begun office twinCreations officeStore).after
          crossedLooks) :=
    ⟨"write", _, answers, by decide +kernel, answered⟩
  obtain ⟨-, crossed, -⟩ :=
    Naming.apart_iff keyed apart twinCreations_fresh twinCreations_different
      crossedLooks fun place => ⟨_, (answered place).1⟩
  have ended (place : Bool) :
      (((Naming.begun office twinCreations officeStore).after
        [true, true, true, false]).programs place).Ended := by
    cases place <;> exact ⟨_, rfl⟩
  obtain ⟨-, -, refused⟩ :=
    Naming.apart_iff keyed apart twinCreations_fresh twinCreations_different
      [true, true, true, false] ended
  have meets :
      Naming.MeetsNamesake office
        ((Naming.begun office twinCreations officeStore).after
          [true, true, true]) false := by
    refine
      ⟨"write", [("name", .equals (.text "write"))], _, rfl,
        List.mem_singleton.mpr rfl, ?_⟩
    decide +kernel
  exact
    ⟨keyed, apart, twice, fun names => crossed.mp names twice,
      (refused [true, true, true] false ⟨[], rfl⟩ meets).1⟩

/-- Both calls succeed, and names that were different before are so no more. -/
def Naming.Spoil (tenant : Tenant) (store : Store) (calls : Bool → Naming)
    (turns : List Bool) : Prop :=
  Keyed (tenant.holdings store).policies ∧
    Fields.Apart "name" (tenant.holdings store).policies ∧
    (∀ place, ∃ answer,
      ((begun tenant calls store).after turns).programs place =
        .done (.ok answer)) ∧
    ¬ Fields.Apart "name"
      (tenant.holdings ((begun tenant calls store).after turns).store).policies

/-- A creation that is given the identifier of a policy that is stored, and a change
that gives that policy the new name. -/
def mistaken (place : Bool) : Naming :=
  match place with
  | true =>
      .creation ⟨.ok ⟨1704067200000000, none⟩, .numbered 1⟩
        (.record (Policy.dump ⟨"write", .allow, ["*:Write"], ["*"], none⟩))
        .null
  | false =>
      .change (.ok ⟨1704067200000000, none⟩) (.id (.numbered 1))
        (.record [("name", .text "write")])

/-- Names are spoiled by calls that overlap, and by calls one after the other when an
identifier is given out twice: the look for a namesake leaves out all policies with
the identifier of the changed one. -/
theorem names_spoiled :
    Naming.Spoil office officeStore twinCreations crossedLooks ∧
      Naming.Spoil office officeStore mistaken
        [true, true, true, false, false, false] := by
  refine
    ⟨⟨by decide +kernel, by decide +kernel, ?_, by decide +kernel⟩,
      ⟨by decide +kernel, by decide +kernel, ?_, by decide +kernel⟩⟩
  · rintro (_ | _)
    · exact ⟨_, rfl⟩
    · exact ⟨_, rfl⟩
  · rintro (_ | _)
    · exact ⟨_, rfl⟩
    · exact ⟨_, rfl⟩

end AccessControl
