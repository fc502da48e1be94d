import AccessControl.Proofs.Interleaving
import AccessControl.Proofs.Operation

/-!
# Tenants do not see each other

The collections of two tenants have different names unless their slugs are the
same, and every call keeps to the collections of its tenant.  So the calls of a
tenant give and leave the same whatever stands in the other collections, and
whatever the calls of other tenants do in between: `Tenant.isolated`.
-/

namespace AccessControl

/-- A mark that stands in neither of the two ends splits a list in only one way. -/
theorem append_cons_inj_of_notMem
    {α : Type} {mark : α} {front back first second : List α}
    (notFirst : mark ∉ first) (notSecond : mark ∉ second)
    (equal : front ++ mark :: first = back ++ mark :: second) :
    front = back ∧ first = second := by
  have ends
      {front back first second : List α} {middle : List α}
      (notFirst : mark ∉ first)
      (split : back = front ++ middle)
      (rest : mark :: first = middle ++ mark :: second) :
      front = back ∧ first = second := by
    cases middle with
    | nil =>
        rw [List.append_nil] at split
        rw [List.nil_append, List.cons.injEq] at rest
        exact ⟨split.symm, rest.2⟩
    | cons head tail =>
        rw [List.cons_append, List.cons.injEq] at rest
        exact absurd (by simp [rest.2]) notFirst
  rcases List.append_eq_append_iff.mp equal with
    ⟨middle, split, rest⟩ | ⟨middle, split, rest⟩
  · exact ends notFirst split rest
  · obtain ⟨sameFront, same⟩ := ends notSecond split rest
    exact ⟨sameFront.symm, same.symm⟩

namespace Tenant

/-- Two collections whose names have no underscore are told apart by the beginning and
by the name. -/
theorem collection_eq_iff
    {tenant other : Tenant} {first second : String}
    (notFirst : '_' ∉ first.toList) (notSecond : '_' ∉ second.toList) :
    tenant.collection first = other.collection second ↔
      tenant.stem = other.stem ∧ first = second := by
  constructor
  · intro equal
    have spelled := congrArg String.toList equal
    simp only [collection, toString, String.toList_append] at spelled
    rw [List.append_assoc, List.append_assoc] at spelled
    have parts := append_cons_inj_of_notMem notFirst notSecond spelled
    exact
      ⟨String.toList_injective parts.1, String.toList_injective parts.2⟩
  · rintro ⟨same, rfl⟩
    unfold collection
    rw [same]

theorem Keeps.exists_collection
    {tenant : Tenant} {name : String} (kept : tenant.Keeps name) :
    ∃ kind, '_' ∉ kind.toList ∧ name = tenant.collection kind := by
  rcases kept with rfl | rfl | rfl
  · exact ⟨"policies", by decide, rfl⟩
  · exact ⟨"users", by decide, rfl⟩
  · exact ⟨"groups", by decide, rfl⟩

theorem stem_eq_of_keeps
    {tenant other : Tenant} {name : String}
    (kept : tenant.Keeps name) (keptToo : other.Keeps name) :
    tenant.stem = other.stem := by
  obtain ⟨first, notFirst, rfl⟩ := kept.exists_collection
  obtain ⟨second, notSecond, equal⟩ := keptToo.exists_collection
  exact ((collection_eq_iff notFirst notSecond).mp equal).1

theorem keeps_iff_of_stem_eq
    {tenant other : Tenant} (same : tenant.stem = other.stem)
    (name : String) :
    tenant.Keeps name ↔ other.Keeps name := by
  unfold Keeps policies principals groups collection
  rw [same]

theorem ne_underscore_of_isSlugCharacter
    {c : Char} (among : isSlugCharacter c = true) : c ≠ '_' := by
  rintro rfl
  exact absurd among (by decide)

/-- No two slugs become the same by putting underscores for hyphens. -/
theorem underscored_injective
    {first second : List Char}
    (isFirst : first.all isSlugCharacter = true)
    (isSecond : second.all isSlugCharacter = true)
    (equal : underscored first = underscored second) :
    first = second := by
  induction first generalizing second with
  | nil =>
      cases second with
      | nil =>
          rfl
      | cons d others =>
          cases equal
  | cons c rest inductionHypothesis =>
      cases second with
      | nil =>
          cases equal
      | cons d others =>
          rw [List.all_cons, Bool.and_eq_true] at isFirst isSecond
          have plain := ne_underscore_of_isSlugCharacter isFirst.1
          have plainToo := ne_underscore_of_isSlugCharacter isSecond.1
          unfold underscored at equal
          rw [List.map_cons, List.map_cons, List.cons.injEq] at equal
          have tails := inductionHypothesis isFirst.2 isSecond.2 equal.2
          -- A hyphen on one side only would meet an underscore on the other one,
          -- and no slug has one.
          have heads : c = d := by
            by_cases hyphen : c = '-'
            · by_cases hyphenToo : d = '-'
              · rw [hyphen, hyphenToo]
              · rw [if_pos hyphen, if_neg hyphenToo] at equal
                exact absurd equal.1.symm plainToo
            · by_cases hyphenToo : d = '-'
              · rw [if_neg hyphen, if_pos hyphenToo] at equal
                exact absurd equal.1 plain
              · rw [if_neg hyphen, if_neg hyphenToo] at equal
                exact equal.1
          rw [heads, tails]

theorem all_of_isSlug
    {slug : List Char} (isSlug : isSlug slug = true) :
    slug.all isSlugCharacter = true := by
  cases slug with
  | nil =>
      cases isSlug
  | cons first rest =>
      exact (Bool.and_eq_true_iff.mp isSlug).2

theorem ofUnit_eq_ok_iff {unit : String} {tenant : Tenant} :
    ofUnit unit = .ok tenant ↔
      isSlug (slug unit.toList) = true ∧
        tenant = ⟨unit, String.ofList (underscored (slug unit.toList))⟩ := by
  unfold ofUnit
  by_cases accepted : isSlug (slug unit.toList) = true
  · rw [if_pos accepted, Except.ok.injEq, and_iff_right accepted]
    exact eq_comm
  · rw [if_neg accepted]
    constructor
    · intro found
      cases found
    · rintro ⟨isSlug, -⟩
      exact absurd isSlug accepted

/-- Two units have the same collections just when they have the same slug. -/
theorem stem_eq_iff
    {unit other : String} {tenant otherTenant : Tenant}
    (accepted : ofUnit unit = .ok tenant)
    (acceptedToo : ofUnit other = .ok otherTenant) :
    tenant.stem = otherTenant.stem ↔
      slug unit.toList = slug other.toList := by
  obtain ⟨isSlug, rfl⟩ := ofUnit_eq_ok_iff.mp accepted
  obtain ⟨isSlugToo, rfl⟩ := ofUnit_eq_ok_iff.mp acceptedToo
  constructor
  · intro same
    exact
      underscored_injective (all_of_isSlug isSlug) (all_of_isSlug isSlugToo)
        (String.ofList_injective same)
  · intro same
    simp only [same]

end Tenant

namespace Registry

variable (tenant : Tenant)

/-- The program keeps to the tenant's collections. -/
abbrev Stays {α : Type} (program : Program α) : Prop :=
  program.Within tenant.Keeps

theorem stays_of_reads
    {α : Type} {program : Program α} (reads : program.Uses tenant.Reads) :
    Stays tenant program :=
  reads.mono fun _ read => read.2

theorem stays_create (stamp : Stamp) (data createdBy : Value) :
    Stays tenant (create tenant stamp data createdBy) := by
  have done (deed : Deed) :
      Stays tenant (Program.query tenant.policies deed) :=
    .query tenant.keeps_policies
  refine (Program.Uses.ofExcept _).bind fun policy => ?_
  refine (done _).bind fun namesake => ?_
  cases namesake with
  | some document =>
      exact .refuse _
  | none =>
      refine (Program.Uses.ofExcept _).bind fun now => ?_
      refine (done _).bind fun inserted => ?_
      exact (Program.Uses.log _).bind fun announced => .pure _

/-- The last part of a change, when nothing speaks against the new name. -/
theorem stays_overwrite
    (now : Except Clock.Fault Timestamp) (id : ObjectId) (merged : Policy)
    {reply :
      (time : Timestamp) →
        (Deed.findOneAndSet (Filter.byId id)
          (writtenFields merged time)).Reply →
          Program Value}
    (replies :
      ∀ time document, reply time (some document) = pure (answered document))
    (misses : ∀ time, reply time none = Program.refuse policyNotFound) :
    Stays tenant
      (timed now >>= fun time =>
        Program.query tenant.policies
          (.findOneAndSet (Filter.byId id) (writtenFields merged time)) >>=
            reply time) := by
  refine (Program.Uses.ofExcept _).bind fun time => ?_
  have overwritten :
      Stays tenant
        (Program.query tenant.policies
          (.findOneAndSet (Filter.byId id) (writtenFields merged time))) :=
    .query tenant.keeps_policies
  refine overwritten.bind fun found => ?_
  cases found with
  | none =>
      rw [misses]
      exact .refuse _
  | some document =>
      rw [replies]
      exact .pure _

theorem stays_update
    (now : Except Clock.Fault Timestamp) (policy changes : Value) :
    Stays tenant (update tenant now policy changes) := by
  refine (uses_requireId _ _).bind fun id => ?_
  refine (stays_of_reads tenant (reads_stored tenant id)).bind fun current => ?_
  cases changes with
  | record given =>
      refine (Program.Uses.ofExcept _).bind fun merged => ?_
      simp only
      split
      · have asked : Stays tenant (hasNamesake tenant id merged.name) := by
          have searched :
              Stays tenant
                (Program.query tenant.policies
                  (.findOne
                    [("name", .equals (.text merged.name)),
                     ("_id", .differs (.id id))])) :=
            .query tenant.keeps_policies
          exact searched.bind fun found => .pure _
        refine asked.bind fun taken => ?_
        cases taken with
        | true =>
            exact .refuse _
        | false =>
            exact
              stays_overwrite tenant now id merged (fun _ _ => rfl)
                fun _ => rfl
      · exact
          stays_overwrite tenant now id merged (fun _ _ => rfl) fun _ => rfl
  | _ =>
      exact .fail _

theorem stays_delete (policy : Value) :
    Stays tenant (delete tenant policy) := by
  have released
      {collection : String} (kept : tenant.Keeps collection) (id : ObjectId) :
      Stays tenant (release collection id) :=
    .query kept
  refine (uses_requireId _ _).bind fun id => ?_
  have dropped :
      Stays tenant
        (Program.query tenant.policies (.deleteOne (Filter.byId id)) :
          Program Bool) :=
    .query tenant.keeps_policies
  refine dropped.bind fun deleted => ?_
  cases deleted with
  | false =>
      exact .refuse _
  | true =>
      refine (released tenant.keeps_principals id).bind fun _ => ?_
      refine (released tenant.keeps_groups id).bind fun _ => ?_
      exact (Program.Uses.log _).bind fun announced => .pure _

theorem stays_changeList
    (principal : ObjectId) (edit : ArrayEdit) (text : String) :
    Stays tenant (changeList tenant principal edit text) := by
  have edited :
      Stays tenant
        (Program.query tenant.principals
          (.updateOne (Filter.byId principal) edit) : Program Bool) :=
    .query tenant.keeps_principals
  refine edited.bind fun found => ?_
  cases found with
  | false =>
      exact .refuse _
  | true =>
      exact .pure _

theorem stays_attach (principal policy : Value) :
    Stays tenant (attach tenant principal policy) :=
  (uses_requireId _ _).bind fun _ =>
    (uses_requireId _ _).bind fun policyId =>
      (stays_of_reads tenant (reads_stored tenant policyId)).bind fun _ =>
        stays_changeList tenant _ _ _

theorem stays_detach (principal policy : Value) :
    Stays tenant (detach tenant principal policy) :=
  (uses_requireId _ _).bind fun _ =>
    (uses_requireId _ _).bind fun _ => stays_changeList tenant _ _ _

end Registry

open Registry in
/-- Every call keeps to the three collections of its tenant. -/
theorem Operation.stays_program (tenant : Tenant) (operation : Operation) :
    Stays tenant (operation.program tenant) := by
  cases operation with
  | create stamp data createdBy =>
      exact (stays_create tenant stamp data createdBy).map _
  | get policy =>
      exact (stays_of_reads tenant (reads_get tenant policy)).map _
  | list =>
      exact (stays_of_reads tenant (reads_list tenant)).map _
  | update now policy changes =>
      exact (stays_update tenant now policy changes).map _
  | delete policy =>
      exact (stays_delete tenant policy).map _
  | attach principal policy =>
      exact (stays_attach tenant principal policy).map _
  | detach principal policy =>
      exact (stays_detach tenant principal policy).map _
  | load principal =>
      exact (stays_of_reads tenant (reads_effective tenant principal)).map _

/-! ## Calls of several tenants -/

/-- A call for a unit that is a tenant's. -/
structure Errand where
  unit : String
  tenant : Tenant
  accepted : Tenant.ofUnit unit = .ok tenant
  operation : Operation

namespace Errand

/-- The call is for the tenant of this unit, however the unit is spelled. -/
def isFor (unit : String) (errand : Errand) : Bool :=
  Tenant.slug errand.unit.toList = Tenant.slug unit.toList

end Errand

namespace Pool

variable {ι : Type}

/-- The calls before any of them has had a turn. -/
def ofErrands (errands : ι → Errand) (store : Store) :
    Pool ι Operation.Answer :=
  ⟨fun place => (errands place).operation.program (errands place).tenant,
    store⟩

theorem confined_ofErrands (errands : ι → Errand) (store : Store) :
    (ofErrands errands store).Confined
      fun place => (errands place).tenant.Keeps :=
  fun place => (errands place).operation.stays_program (errands place).tenant

end Pool

namespace Tenant

variable {ι : Type} [DecidableEq ι] {unit : String} {tenant : Tenant}

/-- With whatever other tenants do in between, the calls for a unit are as far, with
the same results, as they are alone over a store that has the same documents in the
unit's collections, and leave the same documents there. -/
theorem alike_after
    (accepted : ofUnit unit = .ok tenant) (errands : ι → Errand)
    {first second : Store} (agree : first.AgreeOn tenant.Keeps second)
    (turns : List ι) :
    Pool.Alike (fun place => (errands place).isFor unit) tenant.Keeps
      ((Pool.ofErrands errands first).after turns)
      ((Pool.ofErrands errands second).after
        (turns.filter fun place => (errands place).isFor unit)) := by
  have begun :
      Pool.Alike (fun place => (errands place).isFor unit) tenant.Keeps
        (Pool.ofErrands errands first) (Pool.ofErrands errands second) :=
    ⟨fun _ _ => rfl, agree⟩
  refine begun.after (Pool.confined_ofErrands errands first) ?_ ?_ turns
  · intro place mine name kept
    have same :=
      (stem_eq_iff (errands place).accepted accepted).mpr
        (of_decide_eq_true mine)
    exact (keeps_iff_of_stem_eq same name).mp kept
  · intro place foreign name kept keptToo
    have same := stem_eq_of_keeps kept keptToo
    exact foreign
      (decide_eq_true ((stem_eq_iff (errands place).accepted accepted).mp same))

theorem holdings_of_agreeOn
    {first second : Store} (agree : first.AgreeOn tenant.Keeps second) :
    tenant.holdings first = tenant.holdings second := by
  unfold holdings
  rw [agree _ tenant.keeps_policies, agree _ tenant.keeps_principals,
    agree _ tenant.keeps_groups]

/-- Over all stores that have the same documents in a unit's collections, the calls
for the unit get equally far and end with the same results, and so they do without
the calls of other tenants in between.  What they leave there is the same, too, and
none of their turns changes any other collection. -/
theorem isolated
    (accepted : ofUnit unit = .ok tenant) (errands : ι → Errand)
    {first second : Store} (agree : first.AgreeOn tenant.Keeps second)
    (turns : List ι) :
    let own (place : ι) := (errands place).isFor unit
    let run (store : Store) (taken : List ι) :=
      (Pool.ofErrands errands store).after taken
    (∀ place, own place = true →
        (run first turns).programs place =
            (run second turns).programs place ∧
          (run first turns).programs place =
            (run first (turns.filter own)).programs place) ∧
      tenant.holdings (run first turns).store =
        tenant.holdings (run second turns).store ∧
      tenant.holdings (run first turns).store =
        tenant.holdings (run first (turns.filter own)).store ∧
      ∀ place, own place = true → ∀ name, ¬ tenant.Keeps name →
        ((run first turns).turn place).store.documents name =
          (run first turns).store.documents name := by
  intro own run
  have firstAlone :
      Pool.Alike own tenant.Keeps (run first turns)
        (run first (turns.filter own)) :=
    alike_after accepted errands (fun _ _ => rfl) turns
  have firstSecond :
      Pool.Alike own tenant.Keeps (run first turns)
        (run second (turns.filter own)) :=
    alike_after accepted errands agree turns
  have secondAlone :
      Pool.Alike own tenant.Keeps (run second turns)
        (run second (turns.filter own)) :=
    alike_after accepted errands (fun _ _ => rfl) turns
  refine ⟨?_, ?_, ?_, ?_⟩
  · intro place mine
    constructor
    · rw [firstSecond.programs place mine, secondAlone.programs place mine]
    · exact firstAlone.programs place mine
  · rw [holdings_of_agreeOn firstSecond.stores,
      holdings_of_agreeOn secondAlone.stores]
  · exact holdings_of_agreeOn firstAlone.stores
  · intro place mine name foreign
    have confined := (Pool.confined_ofErrands errands first).after turns place
    have same :=
      (stem_eq_iff (errands place).accepted accepted).mpr
        (of_decide_eq_true mine)
    have outside : ¬ (errands place).tenant.Keeps name :=
      fun kept => foreign ((keeps_iff_of_stem_eq same name).mp kept)
    exact Program.Within.documents_effect confined _ outside

end Tenant

def twinPolicy (name : String) : Value :=
  .record (Policy.dump ⟨name, .allow, ["*"], ["*"], none⟩)

def twin : Tenant := ⟨"ac-me", "ac_me"⟩

/-- The first unit spells its name in two ways; the other one's name goes on after
it. -/
def twinErrands : Fin 3 → Errand
  | 0 =>
      ⟨"ac-me", twin, by rfl,
        .create ⟨.ok ⟨0, none⟩, .numbered 1⟩ (twinPolicy "first") .null⟩
  | 1 =>
      ⟨" AC-Me ", ⟨" AC-Me ", "ac_me"⟩, by rfl, .get (.id (.numbered 1))⟩
  | 2 =>
      ⟨"ac-me-users", ⟨"ac-me-users", "ac_me_users"⟩, by rfl,
        .create ⟨.ok ⟨0, none⟩, .numbered 2⟩ (twinPolicy "second") .null⟩

/-- Documents of the other unit only. -/
def twinStore : Store :=
  Store.empty.write "ac_me_users_policies" [[("_id", .id (.numbered 3))]]

/-- The first unit stores a policy and reads it, and the other unit takes turns in
between. -/
def twinTurns : List (Fin 3) := [2, 0, 2, 0, 1, 2, 0]

theorem agreeOn_twinStore :
    Store.empty.AgreeOn twin.Keeps twinStore := by
  intro name kept
  have different : name ≠ "ac_me_users_policies" := by
    rcases kept with rfl | rfl | rfl <;> decide +kernel
  exact (Store.documents_write_of_ne Store.empty different _).symm

theorem twins_isolated :
    Tenant.ofUnit "ac-me" = .ok twin ∧
      Store.empty.AgreeOn twin.Keeps twinStore ∧
      (∃ policy,
        ((Pool.ofErrands twinErrands Store.empty).after
            twinTurns).programs 1 =
          .done (.ok (.value policy))) ∧
      ((Pool.ofErrands twinErrands Store.empty).after
          twinTurns).programs 1 =
        ((Pool.ofErrands twinErrands twinStore).after
          twinTurns).programs 1 ∧
      twin.holdings
          ((Pool.ofErrands twinErrands Store.empty).after twinTurns).store =
        twin.holdings
          ((Pool.ofErrands twinErrands Store.empty).after
            [0, 0, 1, 0]).store ∧
      ((Pool.ofErrands twinErrands Store.empty).after
          (twinTurns ++ [0])).store.documents "ac_me_users_policies" =
        ((Pool.ofErrands twinErrands Store.empty).after
          twinTurns).store.documents "ac_me_users_policies" := by
  have accepted : Tenant.ofUnit "ac-me" = .ok twin := by
    rfl
  have outside : ¬ twin.Keeps "ac_me_users_policies" := by
    rintro (equal | equal | equal) <;> exact absurd equal (by decide +kernel)
  obtain ⟨same, -, alone, others⟩ :=
    Tenant.isolated accepted twinErrands agreeOn_twinStore twinTurns
  exact
    ⟨accepted, agreeOn_twinStore, ⟨_, rfl⟩, (same 1 (by decide +kernel)).1,
      alone, others 0 (by decide +kernel) _ outside⟩

end AccessControl
