import AccessControl.Proofs.Revision
import Mathlib.Data.Bool.Basic
import Mathlib.Data.List.Induction

/-!
# Two changes at the same time

Two changes of one policy take turns.  Both are carried when one of them has ended
before the other one begins.  When they overlap, the one that writes last undoes the
other, since it writes all fields as it has read them: `carried_unless_overlapping`.
-/

namespace AccessControl

/-- Both changes have read the policy, and neither has ended. -/
def Meeting (phases : Bool → Phase) : Prop :=
  ∀ place, ∃ read, phases place = .holding read

/-- How far two changes can be, whether they have met, and what the policy holds. -/
inductive Course (revisions : Bool → Revision) (original : Contents)
    (met : Prop) (phases : Bool → Phase) (contents : Contents) : Prop
  | begun (first : Bool) :
      ¬ met → contents = original →
      phases (!first) = .waiting →
      phases first = .waiting ∨ phases first = .holding original →
      Course revisions original met phases contents
  | alone (first : Bool) :
      ¬ met → contents = (revisions first).apply original →
      phases first = .ended → phases (!first) = .waiting →
      Course revisions original met phases contents
  | meeting :
      met → contents = original →
      (∀ place, phases place = .holding original) →
      Course revisions original met phases contents
  | following (first : Bool) :
      ¬ met → contents = (revisions first).apply original →
      phases first = .ended →
      phases (!first) = .holding ((revisions first).apply original) →
      Course revisions original met phases contents
  | stale (first : Bool) :
      met → contents = (revisions first).apply original →
      phases first = .ended → phases (!first) = .holding original →
      Course revisions original met phases contents
  | ordered (first : Bool) :
      ¬ met →
      contents =
        (revisions (!first)).apply ((revisions first).apply original) →
      (∀ place, phases place = .ended) →
      Course revisions original met phases contents
  | overwritten (last : Bool) :
      met → contents = (revisions last).apply original →
      (∀ place, phases place = .ended) →
      Course revisions original met phases contents

namespace Course

variable {revisions : Bool → Revision} {original contents left : Contents}
  {met : Prop} {phases next : Bool → Phase}

theorem not_met_or_meeting
    (unmet : ¬ met) {place : Bool}
    (apart : phases place = .waiting ∨ phases place = .ended) :
    ¬ (met ∨ Meeting phases) := by
  rintro (already | meeting)
  · exact unmet already
  · obtain ⟨read, held⟩ := meeting place
    rw [held] at apart
    rcases apart with waiting | ended
    · cases waiting
    · cases ended

theorem phases_eq
    (first : Bool) {phase : Phase} (near : phases first = phase)
    (far : phases (!first) = phase) :
    ∀ place, phases place = phase := by
  intro place
  rcases Bool.eq_or_eq_not place first with rfl | rfl
  · exact near
  · exact far

/-- The next step is taken by the change that began. -/
theorem move_begun
    {first : Bool} (unmet : ¬ met) (away : phases (!first) = .waiting)
    (near : phases first = .waiting ∨ phases first = .holding original)
    (move : Move revisions first phases original next left) :
    Course revisions original (met ∨ Meeting next) next left := by
  have other : (!first) ≠ first := Bool.not_ne_self first
  rcases near with waiting | holding
  · obtain ⟨rfl, rfl⟩ := move.of_waiting waiting
    have awayStill :
        Function.update phases first (.holding left) (!first) = .waiting := by
      rw [Function.update_of_ne other, away]
    refine .begun first ?_ rfl awayStill (Or.inr ?_)
    · exact not_met_or_meeting unmet (Or.inl awayStill)
    · rw [Function.update_self]
  · rcases move.of_holding holding with ⟨rfl, rfl⟩ | ⟨rfl, rfl⟩
    · refine .begun first ?_ rfl away (Or.inr holding)
      exact not_met_or_meeting unmet (Or.inl away)
    · have awayStill :
          Function.update phases first .ended (!first) = .waiting := by
        rw [Function.update_of_ne other, away]
      refine .alone first ?_ rfl ?_ awayStill
      · exact not_met_or_meeting unmet (Or.inl awayStill)
      · rw [Function.update_self]

/-- A step of one change keeps the two on their course. -/
theorem move
    (course : Course revisions original met phases contents) {place : Bool}
    (move : Move revisions place phases contents next left) :
    Course revisions original (met ∨ Meeting next) next left := by
  have other (first : Bool) : first ≠ !first := (Bool.not_ne_self first).symm
  cases course with
  | begun first unmet same away near =>
      subst same
      rcases Bool.eq_or_eq_not place first with rfl | rfl
      · exact move_begun unmet away near move
      · rcases near with waiting | holding
        · apply move_begun unmet _ (Or.inl away) move
          rw [Bool.not_not, waiting]
        · obtain ⟨rfl, rfl⟩ := move.of_waiting away
          have both :
              ∀ place,
                Function.update phases (!first) (.holding left) place =
                  .holding left := by
            apply phases_eq first
            · rw [Function.update_of_ne (other first), holding]
            · rw [Function.update_self]
          exact .meeting (Or.inr fun place => ⟨left, both place⟩) rfl both
  | alone first unmet same ended away =>
      subst same
      rcases Bool.eq_or_eq_not place first with rfl | rfl
      · obtain ⟨rfl, rfl⟩ := move.of_ended ended
        refine .alone place ?_ rfl ended away
        exact not_met_or_meeting unmet (Or.inr ended)
      · obtain ⟨rfl, rfl⟩ := move.of_waiting away
        have endedStill :
            Function.update phases (!first)
                (.holding ((revisions first).apply original)) first =
              .ended := by
          rw [Function.update_of_ne (other first), ended]
        refine .following first ?_ rfl endedStill ?_
        · exact not_met_or_meeting unmet (Or.inr endedStill)
        · rw [Function.update_self]
  | meeting met same holding =>
      subst same
      rcases move.of_holding (holding place) with ⟨rfl, rfl⟩ | ⟨rfl, rfl⟩
      · exact .meeting (Or.inl met) rfl holding
      · refine .stale place (Or.inl met) rfl ?_ ?_
        · rw [Function.update_self]
        · rw [Function.update_of_ne (other place).symm, holding]
  | following first unmet same ended holding =>
      subst same
      rcases Bool.eq_or_eq_not place first with rfl | rfl
      · obtain ⟨rfl, rfl⟩ := move.of_ended ended
        refine .following place ?_ rfl ended holding
        exact not_met_or_meeting unmet (Or.inr ended)
      · rcases move.of_holding holding with ⟨rfl, rfl⟩ | ⟨rfl, rfl⟩
        · refine .following first ?_ rfl ended holding
          exact not_met_or_meeting unmet (Or.inr ended)
        · have all :
              ∀ place,
                Function.update phases (!first) .ended place = .ended := by
            apply phases_eq first
            · rw [Function.update_of_ne (other first), ended]
            · rw [Function.update_self]
          refine .ordered first ?_ rfl all
          exact not_met_or_meeting unmet (Or.inr (all first))
  | stale first met same ended holding =>
      subst same
      rcases Bool.eq_or_eq_not place first with rfl | rfl
      · obtain ⟨rfl, rfl⟩ := move.of_ended ended
        exact .stale place (Or.inl met) rfl ended holding
      · rcases move.of_holding holding with ⟨rfl, rfl⟩ | ⟨rfl, rfl⟩
        · exact .stale first (Or.inl met) rfl ended holding
        · refine .overwritten (!first) (Or.inl met) rfl ?_
          apply phases_eq first
          · rw [Function.update_of_ne (other first), ended]
          · rw [Function.update_self]
  | ordered first unmet same ended =>
      obtain ⟨rfl, rfl⟩ := move.of_ended (ended place)
      refine .ordered first ?_ same ended
      exact not_met_or_meeting unmet (Or.inr (ended place))
  | overwritten last met same ended =>
      obtain ⟨rfl, rfl⟩ := move.of_ended (ended place)
      exact .overwritten last (Or.inl met) same ended

theorem contents_of_ended
    (course : Course revisions original met phases contents)
    (ended : ∀ place, phases place = .ended) :
    (¬ met ∧
        ∃ first,
          contents =
            (revisions (!first)).apply ((revisions first).apply original)) ∨
      met ∧ ∃ last, contents = (revisions last).apply original := by
  cases course with
  | begun first _ _ away _ =>
      rw [ended] at away
      cases away
  | alone first _ _ _ away =>
      rw [ended] at away
      cases away
  | meeting _ _ holding =>
      have held := holding true
      rw [ended] at held
      cases held
  | following first _ _ _ holding =>
      rw [ended] at holding
      cases holding
  | stale first _ _ _ holding =>
      rw [ended] at holding
      cases holding
  | ordered first unmet same _ =>
      exact Or.inl ⟨unmet, first, same⟩
  | overwritten last met same _ =>
      exact Or.inr ⟨met, last, same⟩

end Course

/-! ## Turns of two changes -/

/-- At some time both calls have had a turn, and neither has ended. -/
def Overlapping (pool : Pool Bool Value) (turns : List Bool) : Prop :=
  ∃ early, early <+: turns ∧
    ∀ place, place ∈ early ∧ ¬ ((pool.after early).programs place).Ended

theorem overlapping_concat (pool : Pool Bool Value) (turns : List Bool)
    (place : Bool) :
    Overlapping pool (turns ++ [place]) ↔
      Overlapping pool turns ∨
        ∀ other, other ∈ turns ++ [place] ∧
          ¬ ((pool.after (turns ++ [place])).programs other).Ended := by
  unfold Overlapping
  simp only [List.prefix_concat_iff]
  constructor
  · rintro ⟨early, rfl | before, open_⟩
    · exact Or.inr open_
    · exact Or.inl ⟨early, before, open_⟩
  · rintro (⟨early, before, open_⟩ | open_)
    · exact ⟨early, Or.inr before, open_⟩
    · exact ⟨_, Or.inl rfl, open_⟩

namespace Pool

variable {ι α : Type} [DecidableEq ι]

theorem after_concat (pool : Pool ι α) (turns : List ι) (place : ι) :
    pool.after (turns ++ [place]) = (pool.after turns).turn place := by
  exact pool.after_append turns [place]

theorem failed_turn
    {pool : Pool ι α} {other : ι} (failed : (pool.programs other).Failed)
    (place : ι) :
    ((pool.turn place).programs other).Failed := by
  obtain ⟨failure, isDone⟩ := failed
  exact ⟨failure, done_after isDone [place]⟩

end Pool

/-- Changes that have not had a turn yet. -/
def Revision.begun {ι : Type} (tenant : Tenant) (revisions : ι → Revision)
    (store : Store) : Pool ι Value :=
  ⟨fun place => (revisions place).program tenant, store⟩

/-- Where the two changes are after these turns. -/
structure Reached (tenant : Tenant) (id : ObjectId)
    (revisions : Bool → Revision) (original : Contents)
    (begun : Pool Bool Value) (turns : List Bool) (phases : Bool → Phase)
    (contents : Contents) : Prop where
  underWay :
    UnderWay tenant id revisions original phases contents (begun.after turns)
  waiting_iff : ∀ place, phases place = .waiting ↔ place ∉ turns
  course :
    Course revisions original (Overlapping begun turns) phases contents

namespace Reached

variable {tenant : Tenant} {id : ObjectId} {revisions : Bool → Revision}
  {original contents : Contents} {phases : Bool → Phase}
  {begun : Pool Bool Value} {turns : List Bool}

theorem overlapping_concat_iff
    (names : ∀ place, (revisions place).Names id) {place : Bool}
    {next : Bool → Phase} {left : Contents}
    (underWay :
      UnderWay tenant id revisions original next left
        (begun.after (turns ++ [place])))
    (waiting_iff : ∀ other, next other = .waiting ↔ other ∉ turns ++ [place]) :
    Overlapping begun (turns ++ [place]) ↔
      Overlapping begun turns ∨ Meeting next := by
  rw [overlapping_concat]
  refine or_congr_right (forall_congr' fun other => ?_)
  have begunIff : other ∈ turns ++ [place] ↔ next other ≠ .waiting := by
    rw [Ne, waiting_iff, not_not]
  rw [underWay.ended_iff names, begunIff]
  cases next other <;> simp

theorem concat
    (reached :
      Reached tenant id revisions original begun turns phases contents)
    (names : ∀ place, (revisions place).Names id) (place : Bool) :
    ((begun.after (turns ++ [place])).programs place).Failed ∨
      ∃ next left,
        Reached tenant id revisions original begun (turns ++ [place]) next
          left := by
  rw [Pool.after_concat]
  rcases reached.underWay.turn names place with failed | moved
  · exact Or.inl failed
  · right
    obtain ⟨next, left, move, underWay⟩ := moved
    rw [← Pool.after_concat] at underWay
    have waiting_iff :
        ∀ other, next other = .waiting ↔ other ∉ turns ++ [place] := by
      intro other
      rw [move.waiting_iff, reached.waiting_iff]
      simp
    refine ⟨next, left, underWay, waiting_iff, ?_⟩
    rw [propext (overlapping_concat_iff names underWay waiting_iff)]
    exact reached.course.move move

theorem nil
    {store : Store} (keyed : Keyed (tenant.holdings store).policies)
    {current : Fields} (found : tenant.stored? store id = some current)
    (finite : current.FiniteCondition) :
    Reached tenant id revisions current.contents
      (Revision.begun tenant revisions store) [] (fun _ => .waiting)
      current.contents := by
  have apart : ¬ Overlapping (Revision.begun tenant revisions store) [] := by
    rintro ⟨early, before, begun⟩
    rw [List.prefix_nil.mp before] at begun
    exact List.not_mem_nil (begun true).1
  refine ⟨⟨fun _ => rfl, keyed, fun _ _ _ => rfl, current, found, rfl, finite⟩,
    ?_, .begun true apart rfl rfl (Or.inl rfl)⟩
  intro place
  simp

/-- Unless one of them fails, the two changes stay on their course. -/
theorem after
    (reached :
      Reached tenant id revisions original begun [] phases contents)
    (names : ∀ place, (revisions place).Names id) (turns : List Bool)
    (unfailed :
      ∀ place, ¬ ((begun.after turns).programs place).Failed) :
    ∃ next left,
      Reached tenant id revisions original begun turns next left := by
  induction turns using List.reverseRecOn with
  | nil =>
      exact ⟨phases, contents, reached⟩
  | append_singleton turns place inductionHypothesis =>
      have unfailedBefore :
          ∀ other, ¬ ((begun.after turns).programs other).Failed := by
        intro other failed
        apply unfailed other
        rw [Pool.after_concat]
        exact Pool.failed_turn failed place
      obtain ⟨next, left, before⟩ := inductionHypothesis unfailedBefore
      rcases before.concat names place with failed | now
      · exact absurd failed (unfailed place)
      · exact now

end Reached

namespace Revision

/-- Each field that the change names has the value that the change gives it. -/
def CarriedTo (revision : Revision) (before after : Contents) : Prop :=
  ∀ name ∈ Policy.fieldNames, revision.given.get? name ≠ none →
    after name = revision.apply before name

/-- Each field that the change names has the value that it had before. -/
def LostTo (revision : Revision) (before after : Contents) : Prop :=
  ∀ name ∈ Policy.fieldNames, revision.given.get? name ≠ none →
    after name = before name

/-- No field of a policy is named by both changes. -/
def Disjoint (revisions : Bool → Revision) : Prop :=
  ∀ place, ∀ name ∈ Policy.fieldNames,
    (revisions place).given.get? name ≠ none →
      (revisions (!place)).given.get? name = none

theorem disjoint_of_names
    {revisions : Bool → Revision}
    (apart :
      ∀ name ∈ (revisions true).given.names,
        name ∉ (revisions false).given.names) :
    Disjoint revisions := by
  intro place name _ named
  have member : name ∈ (revisions place).given.names := by
    by_contra absent
    exact named (Fields.get?_eq_none_iff.mpr absent)
  rw [Fields.get?_eq_none_iff]
  cases place with
  | false =>
      intro other
      exact apart name other member
  | true =>
      exact apart name member

theorem apply_eq_self
    (revision : Revision) (contents : Contents) {name : String}
    (counts : name ∈ Policy.fieldNames)
    (unnamed : revision.given.get? name = none) :
    revision.apply contents name = contents name := by
  unfold apply Contents.updated Contents.revised
  rw [if_pos counts, unnamed]
  simp

theorem apply_congr
    (revision : Revision) {first second : Contents} {name : String}
    (counts : name ∈ Policy.fieldNames) (same : first name = second name) :
    revision.apply first name = revision.apply second name := by
  unfold apply Contents.updated
  rw [if_pos counts, if_pos counts, same]

theorem carriedTo_both
    {revisions : Bool → Revision} (disjoint : Disjoint revisions)
    (first : Bool) (contents : Contents) :
    ∀ place,
      (revisions place).CarriedTo contents
        ((revisions (!first)).apply ((revisions first).apply contents)) := by
  intro place name counts named
  have unnamed := disjoint place name counts named
  rcases Bool.eq_or_eq_not place first with rfl | rfl
  · exact apply_eq_self _ _ counts unnamed
  · rw [Bool.not_not] at unnamed
    apply apply_congr _ counts
    exact apply_eq_self _ _ counts unnamed

end Revision

/-- Both changes succeed, and of what one of them names something does not come to the
policy. -/
def Revision.Lost (tenant : Tenant) (store : Store) (id : ObjectId)
    (revisions : Bool → Revision) (turns : List Bool) (place : Bool) : Prop :=
  Disjoint revisions ∧
    (∀ other, ∃ answer,
      ((begun tenant revisions store).after turns).programs other =
        .done (.ok answer)) ∧
    ∃ current document,
      tenant.stored? store id = some current ∧
        (∃ policy, Policy.ofFields current = .ok policy) ∧
        tenant.stored? ((begun tenant revisions store).after turns).store id =
          some document ∧
        ¬ (revisions place).CarriedTo current.contents document.contents

/-- Two changes of one policy that name different fields, and that both succeed, are
both carried when they do not overlap.  Otherwise only the one that writes last is
carried: every field that the other one names is as it was before. -/
theorem Revision.carried_unless_overlapping
    {tenant : Tenant} {id : ObjectId} {store : Store}
    (keyed : Keyed (tenant.holdings store).policies)
    {current : Fields} (found : tenant.stored? store id = some current)
    (finite : current.FiniteCondition)
    {revisions : Bool → Revision}
    (names : ∀ place, (revisions place).Names id)
    (disjoint : Disjoint revisions) (turns : List Bool)
    {answers : Bool → Value}
    (succeeded :
      ∀ place,
        ((begun tenant revisions store).after turns).programs place =
          .done (.ok (answers place))) :
    ∃ document,
      tenant.stored? ((begun tenant revisions store).after turns).store id =
          some document ∧
        (¬ Overlapping (begun tenant revisions store) turns →
          ∀ place,
            (revisions place).CarriedTo current.contents
              document.contents) ∧
        (Overlapping (begun tenant revisions store) turns →
          ∃ last,
            (revisions last).CarriedTo current.contents document.contents ∧
              (revisions (!last)).LostTo current.contents
                document.contents) := by
  have unfailed :
      ∀ place,
        ¬ (((begun tenant revisions store).after turns).programs
          place).Failed := by
    rintro place ⟨failure, failed⟩
    rw [succeeded] at failed
    cases failed
  obtain ⟨phases, contents, reached⟩ :=
    (Reached.nil keyed found finite).after names turns unfailed
  obtain ⟨document, foundNow, rfl, -⟩ := reached.underWay.stored
  have ended : ∀ place, phases place = .ended := by
    intro place
    rw [← reached.underWay.ended_iff names, succeeded]
    exact ⟨_, rfl⟩
  refine ⟨document, foundNow, ?_⟩
  rcases reached.course.contents_of_ended ended with
    ⟨apart, first, left⟩ | ⟨overlapping, last, left⟩
  · refine ⟨fun _ => ?_, fun overlapping => absurd overlapping apart⟩
    rw [left]
    exact carriedTo_both disjoint first current.contents
  · refine ⟨fun apart => absurd overlapping apart, fun _ => ⟨last, ?_⟩⟩
    rw [left]
    constructor
    · intro name _ _
      rfl
    · intro name counts named
      apply apply_eq_self _ _ counts
      simpa using disjoint (!last) name counts named

/-- The policy of the office gets a new name, and at the same time another effect. -/
def renamedAndDenied (place : Bool) : Revision where
  now := .ok ⟨1704067200000000, none⟩
  policy := .id (.numbered 1)
  given :=
    match place with
    | true => [("name", .text "view")]
    | false => [("effect", .text "Deny")]

/-- The change of the effect reads the policy before it is renamed, and writes it
afterwards. -/
def crossedTurns : List Bool :=
  [true, false, true, true, false]

theorem renamedAndDenied_names (place : Bool) :
    (renamedAndDenied place).Names (.numbered 1) := by
  cases place with
  | false =>
      exact ⟨rfl, by decide, by rintro entries ⟨⟩⟩
  | true =>
      exact ⟨rfl, by decide, by rintro entries ⟨⟩⟩

theorem renamedAndDenied_disjoint : Revision.Disjoint renamedAndDenied :=
  Revision.disjoint_of_names (by decide)

theorem crossedTurns_succeed (place : Bool) :
    ∃ answer,
      ((Revision.begun office renamedAndDenied officeStore).after
          crossedTurns).programs place =
        .done (.ok answer) := by
  cases place with
  | false =>
      exact ⟨_, rfl⟩
  | true =>
      exact ⟨_, rfl⟩

theorem crossedTurns_overlap :
    Overlapping (Revision.begun office renamedAndDenied officeStore)
      crossedTurns := by
  refine ⟨[true, false], ⟨[true, true, false], rfl⟩, ?_⟩
  intro place
  cases place with
  | false =>
      refine ⟨by decide, ?_⟩
      rintro ⟨result, isDone⟩
      cases isDone
  | true =>
      refine ⟨by decide, ?_⟩
      rintro ⟨result, isDone⟩
      cases isDone

/-- The policy gets another effect, and a condition that expects an infinite number. -/
def boundedAndDenied (place : Bool) : Revision where
  now := .ok ⟨1704067200000000, none⟩
  policy := .id (.numbered 1)
  given :=
    match place with
    | true =>
        [("condition",
          .record
            [("NumberLessThan",
              .record [("size", .number (.double ⟨0x7ff0000000000000⟩))])])]
    | false => [("effect", .text "Deny")]

theorem boundedAndDenied_disjoint : Revision.Disjoint boundedAndDenied :=
  Revision.disjoint_of_names (by decide)

/-- A new name is lost to a change of the effect that overlaps with it; an infinite
number is lost when the changes are made one after the other, too. -/
theorem changes_lost :
    Revision.Lost office officeStore (.numbered 1) renamedAndDenied
        crossedTurns true ∧
      Revision.Lost office officeStore (.numbered 1) boundedAndDenied
        [false, false, true, true] true := by
  constructor
  · refine
      ⟨renamedAndDenied_disjoint, crossedTurns_succeed, officePolicy, _, rfl,
        ⟨_, rfl⟩, rfl, ?_⟩
    intro carried
    have renamed := carried "name" (by decide) (by rintro ⟨⟩)
    have kept :
        some (Value.text "read") = some (Value.text "view") := renamed
    simp at kept
  · refine
      ⟨boundedAndDenied_disjoint, ?_, officePolicy, _, rfl, ⟨_, rfl⟩, rfl, ?_⟩
    · rintro (_ | _)
      · exact ⟨_, rfl⟩
      · exact ⟨_, rfl⟩
    · intro carried
      have bounded := carried "condition" (by decide) (by rintro ⟨⟩)
      have kept :
          some
              (Value.record
                [("NumberLessThan", .record [("size", .null)])]) =
            some
              (.record
                [("NumberLessThan",
                  .record
                    [("size", .number (.double ⟨0x7ff0000000000000⟩))])]) :=
        bounded
      simp at kept

theorem crossedTurns_undo :
    Keyed (office.holdings officeStore).policies ∧
      office.stored? officeStore (.numbered 1) = some officePolicy ∧
      Overlapping (Revision.begun office renamedAndDenied officeStore)
        crossedTurns ∧
      ∃ document last,
        office.stored?
            ((Revision.begun office renamedAndDenied officeStore).after
              crossedTurns).store (.numbered 1) =
          some document ∧
        (renamedAndDenied last).CarriedTo officePolicy.contents
          document.contents ∧
        (renamedAndDenied (!last)).LostTo officePolicy.contents
          document.contents := by
  have keyed : Keyed (office.holdings officeStore).policies := by
    decide +kernel
  have found :
      office.stored? officeStore (.numbered 1) = some officePolicy := rfl
  have finite : officePolicy.FiniteCondition := by
    rintro entries ⟨⟩
  choose answers succeeded using crossedTurns_succeed
  obtain ⟨document, foundNow, -, undone⟩ :=
    Revision.carried_unless_overlapping keyed found finite renamedAndDenied_names
      renamedAndDenied_disjoint crossedTurns succeeded
  obtain ⟨last, carried, lost⟩ := undone crossedTurns_overlap
  exact
    ⟨keyed, found, crossedTurns_overlap, document, last, foundNow, carried,
      lost⟩

end AccessControl
