import AccessControl.Proofs.Precedence
import Mathlib.Data.List.Basic

/-!
# Widening a policy

A policy gets wider by one more action, by a wildcard in the place of a word, by one
more resource, or by fewer predicates in its condition.  Because the last policy that
takes part decides, a wider policy can become the deciding one anywhere in a list;
still it moves the answers in one direction only.  When it allows, nothing that was
allowed becomes forbidden, and when it denies, nothing that was forbidden becomes
allowed: `answers_of_widens`.

Each kind of change is looked at once, in what it does to the part of the policy that
it touches, and `Policy.Within` collects what is known of the whole policy.
-/

namespace AccessControl

namespace Action

/-- The second token has the wildcard where the first one has a word: in one half, in
both halves, or in the place of the whole token. -/
inductive Widens : String → String → Prop
  | subject (subject verb : String) :
      Widens (subject ++ ":" ++ verb) (wildcard ++ ":" ++ verb)
  | verb (subject verb : String) :
      Widens (subject ++ ":" ++ verb) (subject ++ ":" ++ wildcard)
  | halves (subject verb : String) :
      Widens (subject ++ ":" ++ verb) (wildcard ++ ":" ++ wildcard)
  | token (token : String) :
      Widens token wildcard

/-- A half of a token stands for the word that is asked for: it is the wildcard or the
very word, and it does not spell out the reserved one. -/
structure HalfCovers (reserved half asked : String) : Prop where
  filled : half ≠ ""
  plain : ':' ∉ half.toList
  free : half ≠ reserved
  covers : half = wildcard ∨ half = asked

theorem halfCovers_wildcard
    {reserved : String} (free : wildcard ≠ reserved) (asked : String) :
    HalfCovers reserved wildcard asked :=
  ⟨by decide, by decide, free, Or.inl rfl⟩

/-- A token divides at its only colon. -/
theorem Divides.eq_of_joined
    {first second subject verb : String}
    (divides : Divides (first ++ ":" ++ second) subject verb) :
    subject = first ∧ verb = second := by
  have spelled := congrArg String.toList divides.token_eq.symm
  simp only [String.toList_append, List.append_assoc] at spelled
  obtain ⟨sameFirst, -, sameSecond⟩ :=
    (List.append_cons_inj_of_notMem divides.subject_plain
      divides.verb_plain).mp spelled
  exact ⟨String.toList_injective sameFirst, String.toList_injective sameSecond⟩

theorem joined_ne_wildcard (subject verb : String) :
    subject ++ ":" ++ verb ≠ wildcard := by
  intro equal
  have colon : ':' ∈ (subject ++ ":" ++ verb).toList := by simp
  rw [equal] at colon
  exact absurd colon (by decide)

/-- A token of two halves covers what each of its halves covers. -/
theorem covers_joined_iff {subject verb subjectType deed : String} :
    Covers (subject ++ ":" ++ verb) subjectType deed ↔
      HalfCovers allSubjects subject subjectType ∧
        HalfCovers manage verb deed := by
  constructor
  · intro covers
    rcases covers with whole |
      ⟨front, back, divides, frontFree, backFree, side, act⟩
    · exact absurd whole (joined_ne_wildcard subject verb)
    · obtain ⟨rfl, rfl⟩ := divides.eq_of_joined
      exact
        ⟨⟨divides.subject_ne, divides.subject_plain, frontFree, side⟩,
          ⟨divides.verb_ne, divides.verb_plain, backFree, act⟩⟩
  · intro halves
    obtain ⟨front, back⟩ := halves
    have divides : Divides (subject ++ ":" ++ verb) subject verb :=
      ⟨rfl, front.filled, back.filled, front.plain, back.plain⟩
    exact
      Or.inr
        ⟨subject, verb, divides, front.free, back.free, front.covers,
          back.covers⟩

theorem Widens.covers
    {token wider : String} (widens : Widens token wider)
    {subjectType verb : String} (covered : Covers token subjectType verb) :
    Covers wider subjectType verb := by
  have anySubject : HalfCovers allSubjects wildcard subjectType :=
    halfCovers_wildcard (by decide) subjectType
  have anyVerb : HalfCovers manage wildcard verb :=
    halfCovers_wildcard (by decide) verb
  cases widens with
  | subject subject deed =>
      have halves := covers_joined_iff.mp covered
      exact covers_joined_iff.mpr ⟨anySubject, halves.2⟩
  | verb subject deed =>
      have halves := covers_joined_iff.mp covered
      exact covers_joined_iff.mpr ⟨halves.1, anyVerb⟩
  | halves subject deed =>
      exact covers_joined_iff.mpr ⟨anySubject, anyVerb⟩
  | token =>
      exact Or.inl rfl

end Action

namespace Condition

/-- The second condition is the first one without one predicate, or without one
operator and all its predicates. -/
inductive Loosens : Condition → Condition → Prop
  | predicate (earlier later : Condition) (name : String)
      (before after : Fields) (predicate : String × Value) :
      Loosens
        (earlier ++ (name, .record (before ++ predicate :: after)) :: later)
        (earlier ++ (name, .record (before ++ after)) :: later)
  | operator (earlier later : Condition) (entry : String × Value) :
      Loosens (earlier ++ entry :: later) (earlier ++ later)

/-- Every operator is known and holds a record of predicates that are good for it. -/
def Each
    (good : Operator → String × Value → Prop)
    (condition : Condition) : Prop :=
  ∀ entry ∈ condition,
    ∃ operator predicates,
      Operator.ofName? entry.1 = some operator ∧
        entry.2 = .record predicates ∧
        ∀ predicate ∈ predicates, good operator predicate

theorem Loosens.each
    {condition looser : Condition} (loosens : condition.Loosens looser)
    {good : Operator → String × Value → Prop}
    (each : condition.Each good) :
    looser.Each good := by
  cases loosens with
  | predicate earlier later name before after predicate =>
      unfold Each at each ⊢
      rw [List.forall_mem_append, List.forall_mem_cons] at each ⊢
      obtain ⟨inEarlier, here, inLater⟩ := each
      obtain ⟨operator, predicates, known, recorded, allGood⟩ := here
      cases recorded
      refine
        ⟨inEarlier, ⟨operator, before ++ after, known, rfl, ?_⟩, inLater⟩
      intro other member
      apply allGood other
      rcases List.mem_append.mp member with inBefore | inAfter
      · exact List.mem_append_left _ inBefore
      · exact List.mem_append_right _ (List.mem_cons_of_mem _ inAfter)
  | operator earlier later entry =>
      unfold Each at each ⊢
      rw [List.forall_mem_append, List.forall_mem_cons] at each
      rw [List.forall_mem_append]
      exact ⟨each.1, each.2.2⟩

theorem Loosens.met
    {condition looser : Condition} (loosens : condition.Loosens looser)
    {fields : Fields} (met : condition.Met fields) :
    looser.Met fields := by
  have each : condition.Each fun operator => Fulfilled operator fields := met
  exact loosens.each each

theorem Loosens.fits
    {condition looser : Condition} (loosens : condition.Loosens looser)
    (fits : condition.Fits) :
    looser.Fits := by
  have each :
      condition.Each fun operator predicate =>
        operator.expects.admits predicate.2 = true := fits
  exact loosens.each each

end Condition

namespace Policy

/-- The second policy is the first one after one change that makes it wider. -/
inductive Widens (policy : Policy) : Policy → Prop
  | insertAction {before after : List String} (token : String) :
      policy.actions = before ++ after →
      Widens policy { policy with actions := before ++ token :: after }
  | widenAction {before after : List String} {token wider : String} :
      policy.actions = before ++ token :: after →
      Action.Widens token wider →
      Widens policy { policy with actions := before ++ wider :: after }
  | insertResource {before after : List String} {entry : String} :
      policy.resources = before ++ after →
      (entry = wildcard ∨ ∃ id, ObjectId.ofText? entry = some id) →
      Widens policy { policy with resources := before ++ entry :: after }
  | loosenCondition {condition looser : Condition} :
      policy.condition = some condition →
      condition.Loosens looser →
      Widens policy { policy with condition := some looser }
  | dropCondition :
      Widens policy { policy with condition := none }

/-- The wider policy has the same effect, and is about all that the policy is about:
its actions cover what the actions of the policy cover, it concerns the same resources
and holds under the same circumstances, and under more. -/
structure Within (policy wider : Policy) : Prop where
  effect : wider.effect = policy.effect
  actions :
    ∀ action ∈ policy.actions, ∃ other ∈ wider.actions,
      ∀ subjectType verb,
        Action.Covers action subjectType verb →
          Action.Covers other subjectType verb
  resources :
    ∀ identity, policy.Concerns identity → wider.Concerns identity
  condition :
    ∀ fields : Fields,
      (∀ entries ∈ policy.condition, entries.Met fields) →
        ∀ entries ∈ wider.condition, entries.Met fields

section Widening

variable {policy wider : Policy}

theorem mem_insert_middle {α : Type} {item other : α} {before after : List α} :
    other ∈ before ++ item :: after ↔ other = item ∨ other ∈ before ++ after :=
  List.perm_middle.mem_iff.trans List.mem_cons

theorem concerns_insert
    {before after : List String} {entry : String}
    (listed : policy.resources = before ++ after)
    (known : entry = wildcard ∨ ∃ id, ObjectId.ofText? entry = some id)
    {identity : Option ObjectId} (concerned : policy.Concerns identity) :
    Concerns { policy with resources := before ++ entry :: after }
      identity := by
  unfold Concerns at concerned ⊢
  rw [listed] at concerned
  rcases known with rfl | named
  · exact Or.inl (mem_insert_middle.mpr (Or.inl rfl))
  · rcases concerned with whole | ⟨othersNamed, other, member, id, read, same⟩
    · exact Or.inl (mem_insert_middle.mpr (Or.inr whole))
    · have allNamed :
          ∀ resource ∈ before ++ entry :: after,
            ∃ id, ObjectId.ofText? resource = some id := by
        intro resource among
        rcases mem_insert_middle.mp among with rfl | inOthers
        · exact named
        · exact othersNamed resource inOthers
      exact
        Or.inr
          ⟨allNamed, other, mem_insert_middle.mpr (Or.inr member), id, read,
            same⟩

theorem Widens.within (widens : policy.Widens wider) :
    policy.Within wider := by
  cases widens with
  | insertAction token listed =>
      refine ⟨rfl, ?_, fun _ concerned => concerned, fun _ met => met⟩
      intro action member
      rw [listed] at member
      exact
        ⟨action, mem_insert_middle.mpr (Or.inr member),
          fun _ _ covered => covered⟩
  | widenAction listed widened =>
      refine ⟨rfl, ?_, fun _ concerned => concerned, fun _ met => met⟩
      intro action member
      rw [listed] at member
      rcases mem_insert_middle.mp member with rfl | inOthers
      · exact
          ⟨_, mem_insert_middle.mpr (Or.inl rfl),
            fun _ _ covered => widened.covers covered⟩
      · exact
          ⟨action, mem_insert_middle.mpr (Or.inr inOthers),
            fun _ _ covered => covered⟩
  | insertResource listed known =>
      refine ⟨rfl, ?_, ?_, fun _ met => met⟩
      · intro action member
        exact ⟨action, member, fun _ _ covered => covered⟩
      · intro identity concerned
        exact concerns_insert listed known concerned
  | loosenCondition given loosens =>
      refine ⟨rfl, ?_, fun _ concerned => concerned, ?_⟩
      · intro action member
        exact ⟨action, member, fun _ _ covered => covered⟩
      · intro fields met entries held
        cases held
        exact loosens.met (met _ given)
  | dropCondition =>
      refine ⟨rfl, ?_, fun _ concerned => concerned, ?_⟩
      · intro action member
        exact ⟨action, member, fun _ _ covered => covered⟩
      · intro fields met entries held
        cases held

theorem Widens.accepted
    (widens : policy.Widens wider) (accepted : policy.Accepted) :
    wider.Accepted := by
  have formed := accepted_iff_wellFormed.mp accepted
  apply accepted_iff_wellFormed.mpr
  cases widens with
  | insertAction token listed =>
      exact ⟨formed.named, by simp, formed.concerned, formed.fits⟩
  | widenAction listed widened =>
      exact ⟨formed.named, by simp, formed.concerned, formed.fits⟩
  | insertResource listed known =>
      exact ⟨formed.named, formed.acting, by simp, formed.fits⟩
  | loosenCondition given loosens =>
      refine ⟨formed.named, formed.acting, formed.concerned, ?_⟩
      intro entries held
      cases held
      exact loosens.fits (formed.fits _ given)
  | dropCondition =>
      refine ⟨formed.named, formed.acting, formed.concerned, ?_⟩
      intro entries held
      cases held

/-! ## Answers -/

variable {verb subjectType : String} {resource : Option Fields}

theorem Within.takesPart
    (within : policy.Within wider)
    (takesPart : policy.TakesPart verb subjectType resource) :
    wider.TakesPart verb subjectType resource := by
  obtain ⟨action, declared, matched⟩ := takesPart
  obtain ⟨other, otherDeclared, covers⟩ := within.actions action declared
  exact
    ⟨other, otherDeclared, covers subjectType verb matched.covered,
      within.resources _ matched.concerned,
      within.condition _ matched.held⟩

/-- Either the wider policy does not differ in its part in the query, or it takes part
where the policy did not. -/
theorem Within.lastFiring?_cases
    (within : policy.Within wider)
    (accepted : policy.Accepted) (widerAccepted : wider.Accepted) :
    (policy.lastFiring? verb subjectType resource).map Rule.effect =
        (wider.lastFiring? verb subjectType resource).map Rule.effect ∨
      policy.lastFiring? verb subjectType resource = none ∧
        (wider.lastFiring? verb subjectType resource).map Rule.effect =
          some policy.effect := by
  cases widerLast : wider.lastFiring? verb subjectType resource with
  | none =>
      cases last : policy.lastFiring? verb subjectType resource with
      | none =>
          exact Or.inl rfl
      | some rule =>
          have takesPart :=
            (isSome_lastFiring?_iff accepted).mp (Option.isSome_of_eq_some last)
          have widerFires :=
            (isSome_lastFiring?_iff widerAccepted).mpr
              (within.takesPart takesPart)
          rw [widerLast] at widerFires
          cases widerFires
  | some widerRule =>
      have widerEffect : widerRule.effect = policy.effect :=
        (effect_of_lastFiring? widerLast).trans within.effect
      cases last : policy.lastFiring? verb subjectType resource with
      | none =>
          exact Or.inr ⟨rfl, congrArg some widerEffect⟩
      | some rule =>
          have sameEffect : rule.effect = widerRule.effect :=
            (effect_of_lastFiring? last).trans widerEffect.symm
          exact Or.inl (congrArg some sameEffect)

/-- Where the wider policy changes the answer, the answer is its own effect. -/
theorem Within.deciding?_cases
    (within : policy.Within wider)
    (accepted : policy.Accepted) (widerAccepted : wider.Accepted)
    (earlier later : List Policy)
    (verb subjectType : String) (resource : Option Fields) :
    (deciding? verb subjectType resource
          (earlier ++ wider :: later)).map Rule.effect =
        (deciding? verb subjectType resource
          (earlier ++ policy :: later)).map Rule.effect ∨
      (deciding? verb subjectType resource
          (earlier ++ wider :: later)).map Rule.effect =
        some policy.effect := by
  rcases within.lastFiring?_cases accepted widerAccepted with
    same | ⟨idle, joins⟩
  · exact Or.inl (map_deciding?_congr same earlier later).symm
  · rw [deciding?_middle, deciding?_middle, idle]
    cases deciding? verb subjectType resource later with
    | some rule =>
        exact Or.inl rfl
    | none =>
        rw [Option.none_or, Option.map_or, joins]
        exact Or.inr rfl

/-- A policy in a list of accepted ones may be widened: it is accepted again, and every
query that is answered in another way gets the effect of the policy.  So a policy that
allows takes no permission away by it, and one that denies grants none. -/
theorem answers_of_widens
    {earlier later : List Policy}
    (accepted : ∀ member ∈ earlier ++ policy :: later, member.Accepted)
    (widens : policy.Widens wider)
    (verb subjectType : String) (resource : Option Fields) :
    let query : Query := ⟨verb, subjectType, Value.ofResource resource⟩
    wider.Accepted ∧
      ∃ before after,
        (Ability.ofPolicies (earlier ++ policy :: later)).can query =
            .ok before ∧
          (Ability.ofPolicies (earlier ++ wider :: later)).can query =
            .ok after ∧
          (policy.effect = .allow → before = true → after = true) ∧
          (policy.effect = .deny → after = true → before = true) := by
  intro query
  have policyAccepted : policy.Accepted := accepted policy (by simp)
  have widerAccepted := widens.accepted policyAccepted
  have replaced := accepted_replaced accepted widerAccepted
  refine
    ⟨widerAccepted, _, _, can_deciding accepted verb subjectType resource,
      can_deciding replaced verb subjectType resource, ?_⟩
  rcases
      widens.within.deciding?_cases policyAccepted widerAccepted earlier later
        verb subjectType resource with
    same | own
  · rw [same]
    exact ⟨fun _ allowed => allowed, fun _ allowed => allowed⟩
  · rw [own]
    constructor
    · intro allows _
      rw [allows]
      rfl
    · intro denies allowed
      rw [denies] at allowed
      cases allowed

end Widening

/-- Denies what is in zone B and belongs to the core team. -/
def zonePolicy : Policy :=
  ⟨"zone", .deny, ["Vault:Open", "*:Delete"], ["*"],
    some [("Bool", .record [("sealed", .boolean true)]),
      ("StringEquals",
        .record [("zone", .text "b"), ("owner.team", .text "core")])]⟩

/-- Denies what belongs to the core team in any zone. -/
def teamPolicy : Policy :=
  { zonePolicy with
    condition :=
      some [("Bool", .record [("sealed", .boolean true)]),
        ("StringEquals", .record [("owner.team", .text "core")])] }

theorem zonePolicy_widens : zonePolicy.Widens teamPolicy :=
  .loosenCondition rfl
    (.predicate [("Bool", .record [("sealed", .boolean true)])] []
      "StringEquals" [] [("owner.team", .text "core")]
      ("zone", .text "b"))

theorem zonePolicy_widened :
    let all : Policy := ⟨"all", .allow, ["*"], ["*"], none⟩
    let query : Query :=
      ⟨"Open", "Vault",
        Value.ofResource
          (some [("sealed", .boolean true), ("zone", .text "a"),
            ("owner", .record [("team", .text "core")])])⟩
    (∀ member ∈ [all] ++ zonePolicy :: [], member.Accepted) ∧
      zonePolicy.Widens teamPolicy ∧ zonePolicy.effect = .deny ∧
      ∃ before after,
        (Ability.ofPolicies ([all] ++ zonePolicy :: [])).can query =
            .ok before ∧
          (Ability.ofPolicies ([all] ++ teamPolicy :: [])).can query =
            .ok after ∧
          (after = true → before = true) ∧
          before = true ∧ after = false := by
  intro all query
  have accepted : ∀ member ∈ [all] ++ zonePolicy :: [], member.Accepted := by
    decide
  obtain ⟨-, before, after, decided, decidedAfter, -, narrower⟩ :=
    answers_of_widens accepted zonePolicy_widens "Open" "Vault"
      (some [("sealed", .boolean true), ("zone", .text "a"),
        ("owner", .record [("team", .text "core")])])
  have allowed :
      (Ability.ofPolicies ([all] ++ zonePolicy :: [])).can query =
        .ok true := rfl
  have forbidden :
      (Ability.ofPolicies ([all] ++ teamPolicy :: [])).can query =
        .ok false := rfl
  have wasAllowed : before = true :=
    Except.ok.inj (decided.symm.trans allowed)
  have isForbidden : after = false :=
    Except.ok.inj (decidedAfter.symm.trans forbidden)
  exact
    ⟨accepted, zonePolicy_widens, rfl, before, after, decided, decidedAfter,
      narrower rfl, wasAllowed, isForbidden⟩

end Policy

end AccessControl
