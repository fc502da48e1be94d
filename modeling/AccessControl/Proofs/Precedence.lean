import AccessControl.Proofs.Decision

/-!
# Which policy decides

A policy takes part in a query when one of its actions matches it.  Only the last
policy that takes part counts: its effect is the answer, and the deciding rule is
its last one that fires (`relevant?_deciding`).  So some changes to a list of
policies cannot be seen in any answer.

* `answers_reordered`: neighbours of one effect may change places, and the actions
  of a policy may stand in any order and be repeated.
* `answers_without_earlier`: of a policy that stands in the list several times, the
  occurrences before the last one may be removed.
-/

namespace AccessControl

namespace Policy

section Deciding

variable (verb subjectType : String) (resource : Option Fields)

/-- Some action of the policy matches the query. -/
def TakesPart (policy : Policy) : Prop :=
  ∃ action ∈ policy.actions,
    policy.Matches action verb subjectType resource

/-- The last rule of the policy that fires. -/
def lastFiring? (policy : Policy) : Option Rule :=
  (rulesOf policy.outcomes).reverse.find?
    (·.fires ⟨verb, subjectType, Value.ofResource resource⟩
      (resource.getD []).identity?)

/-- The last firing rule of the last policy that has one. -/
def deciding? (policies : List Policy) : Option Rule :=
  policies.reverse.findSome? (lastFiring? verb subjectType resource)

variable {verb subjectType : String} {resource : Option Fields}
variable {policy other : Policy}

theorem exists_action_of_lastFiring?
    {rule : Rule}
    (last : policy.lastFiring? verb subjectType resource = some rule) :
    ∃ action ∈ policy.actions, policy.rule action = .ok rule := by
  have among := List.mem_reverse.mp (List.mem_of_find?_eq_some last)
  exact mem_rulesOf_outcomes_iff.mp among

theorem effect_of_lastFiring?
    {rule : Rule}
    (last : policy.lastFiring? verb subjectType resource = some rule) :
    rule.effect = policy.effect := by
  obtain ⟨action, -, made⟩ := exists_action_of_lastFiring? last
  obtain ⟨target, ids, -, -, rfl⟩ := rule_eq_ok_iff.mp made
  rfl

theorem policyName_of_lastFiring?
    {rule : Rule}
    (last : policy.lastFiring? verb subjectType resource = some rule) :
    rule.policyName = .text policy.name := by
  obtain ⟨action, -, made⟩ := exists_action_of_lastFiring? last
  obtain ⟨target, ids, -, -, rfl⟩ := rule_eq_ok_iff.mp made
  rfl

/-- A policy has a firing rule exactly when it takes part. -/
theorem isSome_lastFiring?_iff (accepted : policy.Accepted) :
    (policy.lastFiring? verb subjectType resource).isSome = true ↔
      policy.TakesPart verb subjectType resource := by
  unfold lastFiring? TakesPart
  rw [List.find?_isSome]
  constructor
  · intro firing
    obtain ⟨rule, member, fires⟩ := firing
    obtain ⟨action, declared, made⟩ :=
      mem_rulesOf_outcomes_iff.mp (List.mem_reverse.mp member)
    exact
      ⟨action, declared,
        (rule_fires_iff accepted made verb subjectType resource).mp fires⟩
  · intro takesPart
    obtain ⟨action, declared, matched⟩ := takesPart
    obtain ⟨rule, made⟩ := matched.exists_rule
    have member : rule ∈ rulesOf policy.outcomes :=
      mem_rulesOf_outcomes_iff.mpr ⟨action, declared, made⟩
    exact
      ⟨rule, List.mem_reverse.mpr member,
        (rule_fires_iff accepted made verb subjectType resource).mpr matched⟩

/-- Of two policies that take part in the same queries, the last firing rules agree
in all that the policies give to every rule alike. -/
theorem map_lastFiring?_congr
    {α : Type} {view : Rule → α}
    (accepted : policy.Accepted) (otherAccepted : other.Accepted)
    (sameQueries :
      policy.TakesPart verb subjectType resource ↔
        other.TakesPart verb subjectType resource)
    (sameView :
      ∀ rule otherRule,
        policy.lastFiring? verb subjectType resource = some rule →
          other.lastFiring? verb subjectType resource = some otherRule →
            view rule = view otherRule) :
    (policy.lastFiring? verb subjectType resource).map view =
      (other.lastFiring? verb subjectType resource).map view := by
  have together :=
    (isSome_lastFiring?_iff accepted).trans
      (sameQueries.trans (isSome_lastFiring?_iff otherAccepted).symm)
  cases last : policy.lastFiring? verb subjectType resource with
  | none =>
      cases otherLast : other.lastFiring? verb subjectType resource with
      | none =>
          rfl
      | some otherRule =>
          rw [last, otherLast] at together
          exact absurd (together.mpr rfl) (by simp)
  | some rule =>
      cases otherLast : other.lastFiring? verb subjectType resource with
      | none =>
          rw [last, otherLast] at together
          exact absurd (together.mp rfl) (by simp)
      | some otherRule =>
          exact congrArg some (sameView rule otherRule last otherLast)

/-- What comes later in the list goes first. -/
theorem deciding?_append (first second : List Policy) :
    deciding? verb subjectType resource (first ++ second) =
      (deciding? verb subjectType resource second).or
        (deciding? verb subjectType resource first) := by
  unfold deciding?
  rw [List.reverse_append, List.findSome?_append]

theorem deciding?_cons (policy : Policy) (rest : List Policy) :
    deciding? verb subjectType resource (policy :: rest) =
      (deciding? verb subjectType resource rest).or
        (policy.lastFiring? verb subjectType resource) := by
  have single :
      deciding? verb subjectType resource [policy] =
        policy.lastFiring? verb subjectType resource := by
    unfold deciding?
    rw [List.reverse_singleton, List.findSome?_singleton]
  rw [← List.singleton_append, deciding?_append, single]

/-- A policy inside a list decides where no later one does, and else leaves the query
to the earlier ones. -/
theorem deciding?_middle (earlier later : List Policy) (policy : Policy) :
    deciding? verb subjectType resource (earlier ++ policy :: later) =
      ((deciding? verb subjectType resource later).or
          (policy.lastFiring? verb subjectType resource)).or
        (deciding? verb subjectType resource earlier) := by
  rw [deciding?_append, deciding?_cons]

/-- The deciding rule of accepted policies is the last firing rule of the last of them
that takes part. -/
theorem relevant?_deciding
    {policies : List Policy}
    (accepted : ∀ policy ∈ policies, policy.Accepted)
    (verb subjectType : String) (resource : Option Fields) :
    ∃ found,
      (Ability.ofPolicies policies).relevant?
          ⟨verb, subjectType, Value.ofResource resource⟩ = .ok found ∧
        found.map Prod.fst =
          deciding? verb subjectType resource policies := by
  obtain ⟨found, searched, last⟩ :=
    Ability.map_relevant? (Value.resourceIdentity_ofResource resource)
      fun _ member =>
        exists_applies_of_mem accepted member verb subjectType resource
  refine ⟨found, searched, ?_⟩
  have rules :
      (Ability.ofPolicies policies).rules =
        policies.flatMap fun policy => rulesOf policy.outcomes :=
    rulesOf_compile_eq_flatMap policies
  rw [last, rules, List.reverse_flatMap, List.find?_flatMap]
  rfl

/-- The effect of the deciding rule is the answer, and without one the answer is
no. -/
theorem can_deciding
    {policies : List Policy}
    (accepted : ∀ policy ∈ policies, policy.Accepted)
    (verb subjectType : String) (resource : Option Fields) :
    (Ability.ofPolicies policies).can
        ⟨verb, subjectType, Value.ofResource resource⟩ =
      .ok ((deciding? verb subjectType resource policies).map Rule.effect ==
        some .allow) := by
  obtain ⟨found, searched, last⟩ :=
    relevant?_deciding accepted verb subjectType resource
  rw [Ability.can_of_relevant? searched, ← last]
  cases found <;> rfl

/-! ## Lists in another order -/

/-- Of two neighbours that take part the later one decides, and where both have the
same effect it does not matter which of them that is. -/
theorem map_effect_deciding?_swap
    {first second : Policy} (sameEffect : first.effect = second.effect)
    (earlier later : List Policy) :
    (deciding? verb subjectType resource
        (earlier ++ second :: first :: later)).map Rule.effect =
      (deciding? verb subjectType resource
        (earlier ++ first :: second :: later)).map Rule.effect := by
  rw [deciding?_middle, deciding?_middle, deciding?_cons, deciding?_cons]
  cases lastFirst : first.lastFiring? verb subjectType resource with
  | none =>
      simp only [Option.or_none]
  | some firstRule =>
      cases lastSecond : second.lastFiring? verb subjectType resource with
      | none =>
          simp only [Option.or_none]
      | some secondRule =>
          have sameRuleEffect : firstRule.effect = secondRule.effect := by
            rw [effect_of_lastFiring? lastFirst, sameEffect,
              effect_of_lastFiring? lastSecond]
          cases deciding? verb subjectType resource later with
          | none =>
              exact congrArg some sameRuleEffect
          | some rule =>
              rfl

/-- What the last firing rules of two policies agree in, the deciding rules agree in
when one policy stands in the place of the other. -/
theorem map_deciding?_congr
    {α : Type} {view : Rule → α}
    (sameView :
      (policy.lastFiring? verb subjectType resource).map view =
        (other.lastFiring? verb subjectType resource).map view)
    (earlier later : List Policy) :
    (deciding? verb subjectType resource
        (earlier ++ policy :: later)).map view =
      (deciding? verb subjectType resource
        (earlier ++ other :: later)).map view := by
  simp only [deciding?_middle, Option.map_or, sameView]

section Relisted

variable {actions : List String}
variable (sameActions : ∀ action, action ∈ actions ↔ action ∈ policy.actions)

include sameActions

theorem accepted_relisted (accepted : policy.Accepted) :
    Accepted { policy with actions := actions } := by
  have formed := accepted_iff_wellFormed.mp accepted
  obtain ⟨action, declared⟩ := List.exists_mem_of_ne_nil _ formed.acting
  have relisted : actions ≠ [] :=
    List.ne_nil_of_mem ((sameActions action).mpr declared)
  exact
    accepted_iff_wellFormed.mpr
      ⟨formed.named, relisted, formed.concerned, formed.fits⟩

theorem takesPart_relisted_iff :
    TakesPart verb subjectType resource { policy with actions := actions } ↔
      policy.TakesPart verb subjectType resource := by
  constructor
  · intro takesPart
    obtain ⟨action, declared, matched⟩ := takesPart
    exact
      ⟨action, (sameActions action).mp declared,
        matched.covered, matched.concerned, matched.held⟩
  · intro takesPart
    obtain ⟨action, declared, matched⟩ := takesPart
    exact
      ⟨action, (sameActions action).mpr declared,
        matched.covered, matched.concerned, matched.held⟩

/-- What every rule has from its policy, whatever the action is, is found as before
when the actions of a policy are listed anew. -/
theorem map_deciding?_relisted
    {α : Type} {view : Rule → α} (accepted : policy.Accepted)
    (sameView :
      ∀ rule otherRule,
        lastFiring? verb subjectType resource
            { policy with actions := actions } = some rule →
          policy.lastFiring? verb subjectType resource = some otherRule →
            view rule = view otherRule)
    (earlier later : List Policy) :
    (deciding? verb subjectType resource
        (earlier ++ { policy with actions := actions } :: later)).map view =
      (deciding? verb subjectType resource
        (earlier ++ policy :: later)).map view := by
  apply map_deciding?_congr
  apply map_lastFiring?_congr (accepted_relisted sameActions accepted) accepted
  · exact takesPart_relisted_iff sameActions
  · exact sameView

end Relisted

theorem accepted_replaced
    {earlier later : List Policy}
    (accepted : ∀ member ∈ earlier ++ policy :: later, member.Accepted)
    (otherAccepted : other.Accepted) :
    ∀ member ∈ earlier ++ other :: later, member.Accepted := by
  rw [List.forall_mem_append, List.forall_mem_cons] at accepted ⊢
  exact ⟨accepted.1, otherAccepted, accepted.2.2⟩

theorem can_swapped
    {first second : Policy} (sameEffect : first.effect = second.effect)
    {earlier later : List Policy}
    (accepted :
      ∀ policy ∈ earlier ++ first :: second :: later, policy.Accepted)
    (verb subjectType : String) (resource : Option Fields) :
    (Ability.ofPolicies (earlier ++ second :: first :: later)).can
        ⟨verb, subjectType, Value.ofResource resource⟩ =
      (Ability.ofPolicies (earlier ++ first :: second :: later)).can
        ⟨verb, subjectType, Value.ofResource resource⟩ := by
  have moved :
      (earlier ++ second :: first :: later).Perm
        (earlier ++ first :: second :: later) :=
    (List.Perm.swap first second later).append_left earlier
  have swappedAccepted :
      ∀ policy ∈ earlier ++ second :: first :: later, policy.Accepted :=
    fun policy member => accepted policy (moved.mem_iff.mp member)
  rw [can_deciding swappedAccepted, can_deciding accepted,
    map_effect_deciding?_swap sameEffect]

theorem answers_relisted
    {actions : List String}
    (sameActions : ∀ action, action ∈ actions ↔ action ∈ policy.actions)
    {earlier later : List Policy}
    (accepted : ∀ member ∈ earlier ++ policy :: later, member.Accepted)
    (verb subjectType : String) (resource : Option Fields) :
    let query : Query := ⟨verb, subjectType, Value.ofResource resource⟩
    let whole := earlier ++ policy :: later
    let relisted := earlier ++ { policy with actions := actions } :: later
    ∃ found foundAgain,
      (Ability.ofPolicies whole).relevant? query = .ok found ∧
        (Ability.ofPolicies relisted).relevant? query = .ok foundAgain ∧
        foundAgain.map (·.1.policyName) = found.map (·.1.policyName) ∧
        (Ability.ofPolicies relisted).can query =
          (Ability.ofPolicies whole).can query := by
  intro query whole relisted
  have policyAccepted : policy.Accepted := accepted policy (by simp)
  have relistedAccepted : ∀ member ∈ relisted, member.Accepted :=
    accepted_replaced accepted (accepted_relisted sameActions policyAccepted)
  obtain ⟨found, searched, last⟩ :=
    relevant?_deciding accepted verb subjectType resource
  obtain ⟨foundAgain, searchedAgain, lastAgain⟩ :=
    relevant?_deciding relistedAccepted verb subjectType resource
  have sameName :
      (deciding? verb subjectType resource relisted).map Rule.policyName =
        (deciding? verb subjectType resource whole).map
          Rule.policyName := by
    apply map_deciding?_relisted sameActions policyAccepted
    intro rule otherRule last otherLast
    rw [policyName_of_lastFiring? last, policyName_of_lastFiring? otherLast]
  have sameEffect :
      (deciding? verb subjectType resource relisted).map Rule.effect =
        (deciding? verb subjectType resource whole).map Rule.effect := by
    apply map_deciding?_relisted sameActions policyAccepted
    intro rule otherRule last otherLast
    rw [effect_of_lastFiring? last, effect_of_lastFiring? otherLast]
  refine ⟨found, foundAgain, searched, searchedAgain, ?_, ?_⟩
  · rw [← last, ← lastAgain, Option.map_map, Option.map_map] at sameName
    exact sameName
  · rw [can_deciding relistedAccepted, can_deciding accepted, sameEffect]

/-- No answer depends on which of two neighbours of the same effect comes first.
Neither does it, nor the name in the deciding rule, depend on the order of the actions
of a policy or on how often each of them stands there. -/
theorem answers_reordered
    {policies : List Policy}
    (accepted : ∀ policy ∈ policies, policy.Accepted)
    (verb subjectType : String) (resource : Option Fields) :
    let query : Query := ⟨verb, subjectType, Value.ofResource resource⟩
    (∀ earlier first second later,
      policies = earlier ++ first :: second :: later →
        first.effect = second.effect →
          ∃ allowed,
            (Ability.ofPolicies policies).can query = .ok allowed ∧
              (Ability.ofPolicies
                (earlier ++ second :: first :: later)).can query =
                  .ok allowed) ∧
      ∀ earlier policy later actions,
        policies = earlier ++ policy :: later →
          (∀ action, action ∈ actions ↔ action ∈ policy.actions) →
            let relisted : List Policy :=
              earlier ++ { policy with actions := actions } :: later
            ∃ found foundAgain allowed,
              (Ability.ofPolicies policies).relevant? query = .ok found ∧
                (Ability.ofPolicies relisted).relevant? query =
                  .ok foundAgain ∧
                foundAgain.map (·.1.policyName) =
                  found.map (·.1.policyName) ∧
                (Ability.ofPolicies policies).can query = .ok allowed ∧
                (Ability.ofPolicies relisted).can query = .ok allowed := by
  intro query
  have answered := can_deciding accepted verb subjectType resource
  constructor
  · intro earlier first second later spelled sameEffect
    subst spelled
    exact
      ⟨_, answered,
        (can_swapped sameEffect accepted verb subjectType resource).trans
          answered⟩
  · intro earlier policy later actions spelled sameActions relisted
    subst spelled
    obtain ⟨found, foundAgain, searched, searchedAgain, sameName, sameAnswer⟩ :=
      answers_relisted sameActions accepted verb subjectType resource
    exact
      ⟨found, foundAgain, _, searched, searchedAgain, sameName, answered,
        sameAnswer.trans answered⟩

/-- Two neighbours that allow, the first one with two actions, and after them one that
denies under a condition. -/
def clerkPolicies : List Policy :=
  [⟨"read", .allow, ["Invoice:Read", "*:List"], ["*"], none⟩,
   ⟨"own", .allow, ["Invoice:*"], ["303030303030303030303031"], none⟩,
   ⟨"frozen", .deny, ["*:Delete", "Invoice"], ["*"],
    some [("Bool", .record [("frozen", .boolean true)])]⟩]

theorem clerkPolicies_reordered :
    let query : Query :=
      ⟨"Read", "Invoice",
        Value.ofResource (some [("_id", .text "000000000001")])⟩
    let own : Policy :=
      ⟨"own", .allow, ["Invoice:*"], ["303030303030303030303031"], none⟩
    let read : Policy :=
      ⟨"read", .allow, ["Invoice:Read", "*:List"], ["*"], none⟩
    let again : Policy :=
      ⟨"read", .allow, ["*:List", "Invoice:Read", "*:List"], ["*"], none⟩
    (∀ policy ∈ clerkPolicies, policy.Accepted) ∧
      (∃ allowed,
        (Ability.ofPolicies clerkPolicies).can query = .ok allowed ∧
          (Ability.ofPolicies (own :: read :: clerkPolicies.drop 2)).can
            query = .ok allowed) ∧
      ∃ found foundAgain,
        (Ability.ofPolicies clerkPolicies).relevant? query = .ok found ∧
          (Ability.ofPolicies (again :: clerkPolicies.drop 1)).relevant?
            query = .ok foundAgain ∧
          foundAgain.map (·.1.policyName) = found.map (·.1.policyName) := by
  intro query own read again
  have accepted : ∀ policy ∈ clerkPolicies, policy.Accepted := by
    decide
  obtain ⟨swapped, relisted⟩ :=
    answers_reordered accepted "Read" "Invoice"
      (some [("_id", .text "000000000001")])
  have noneNew : again.actions ⊆ read.actions := by
    decide
  have noneLost : read.actions ⊆ again.actions := by
    decide
  have sameActions :
      ∀ action, action ∈ again.actions ↔ action ∈ read.actions :=
    fun _ => ⟨fun listed => noneNew listed, fun listed => noneLost listed⟩
  obtain ⟨found, foundAgain, -, searched, searchedAgain, sameName, -⟩ :=
    relisted [] read (clerkPolicies.drop 1) again.actions rfl sameActions
  exact
    ⟨accepted, swapped [] read own (clerkPolicies.drop 2) rfl rfl,
      found, foundAgain, searched, searchedAgain, sameName⟩

/-- A policy that does not take part can be left out anywhere. -/
theorem deciding?_filter
    (idle : policy.lastFiring? verb subjectType resource = none)
    (policies : List Policy) :
    deciding? verb subjectType resource (policies.filter (· ≠ policy)) =
      deciding? verb subjectType resource policies := by
  induction policies with
  | nil =>
      rfl
  | cons first rest inductionHypothesis =>
      by_cases same : first = policy
      · rw [List.filter_cons_of_neg (by simpa using same),
          inductionHypothesis, deciding?_cons, same, idle, Option.or_none]
      · rw [List.filter_cons_of_pos (by simpa using same),
          deciding?_cons, deciding?_cons, inductionHypothesis]

/-- Earlier occurrences of a policy are never asked: where it takes part, a later one
does too. -/
theorem deciding?_without_earlier
    (earlier later : List Policy) (policy : Policy) :
    deciding? verb subjectType resource
        (earlier.filter (· ≠ policy) ++ policy :: later) =
      deciding? verb subjectType resource (earlier ++ policy :: later) := by
  rw [deciding?_middle, deciding?_middle]
  cases last : policy.lastFiring? verb subjectType resource with
  | none =>
      rw [deciding?_filter last]
  | some rule =>
      cases deciding? verb subjectType resource later <;> rfl

/-- Of a policy that stands in a list several times, the occurrences before the last one
(and before any other one) can be removed: every query is answered as before, and by
the same rule. -/
theorem answers_without_earlier
    {earlier later : List Policy} {policy : Policy}
    (accepted : ∀ other ∈ earlier ++ policy :: later, other.Accepted)
    (verb subjectType : String) (resource : Option Fields) :
    let query : Query := ⟨verb, subjectType, Value.ofResource resource⟩
    let whole := earlier ++ policy :: later
    let kept := earlier.filter (· ≠ policy) ++ policy :: later
    ∃ found foundKept allowed,
      (Ability.ofPolicies whole).relevant? query = .ok found ∧
        (Ability.ofPolicies kept).relevant? query = .ok foundKept ∧
        foundKept.map Prod.fst = found.map Prod.fst ∧
        (Ability.ofPolicies whole).can query = .ok allowed ∧
        (Ability.ofPolicies kept).can query = .ok allowed := by
  intro query whole kept
  have keptAccepted : ∀ other ∈ kept, other.Accepted := by
    intro other member
    apply accepted other
    rcases List.mem_append.mp member with inEarlier | inRest
    · exact List.mem_append_left _ (List.mem_filter.mp inEarlier).1
    · exact List.mem_append_right _ inRest
  obtain ⟨found, searched, last⟩ :=
    relevant?_deciding accepted verb subjectType resource
  obtain ⟨foundKept, searchedKept, lastKept⟩ :=
    relevant?_deciding keptAccepted verb subjectType resource
  have sameRule :
      deciding? verb subjectType resource kept =
        deciding? verb subjectType resource whole :=
    deciding?_without_earlier earlier later policy
  refine
    ⟨found, foundKept, _, searched, searchedKept, ?_,
      can_deciding accepted verb subjectType resource, ?_⟩
  · rw [last, lastKept, sameRule]
  · rw [can_deciding keptAccepted, sameRule]

/-- What everybody may do, and what nobody may do with what is frozen. -/
def sharedPolicies : List Policy :=
  [⟨"all", .allow, ["*"], ["*"], none⟩,
   ⟨"frozen", .deny, ["*:Delete"], ["*"],
    some [("Bool", .record [("frozen", .boolean true)])]⟩]

theorem sharedPolicies_answered :
    let all : Policy := ⟨"all", .allow, ["*"], ["*"], none⟩
    let query : Query :=
      ⟨"Delete", "Invoice",
        Value.ofResource (some [("frozen", .boolean true)])⟩
    (∀ policy ∈ sharedPolicies ++ all :: sharedPolicies.drop 1,
      policy.Accepted) ∧
      sharedPolicies.filter (· ≠ all) = sharedPolicies.drop 1 ∧
      ∃ found foundKept,
        (Ability.ofPolicies
            (sharedPolicies ++ all :: sharedPolicies.drop 1)).relevant?
              query = .ok found ∧
          (Ability.ofPolicies
              (sharedPolicies.filter (· ≠ all) ++
                all :: sharedPolicies.drop 1)).relevant? query =
            .ok foundKept ∧
          foundKept.map Prod.fst = found.map Prod.fst := by
  intro all query
  have accepted :
      ∀ policy ∈ sharedPolicies ++ all :: sharedPolicies.drop 1,
        policy.Accepted := by
    decide
  obtain ⟨found, foundKept, -, searched, searchedKept, sameRule, -⟩ :=
    answers_without_earlier accepted "Delete" "Invoice"
      (some [("frozen", .boolean true)])
  exact
    ⟨accepted, by decide, found, foundKept, searched, searchedKept, sameRule⟩

-- Keeping the first occurrence instead of the last one would change the answer.
example :
    let all : Policy := ⟨"all", .allow, ["*"], ["*"], none⟩
    let frozen : Policy := ⟨"frozen", .deny, ["*:Delete"], ["*"], none⟩
    let query : Query := ⟨"Delete", "Invoice", .null⟩
    (Ability.ofPolicies [all, frozen, all]).can query = .ok true ∧
      (Ability.ofPolicies [all, frozen]).can query = .ok false := by
  exact ⟨rfl, rfl⟩

end Deciding

end Policy

end AccessControl
