import AccessControl.Proofs.Matching

/-!
# The decision of an ability

The rules of an ability are scanned from the last to the first, and some actions
give no rule at all.  What comes out is a law about the policies as they were
declared: a query is allowed when an action that allows matches it and no action
declared later denies it.

* `mem_declared_iff` and `declared_ordered` list the actions of all policies in
  the order of declaration.
* `relevant?_ofPolicies` finds the deciding rule among the rules of that list.
* `can_iff_permits` is the law.
-/

namespace AccessControl

section LastItem

variable {α : Type}

/-- In an ordered list the last item that passes is wanted exactly when some item
passes and is wanted together with all later ones that pass. -/
theorem find?_reverse_wanted_iff
    {before : α → α → Prop}
    (asymmetric : ∀ first second, before first second → ¬ before second first)
    {items : List α} (ordered : items.Pairwise before)
    (passes : α → Bool) (wanted : α → Prop) :
    (∃ item, items.reverse.find? passes = some item ∧ wanted item) ↔
      ∃ item ∈ items, passes item = true ∧ wanted item ∧
        ∀ later ∈ items,
          before item later → passes later = true → wanted later := by
  constructor
  · rintro ⟨item, found, itemWanted⟩
    obtain ⟨itemPasses, after, initial, spelled, missed⟩ :=
      List.find?_eq_some_iff_append.mp found
    have whole : items = initial.reverse ++ item :: after.reverse := by
      rw [← List.reverse_reverse items, spelled]
      simp
    refine ⟨item, by simp [whole], itemPasses, itemWanted, ?_⟩
    intro later member follows laterPasses
    rw [whole] at member ordered
    rcases List.mem_append.mp member with earlier | rest
    · have precedes : before later item :=
        (List.pairwise_append.mp ordered).2.2 later earlier item (by simp)
      exact (asymmetric _ _ precedes follows).elim
    · rcases List.mem_cons.mp rest with rfl | afterwards
      · exact itemWanted
      · have fails := missed later (List.mem_reverse.mp afterwards)
        simp [laterPasses] at fails
  · rintro ⟨item, member, itemPasses, itemWanted, laterWanted⟩
    cases found : items.reverse.find? passes with
    | none =>
        have fails :=
          List.find?_eq_none.mp found item (List.mem_reverse.mpr member)
        exact (fails itemPasses).elim
    | some last =>
        obtain ⟨lastPasses, after, initial, spelled, missed⟩ :=
          List.find?_eq_some_iff_append.mp found
        have whole : items = initial.reverse ++ last :: after.reverse := by
          rw [← List.reverse_reverse items, spelled]
          simp
        refine ⟨last, rfl, ?_⟩
        rw [whole] at member
        rcases List.mem_append.mp member with earlier | rest
        · have precedes : before item last :=
            (List.pairwise_append.mp (whole ▸ ordered)).2.2
              item earlier last (by simp)
          exact laterWanted last (by simp [whole]) precedes lastPasses
        · rcases List.mem_cons.mp rest with rfl | afterwards
          · exact itemWanted
          · have fails := missed item (List.mem_reverse.mp afterwards)
            simp [itemPasses] at fails

end LastItem

/-- Where an action is declared: the position of its policy, and its own position
inside the policy. -/
structure Place where
  policy : Nat
  action : Nat

/-- The first place stands before the second. -/
def Place.Before (first second : Place) : Prop :=
  first.policy < second.policy ∨
    first.policy = second.policy ∧ first.action < second.action

theorem Place.Before.asymmetric
    {first second : Place} (precedes : first.Before second) :
    ¬ second.Before first := by
  unfold Place.Before at precedes ⊢
  omega

/-- An action, its policy, and the place where it is declared. -/
structure Declared where
  place : Place
  policy : Policy
  action : String

namespace Declared

/-- The policies have this action of this policy at this place. -/
def In (declared : Declared) (policies : List Policy) : Prop :=
  policies[declared.place.policy]? = some declared.policy ∧
    declared.policy.actions[declared.place.action]? = some declared.action

/-- The rule that the action gives, if it gives one. -/
def rule? (declared : Declared) : Option Rule :=
  (declared.policy.rule declared.action).toOption

end Declared

namespace Policy

/-- The actions of one policy with their places. -/
def declaredBy (policy : Policy) (position : Nat) : List Declared :=
  policy.actions.zipIdx.map fun action =>
    ⟨⟨position, action.2⟩, policy, action.1⟩

/-- The actions of all policies with their places. -/
def declared (policies : List Policy) : List Declared :=
  policies.zipIdx.flatMap fun policy => policy.1.declaredBy policy.2

theorem mem_declared_iff {policies : List Policy} {pair : Declared} :
    pair ∈ declared policies ↔ pair.In policies := by
  obtain ⟨⟨position, index⟩, policy, action⟩ := pair
  unfold declared declaredBy Declared.In
  rw [List.mem_flatMap]
  constructor
  · rintro ⟨⟨found, foundPosition⟩, foundMember, member⟩
    obtain ⟨⟨token, tokenIndex⟩, tokenMember, equal⟩ := List.mem_map.mp member
    cases equal
    exact
      ⟨List.mk_mem_zipIdx_iff_getElem?.mp foundMember,
        List.mk_mem_zipIdx_iff_getElem?.mp tokenMember⟩
  · rintro ⟨policyFound, actionFound⟩
    exact
      ⟨(policy, position), List.mk_mem_zipIdx_iff_getElem?.mpr policyFound,
        List.mem_map.mpr
          ⟨(action, index),
            List.mk_mem_zipIdx_iff_getElem?.mpr actionFound, rfl⟩⟩

theorem zipIdx_ordered {α : Type} (items : List α) :
    items.zipIdx.Pairwise fun first second => first.2 < second.2 := by
  have positions : (items.zipIdx.map Prod.snd).Pairwise (· < ·) := by
    rw [List.zipIdx_map_snd]
    exact List.pairwise_lt_range'
  exact List.pairwise_map.mp positions

theorem declared_ordered (policies : List Policy) :
    (declared policies).Pairwise
      fun first second => first.place.Before second.place := by
  unfold declared
  rw [List.pairwise_flatMap]
  constructor
  · rintro ⟨policy, position⟩ -
    unfold declaredBy
    rw [List.pairwise_map]
    exact (zipIdx_ordered policy.actions).imp fun earlier =>
      Or.inr ⟨rfl, earlier⟩
  · refine (zipIdx_ordered policies).imp ?_
    intro first second earlier pair member other otherMember
    obtain ⟨action, -, rfl⟩ := List.mem_map.mp member
    obtain ⟨otherAction, -, rfl⟩ := List.mem_map.mp otherMember
    exact Or.inl earlier

theorem toOption_outcome (policy : Policy) (action : String) :
    (policy.outcome action).toOption = (policy.rule action).toOption := by
  unfold outcome
  cases policy.rule action <;> rfl

/-- The rules of a policy are those that its actions give. -/
theorem mem_rulesOf_outcomes_iff {policy : Policy} {rule : Rule} :
    rule ∈ rulesOf policy.outcomes ↔
      ∃ action ∈ policy.actions, policy.rule action = .ok rule := by
  have given (action : String) :
      (policy.outcome action).toOption = some rule ↔
        policy.rule action = .ok rule := by
    rw [toOption_outcome]
    cases policy.rule action <;> simp [Except.toOption]
  unfold rulesOf outcomes
  rw [List.filterMap_map, List.mem_filterMap]
  exact exists_congr fun action => and_congr_right fun _ => given action

/-- The rules of policies are the rules of each, one policy after the other. -/
theorem rulesOf_compile_eq_flatMap (policies : List Policy) :
    rulesOf (compile policies) =
      policies.flatMap fun policy => rulesOf policy.outcomes := by
  unfold rulesOf compile
  rw [List.filterMap_flatMap]

theorem filterMap_declaredBy (policy : Policy) (position : Nat) :
    (policy.declaredBy position).filterMap Declared.rule? =
      rulesOf policy.outcomes := by
  unfold declaredBy outcomes rulesOf
  rw [List.filterMap_map, List.filterMap_map]
  have actions := List.zipIdx_map_fst 0 policy.actions
  conv =>
    rhs
    rw [← actions, List.filterMap_map]
  congr 1
  funext action
  exact (toOption_outcome policy action.1).symm

/-- The rules that the policies are compiled to are those of their actions, in the
order of declaration. -/
theorem rulesOf_compile (policies : List Policy) :
    rulesOf (compile policies) =
      (declared policies).filterMap Declared.rule? := by
  rw [rulesOf_compile_eq_flatMap, declared, List.filterMap_flatMap]
  conv =>
    lhs
    rw [← List.zipIdx_map_fst 0 policies, List.flatMap_map]
  congr 1
  funext policy
  exact (filterMap_declaredBy policy.1 policy.2).symm

end Policy

/-! ## The scan of the rules -/

namespace Rule

/-- Whether the rule applies, where this can be decided. -/
def fires
    (rule : Rule) (query : Query) (identity : Option ObjectId) : Bool :=
  (rule.applies query identity).toOption.getD false

end Rule

namespace Ability

theorem firstApplying_eq
    {query : Query} {identity : Option ObjectId}
    {candidates : List (Rule × Nat)}
    (decided : ∀ candidate ∈ candidates, ∃ applied,
      candidate.1.applies query identity = .ok applied) :
    firstApplying query identity candidates =
      .ok (candidates.find? fun candidate =>
        candidate.1.fires query identity) := by
  induction candidates with
  | nil =>
      rfl
  | cons candidate rest inductionHypothesis =>
      obtain ⟨applied, applies⟩ := decided candidate (by simp)
      have tail := inductionHypothesis fun candidate member =>
        decided candidate (List.mem_cons_of_mem _ member)
      have fires : candidate.1.fires query identity = applied := by
        rw [Rule.fires, applies]
        rfl
      rw [List.find?_cons, fires, firstApplying, applies, tail]
      cases applied <;> rfl

/-- The deciding rule is the last one that applies. -/
theorem map_relevant?
    {ability : Ability} {query : Query} {identity : Option ObjectId}
    (identified : query.resource.resourceIdentity = .ok identity)
    (decided : ∀ rule ∈ ability.rules, ∃ applied,
      rule.applies query identity = .ok applied) :
    ∃ found,
      ability.relevant? query = .ok found ∧
        found.map Prod.fst =
          ability.rules.reverse.find? (·.fires query identity) := by
  refine
    ⟨ability.rules.zipIdx.reverse.find? fun candidate =>
      candidate.1.fires query identity, ?_, ?_⟩
  · unfold relevant?
    rw [identified]
    refine firstApplying_eq ?_
    intro candidate member
    refine decided candidate.1 ?_
    rw [← List.zipIdx_map_fst 0 ability.rules]
    exact List.mem_map_of_mem (List.mem_reverse.mp member)
  · have rules :
        ability.rules.reverse =
          ability.rules.zipIdx.reverse.map Prod.fst := by
      rw [List.map_reverse, List.zipIdx_map_fst]
    rw [rules, List.find?_map]
    rfl

/-- The rules of policies are those that the actions of the policies give. -/
theorem mem_rules_ofPolicies_iff
    {policies : List Policy} {rule : Rule} :
    rule ∈ (ofPolicies policies).rules ↔
      ∃ policy ∈ policies, ∃ action ∈ policy.actions,
        policy.rule action = .ok rule := by
  have compiled :
      (ofPolicies policies).rules =
        policies.flatMap fun policy => rulesOf policy.outcomes :=
    Policy.rulesOf_compile_eq_flatMap policies
  rw [compiled, List.mem_flatMap]
  simp only [Policy.mem_rulesOf_outcomes_iff]

/-- Every rule has the condition of a policy that it was compiled from. -/
theorem exists_policy_of_rule
    {policies : List Policy} {rule : Rule}
    (member : rule ∈ (ofPolicies policies).rules) :
    ∃ policy ∈ policies,
      rule.condition = Condition.toValue policy.condition := by
  obtain ⟨policy, policyMember, action, -, made⟩ :=
    mem_rules_ofPolicies_iff.mp member
  obtain ⟨target, ids, -, -, rfl⟩ := Policy.rule_eq_ok_iff.mp made
  exact ⟨policy, policyMember, rfl⟩

theorem firstApplying_congr
    {first second : Query} {identity : Option ObjectId}
    {candidates : List (Rule × Nat)}
    (same :
      ∀ candidate ∈ candidates,
        candidate.1.applies first identity =
          candidate.1.applies second identity) :
    firstApplying first identity candidates =
      firstApplying second identity candidates := by
  induction candidates with
  | nil =>
      rfl
  | cons candidate rest inductionHypothesis =>
      rw [List.forall_mem_cons] at same
      unfold firstApplying
      rw [same.1, inductionHypothesis same.2]

/-- A decision reads the identity of the resource, and whether the conditions of the
policies hold for it. -/
theorem relevant?_congr
    {policies : List Policy} {first second : Value}
    (identified : first.resourceIdentity = second.resourceIdentity)
    (holdsAlike :
      ∀ policy ∈ policies,
        Condition.holds (Condition.toValue policy.condition) first =
          Condition.holds (Condition.toValue policy.condition) second)
    (verb subjectType : String) :
    (ofPolicies policies).relevant? ⟨verb, subjectType, first⟩ =
      (ofPolicies policies).relevant? ⟨verb, subjectType, second⟩ := by
  have searched (identity : Option ObjectId) :
      firstApplying ⟨verb, subjectType, first⟩ identity
          (ofPolicies policies).rules.zipIdx.reverse =
        firstApplying ⟨verb, subjectType, second⟩ identity
          (ofPolicies policies).rules.zipIdx.reverse := by
    apply firstApplying_congr
    intro candidate member
    have among := List.mem_reverse.mp member
    have inRules : candidate.1 ∈ (ofPolicies policies).rules :=
      (List.mem_zipIdx among).2.2 ▸ List.getElem_mem _
    obtain ⟨policy, policyMember, conditioned⟩ :=
      exists_policy_of_rule inRules
    have same := holdsAlike policy policyMember
    rw [← conditioned] at same
    simp only [Rule.applies, same]
    rfl
  unfold relevant?
  simp only [identified, searched]

/-- Where a deciding rule can be looked for, the query is decided by its effect. -/
theorem can_of_relevant?
    {ability : Ability} {query : Query} {found : Option (Rule × Nat)}
    (searched : ability.relevant? query = .ok found) :
    ability.can query = .ok (found.any (·.1.effect == .allow)) := by
  unfold can
  rw [searched]
  cases found <;> rfl

/-- Where every item can be decided, a list is filtered to its end. -/
theorem filter_of_can
    {α : Type} {ability : Ability} {verb subjectType : String}
    {resource : α → Value} {allowed : α → Bool} {items : List α}
    (decided :
      ∀ item ∈ items,
        ability.can ⟨verb, subjectType, resource item⟩ =
          .ok (allowed item)) :
    ability.filter verb subjectType resource items =
      .ok (items.filter allowed) := by
  induction items with
  | nil =>
      rfl
  | cons item rest inductionHypothesis =>
      rw [List.forall_mem_cons] at decided
      unfold filter
      rw [decided.1, inductionHypothesis decided.2, List.filter_cons]
      rfl

end Ability

/-! ## The law -/

/-- The rule of an action fires on the queries that the action matches. -/
theorem Policy.rule_fires_iff
    {policy : Policy} {action : String} {rule : Rule}
    (accepted : policy.Accepted) (made : policy.rule action = .ok rule)
    (verb subjectType : String) (resource : Option Fields) :
    rule.fires ⟨verb, subjectType, Value.ofResource resource⟩
        (resource.getD []).identity? = true ↔
      policy.Matches action verb subjectType resource := by
  obtain ⟨applied, applies, meaning⟩ :=
    Policy.rule_applies_iff accepted.condition_shaped made
      verb subjectType resource
  rw [← meaning]
  simp [Rule.fires, applies, Except.toOption]

namespace Declared

/-- Whether the action gives a rule, and the rule applies to the query. -/
def fires
    (pair : Declared) (verb subjectType : String)
    (resource : Option Fields) : Bool :=
  pair.rule?.any
    (·.fires ⟨verb, subjectType, Value.ofResource resource⟩
      (resource.getD []).identity?)

theorem rule?_eq_some_iff {pair : Declared} {rule : Rule} :
    pair.rule? = some rule ↔ pair.policy.rule pair.action = .ok rule := by
  unfold rule?
  cases pair.policy.rule pair.action with
  | error fault =>
      simp [Except.toOption]
  | ok found =>
      simp [Except.toOption]

theorem effect_of_rule?
    {pair : Declared} {rule : Rule} (made : pair.rule? = some rule) :
    rule.effect = pair.policy.effect := by
  obtain ⟨target, ids, -, -, rfl⟩ :=
    Policy.rule_eq_ok_iff.mp (rule?_eq_some_iff.mp made)
  rfl

/-- An accepted action fires exactly when it matches. -/
theorem fires_iff_matches
    {pair : Declared} (accepted : pair.policy.Accepted)
    (verb subjectType : String) (resource : Option Fields) :
    pair.fires verb subjectType resource = true ↔
      pair.policy.Matches pair.action verb subjectType resource := by
  unfold fires
  cases made : pair.rule? with
  | none =>
      constructor
      · intro absurd
        cases absurd
      · intro matched
        obtain ⟨rule, given⟩ := matched.exists_rule
        rw [rule?_eq_some_iff.mpr given] at made
        cases made
  | some rule =>
      exact
        Policy.rule_fires_iff accepted (rule?_eq_some_iff.mp made)
          verb subjectType resource

end Declared

section Law

variable {policies : List Policy}

theorem accepted_of_in
    (accepted : ∀ policy ∈ policies, policy.Accepted)
    {pair : Declared} (present : pair.In policies) :
    pair.policy.Accepted :=
  accepted pair.policy (List.mem_of_getElem? present.1)

/-- A rule of accepted policies can be applied to every query. -/
theorem exists_applies_of_mem
    (accepted : ∀ policy ∈ policies, policy.Accepted)
    {rule : Rule} (member : rule ∈ (Ability.ofPolicies policies).rules)
    (verb subjectType : String) (resource : Option Fields) :
    ∃ applied,
      rule.applies ⟨verb, subjectType, Value.ofResource resource⟩
        (resource.getD []).identity? = .ok applied := by
  obtain ⟨policy, policyMember, action, -, made⟩ :=
    Ability.mem_rules_ofPolicies_iff.mp member
  obtain ⟨applied, applies, -⟩ :=
    Policy.rule_applies_iff (accepted policy policyMember).condition_shaped
      made verb subjectType resource
  exact ⟨applied, applies⟩

/-- Among the rules of accepted policies the deciding one can always be found: it is
that of the last declared action which fires. -/
theorem relevant?_ofPolicies
    (accepted : ∀ policy ∈ policies, policy.Accepted)
    (verb subjectType : String) (resource : Option Fields) :
    ∃ found,
      (Ability.ofPolicies policies).relevant?
          ⟨verb, subjectType, Value.ofResource resource⟩ = .ok found ∧
        found.map Prod.fst =
          ((Policy.declared policies).reverse.find?
            (·.fires verb subjectType resource)).bind Declared.rule? := by
  obtain ⟨found, searched, last⟩ :=
    Ability.map_relevant? (Value.resourceIdentity_ofResource resource)
      fun _ member =>
        exists_applies_of_mem accepted member verb subjectType resource
  refine ⟨found, searched, ?_⟩
  have rules :
      (Ability.ofPolicies policies).rules.reverse =
        (Policy.declared policies).reverse.filterMap Declared.rule? := by
    rw [List.filterMap_reverse, ← Policy.rulesOf_compile]
    rfl
  rw [last, rules, List.find?_filterMap]
  rfl

/-- The last declared action that fires decides, by the effect of its policy. -/
theorem can_ofPolicies
    (accepted : ∀ policy ∈ policies, policy.Accepted)
    (verb subjectType : String) (resource : Option Fields) :
    ∃ allowed,
      (Ability.ofPolicies policies).can
          ⟨verb, subjectType, Value.ofResource resource⟩ = .ok allowed ∧
        (allowed = true ↔
          ∃ pair,
            (Policy.declared policies).reverse.find?
                (·.fires verb subjectType resource) = some pair ∧
              pair.policy.effect = .allow) := by
  obtain ⟨found, searched, last⟩ :=
    relevant?_ofPolicies accepted verb subjectType resource
  refine ⟨(found.map Prod.fst).any (·.effect == .allow), ?_, ?_⟩
  · rw [Option.any_map]
    exact Ability.can_of_relevant? searched
  · rw [last]
    cases located :
        (Policy.declared policies).reverse.find?
          (·.fires verb subjectType resource) with
    | none =>
        simp
    | some pair =>
        have fired := List.find?_some located
        cases made : pair.rule? with
        | none =>
            simp [Declared.fires, made] at fired
        | some rule =>
            simp [made, Declared.effect_of_rule? made]

/-- Some declared action of a policy that allows matches the query, and no action
declared later, of a policy that denies, does. -/
def Policy.Permits
    (policies : List Policy) (verb subjectType : String)
    (resource : Option Fields) : Prop :=
  ∃ pair : Declared,
    pair.In policies ∧ pair.policy.effect = .allow ∧
      pair.policy.Matches pair.action verb subjectType resource ∧
      ∀ later : Declared,
        later.In policies → pair.place.Before later.place →
          later.policy.effect = .deny →
            ¬ later.policy.Matches later.action verb subjectType resource

theorem Effect.eq_deny_iff (effect : Effect) :
    effect = .deny ↔ effect ≠ .allow := by
  cases effect <;> simp

/-- Every query is decided, and it is allowed exactly when the policies permit
it. -/
theorem can_iff_permits
    (accepted : ∀ policy ∈ policies, policy.Accepted)
    (verb subjectType : String) (resource : Option Fields) :
    ∃ allowed,
      (Ability.ofPolicies policies).can
          ⟨verb, subjectType, Value.ofResource resource⟩ = .ok allowed ∧
        (allowed = true ↔
          Policy.Permits policies verb subjectType resource) := by
  obtain ⟨allowed, decided, meaning⟩ :=
    can_ofPolicies accepted verb subjectType resource
  refine ⟨allowed, decided, ?_⟩
  have matches_iff {pair : Declared} (present : pair.In policies) :
      pair.fires verb subjectType resource = true ↔
        pair.policy.Matches pair.action verb subjectType resource :=
    Declared.fires_iff_matches (accepted_of_in accepted present)
      verb subjectType resource
  rw [meaning,
    find?_reverse_wanted_iff (fun _ _ precedes => precedes.asymmetric)
      (Policy.declared_ordered policies)
      (·.fires verb subjectType resource)
      (fun pair => pair.policy.effect = .allow)]
  constructor
  · rintro ⟨pair, member, fired, allows, laterAllow⟩
    have present := Policy.mem_declared_iff.mp member
    refine ⟨pair, present, allows, (matches_iff present).mp fired, ?_⟩
    intro later laterPresent follows denies matched
    have laterAllows :=
      laterAllow later (Policy.mem_declared_iff.mpr laterPresent) follows
        ((matches_iff laterPresent).mpr matched)
    exact later.policy.effect.eq_deny_iff.mp denies laterAllows
  · rintro ⟨pair, present, allows, matched, undenied⟩
    refine
      ⟨pair, Policy.mem_declared_iff.mpr present,
        (matches_iff present).mpr matched, allows, ?_⟩
    intro later member follows fired
    have laterPresent := Policy.mem_declared_iff.mp member
    by_cases laterAllows : later.policy.effect = .allow
    · exact laterAllows
    · have denies := later.policy.effect.eq_deny_iff.mpr laterAllows
      exact (undenied later laterPresent follows denies
        ((matches_iff laterPresent).mp fired)).elim

/-- A policy that allows everything, and after it one that denies the removal of the
policies of one owner. -/
def guardedPolicies : List Policy :=
  [⟨"everything", .allow, ["*"], ["*"], none⟩,
   ⟨"keep core", .deny, ["Policy:RemovePolicy", "*:Read"], ["*"],
    some [("StringEquals", .record [("owner.team", .text "core")])]⟩]

/-- A resource of the owner whose policies are kept. -/
def coreResource : Fields :=
  [("owner", .record [("team", .text "core")])]

theorem guardedPolicies_decided :
    (∀ policy ∈ guardedPolicies, policy.Accepted) ∧
      ((Ability.ofPolicies guardedPolicies).can
            ⟨"RemovePolicy", "Policy", Value.ofResource (some coreResource)⟩ =
          .ok false ∧
        ¬ Policy.Permits guardedPolicies "RemovePolicy" "Policy"
            (some coreResource)) ∧
      (Ability.ofPolicies guardedPolicies).can
          ⟨"RemovePolicy", "Policy", Value.ofResource none⟩ =
        .ok true ∧
      Policy.Permits guardedPolicies "RemovePolicy" "Policy" none := by
  have accepted : ∀ policy ∈ guardedPolicies, policy.Accepted := by
    intro policy member
    refine ⟨.record policy.dump, ?_⟩
    simp only [guardedPolicies, List.mem_cons, List.not_mem_nil,
      or_false] at member
    rcases member with rfl | rfl <;> rfl
  have denied :
      (Ability.ofPolicies guardedPolicies).can
          ⟨"RemovePolicy", "Policy", Value.ofResource (some coreResource)⟩ =
        .ok false :=
    rfl
  have allowed :
      (Ability.ofPolicies guardedPolicies).can
          ⟨"RemovePolicy", "Policy", Value.ofResource none⟩ =
        .ok true :=
    rfl
  obtain ⟨found, decided, unpermitted⟩ :=
    can_iff_permits accepted "RemovePolicy" "Policy" (some coreResource)
  obtain ⟨found', decided', permitted⟩ :=
    can_iff_permits accepted "RemovePolicy" "Policy" none
  cases denied.symm.trans decided
  cases allowed.symm.trans decided'
  exact
    ⟨accepted, ⟨denied, fun permits => nomatch unpermitted.mpr permits⟩,
      allowed, permitted.mp rfl⟩

end Law

end AccessControl
