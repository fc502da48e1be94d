import AccessControl.Ability
import AccessControl.Proofs.Acceptance
import AccessControl.Proofs.Action

/-!
# Which actions match a query

An action of a policy matches a query when its token covers what is asked, the
resources of the policy take in the identity of the resource, and the condition
of the policy holds.  The compiled rule of the action applies to exactly those
queries, and an action that gives no rule matches none: `rule_applies_iff` and
`Matches.exists_rule`.
-/

namespace AccessControl

namespace Fields

/-- The identity that a field names. -/
def identityAt? (fields : Fields) (name : String) : Option ObjectId :=
  (fields.get? name).bind Value.identity?

/-- The first of the fields `_id` and `id` that is there and names an identity
decides. -/
def identity? (fields : Fields) : Option ObjectId :=
  (fields.identityAt? "_id").or (fields.identityAt? "id")

end Fields

namespace Value

theorem identityIn_record (fields : Fields) (names : List String) :
    identityIn (record fields) names =
      .ok (names.findSome? fields.identityAt?) := by
  induction names with
  | nil =>
      rfl
  | cons name rest inductionHypothesis =>
      have asked : (record fields).field name = .ok (fields.get? name) := rfl
      unfold identityIn
      rw [asked, inductionHypothesis, List.findSome?_cons]
      simp only [bind, Except.bind, Fields.identityAt?]
      cases (fields.get? name).bind identity? with
      | some found =>
          rfl
      | none =>
          rfl

theorem resourceIdentity_ofResource (resource : Option Fields) :
    (ofResource resource).resourceIdentity =
      .ok (resource.getD []).identity? := by
  have searched (fields : Fields) :
      identityFields.findSome? fields.identityAt? = fields.identity? := by
    unfold identityFields Fields.identity?
    cases first : fields.identityAt? "_id" with
    | some found =>
        simp [first]
    | none =>
        cases second : fields.identityAt? "id" with
        | some found =>
            simp [first, second]
        | none =>
            simp [first, second]
  cases resource with
  | none =>
      rfl
  | some fields =>
      cases fields with
      | nil =>
          rfl
      | cons field rest =>
          have filled : (record (field :: rest)).isTruthy = true := rfl
          unfold resourceIdentity ofResource
          rw [if_pos filled, identityIn_record, searched]
          rfl

end Value

namespace ResourceConstraint

theorem identities_texts_eq_ok_iff
    {entries : List String} {ids : List ObjectId} :
    identities (entries.map .text) = .ok ids ↔
      entries.map ObjectId.ofText? = ids.map some := by
  induction entries generalizing ids with
  | nil =>
      cases ids with
      | nil =>
          exact iff_of_true rfl rfl
      | cons id rest =>
          exact iff_of_false (by simp [identities]) (by simp)
  | cons entry rest inductionHypothesis =>
      simp only [List.map_cons, identities, Value.identity?]
      cases ObjectId.ofText? entry with
      | none =>
          cases ids <;> simp
      | some id =>
          cases restIds : identities (rest.map .text) with
          | error fault =>
              constructor
              · intro absurd
                cases absurd
              · intro spelled
                cases ids with
                | nil =>
                    cases spelled
                | cons first others =>
                    simp only [List.map_cons, List.cons.injEq] at spelled
                    have read := inductionHypothesis.mpr spelled.2
                    rw [restIds] at read
                    cases read
          | ok found =>
              have spelledRest := inductionHypothesis.mp restIds
              cases ids with
              | nil =>
                  simp [Except.map]
              | cons first others =>
                  simp only [Except.map, Except.ok.injEq, List.cons.injEq,
                    List.map_cons, Option.some.injEq, spelledRest]
                  rw [List.map_inj_right fun _ _ equal => Option.some.inj equal]

/-- The identities of the entries can be listed when every entry names one. -/
theorem exists_identities_texts_iff {entries : List String} :
    (∃ ids, identities (entries.map .text) = .ok ids) ↔
      ∀ entry ∈ entries, ∃ id, ObjectId.ofText? entry = some id := by
  constructor
  · rintro ⟨ids, read⟩ entry member
    have spelled := identities_texts_eq_ok_iff.mp read
    have mapped : ObjectId.ofText? entry ∈ ids.map some := by
      rw [← spelled]
      exact List.mem_map_of_mem member
    obtain ⟨id, -, named⟩ := List.mem_map.mp mapped
    exact ⟨id, named.symm⟩
  · intro named
    refine ⟨entries.filterMap ObjectId.ofText?, ?_⟩
    rw [identities_texts_eq_ok_iff, List.map_filterMap]
    induction entries with
    | nil =>
        rfl
    | cons entry rest inductionHypothesis =>
        obtain ⟨id, read⟩ := named entry (by simp)
        have tail := inductionHypothesis fun entry member =>
          named entry (List.mem_cons_of_mem _ member)
        simp [read, tail]

theorem mem_of_identities_texts
    {entries : List String} {ids : List ObjectId}
    (read : identities (entries.map .text) = .ok ids) (id : ObjectId) :
    id ∈ ids ↔ ∃ entry ∈ entries, ObjectId.ofText? entry = some id := by
  have spelled := identities_texts_eq_ok_iff.mp read
  have member : id ∈ ids ↔ some id ∈ ids.map some := by
    simp
  rw [member, ← spelled, List.mem_map]

end ResourceConstraint

namespace Policy

/-- The policy is about the resource with this identity: it lists the wildcard, or
all that it lists are identities and this is one of them. -/
def Concerns (policy : Policy) (identity : Option ObjectId) : Prop :=
  wildcard ∈ policy.resources ∨
    (∀ entry ∈ policy.resources, ∃ id, ObjectId.ofText? entry = some id) ∧
      ∃ entry ∈ policy.resources, ∃ id,
        ObjectId.ofText? entry = some id ∧ identity = some id

theorem listsWildcard_iff (resources : List String) :
    (resources.map Value.text).any (Value.same (.text wildcard)) = true ↔
      wildcard ∈ resources := by
  rw [List.any_map, List.any_eq_true]
  constructor
  · rintro ⟨entry, member, equal⟩
    rw [Function.comp_apply, Value.same_text, beq_iff_eq] at equal
    rw [equal]
    exact member
  · intro member
    refine ⟨wildcard, member, ?_⟩
    rw [Function.comp_apply, Value.same_text, beq_iff_eq]

theorem concerns_iff_constraint
    {policy : Policy} {identity : Option ObjectId} :
    policy.Concerns identity ↔
      ∃ ids,
        ResourceConstraint.ofValues (policy.resources.map .text) = .ok ids ∧
          ∀ listed ∈ ids, ∃ id, identity = some id ∧ id ∈ listed := by
  unfold Concerns ResourceConstraint.ofValues
  by_cases whole : wildcard ∈ policy.resources
  · rw [if_pos ((listsWildcard_iff _).mpr whole)]
    simp [whole]
  · rw [if_neg (mt (listsWildcard_iff _).mp whole)]
    constructor
    · rintro (absurd | ⟨named, entry, member, id, read, rfl⟩)
      · exact (whole absurd).elim
      · obtain ⟨ids, listed⟩ :=
          ResourceConstraint.exists_identities_texts_iff.mpr named
        refine ⟨some (IdSet.ofList ids), by rw [listed]; rfl, ?_⟩
        rintro found ⟨⟩
        refine ⟨id, rfl, IdSet.mem_ofList.mpr ?_⟩
        exact (ResourceConstraint.mem_of_identities_texts listed id).mpr
          ⟨entry, member, read⟩
    · rintro ⟨ids, constraint, admitted⟩
      cases listed :
          ResourceConstraint.identities (policy.resources.map .text) with
      | error fault =>
          rw [listed] at constraint
          cases constraint
      | ok found =>
          rw [listed] at constraint
          cases constraint
          obtain ⟨id, identified, member⟩ := admitted _ rfl
          obtain ⟨entry, entryMember, read⟩ :=
            (ResourceConstraint.mem_of_identities_texts listed id).mp
              (IdSet.mem_ofList.mp member)
          exact Or.inr
            ⟨ResourceConstraint.exists_identities_texts_iff.mp ⟨found, listed⟩,
              entry, entryMember, id, read, identified⟩

/-! ## Actions that match -/

/-- The action of the policy matches the query. -/
structure Matches
    (policy : Policy) (action verb subjectType : String)
    (resource : Option Fields) : Prop where
  covered : Action.Covers action subjectType verb
  concerned : policy.Concerns (resource.getD []).identity?
  held : ∀ entries ∈ policy.condition, entries.Met (resource.getD [])

/-- An action gives a rule when its token is read and the resources of its policy
can be listed. -/
theorem rule_eq_ok_iff {policy : Policy} {action : String} {rule : Rule} :
    policy.rule action = .ok rule ↔
      ∃ target ids,
        Action.parse action = .ok target ∧
          ResourceConstraint.ofValues (policy.resources.map .text) = .ok ids ∧
          rule =
            ⟨policy.effect, target.subjectType, target.verb, ids,
              Condition.toValue policy.condition, .text policy.name⟩ := by
  unfold Policy.rule targetOf identitiesOf Action.ofValue
  simp only
  cases Action.parse action with
  | error fault =>
      constructor
      · intro compiled
        cases compiled
      · rintro ⟨target, ids, parsed, -⟩
        cases parsed
  | ok target =>
      cases ResourceConstraint.ofValues (policy.resources.map .text) with
      | error fault =>
          constructor
          · intro compiled
            cases compiled
          · rintro ⟨target, ids, -, given, -⟩
            cases given
      | ok ids =>
          constructor
          · intro compiled
            cases compiled
            exact ⟨target, ids, rfl, rfl, rfl⟩
          · rintro ⟨_, _, parsed, given, rfl⟩
            cases parsed
            cases given
            rfl

theorem covers_query_iff (rule : Rule) (query : Query) :
    rule.covers query = true ↔
      (rule.subjectType = allSubjects ∨
        rule.subjectType = query.subjectType) ∧
        (rule.verb = manage ∨ rule.verb = query.verb) := by
  simp [Rule.covers]

theorem admits_identity_iff (rule : Rule) (identity : Option ObjectId) :
    rule.admits identity = true ↔
      ∀ listed ∈ rule.resourceIds,
        ∃ id, identity = some id ∧ id ∈ listed := by
  unfold Rule.admits
  cases rule.resourceIds with
  | none =>
      simp
  | some listed =>
      cases identity with
      | none =>
          simp
      | some id =>
          simp

variable {policy : Policy} {action : String}

/-- The rule of an action can always be applied, and it applies to the queries that
the action matches. -/
theorem rule_applies_iff
    (shaped : ∀ entries ∈ policy.condition, entries.Shaped)
    {rule : Rule} (made : policy.rule action = .ok rule)
    (verb subjectType : String) (resource : Option Fields) :
    ∃ applied,
      rule.applies ⟨verb, subjectType, Value.ofResource resource⟩
          (resource.getD []).identity? = .ok applied ∧
        (applied = true ↔
          policy.Matches action verb subjectType resource) := by
  obtain ⟨target, ids, read, constraint, rfl⟩ := rule_eq_ok_iff.mp made
  obtain ⟨held, decided, meaning⟩ := Condition.holds_iff shaped resource
  have coveredIff :
      Action.Covers action subjectType verb ↔
        (target.subjectType = allSubjects ∨
          target.subjectType = subjectType) ∧
          (target.verb = manage ∨ target.verb = verb) := by
    rw [Action.covers_iff_parse]
    simp [read]
  have concernedIff :
      policy.Concerns (resource.getD []).identity? ↔
        ∀ listed ∈ ids,
          ∃ id, (resource.getD []).identity? = some id ∧ id ∈ listed := by
    rw [concerns_iff_constraint]
    simp [constraint]
  unfold Rule.applies
  split
  · rename_i selected
    obtain ⟨covers, admits⟩ := Bool.and_eq_true_iff.mp selected
    refine ⟨held, decided, ?_⟩
    rw [meaning]
    constructor
    · intro met
      exact
        ⟨coveredIff.mpr ((covers_query_iff _ _).mp covers),
          concernedIff.mpr ((admits_identity_iff _ _).mp admits), met⟩
    · intro matched
      exact matched.held
  · rename_i passedOver
    refine ⟨false, rfl, ?_⟩
    constructor
    · intro absurd
      cases absurd
    · intro matched
      refine (passedOver (Bool.and_eq_true_iff.mpr ⟨?_, ?_⟩)).elim
      · exact (covers_query_iff _ _).mpr (coveredIff.mp matched.covered)
      · exact (admits_identity_iff _ _).mpr
          (concernedIff.mp matched.concerned)

/-- An action that matches any query gives a rule. -/
theorem Matches.exists_rule
    {verb subjectType : String} {resource : Option Fields}
    (matched : policy.Matches action verb subjectType resource) :
    ∃ rule, policy.rule action = .ok rule := by
  obtain ⟨target, read, -, -⟩ := Action.covers_iff_parse.mp matched.covered
  obtain ⟨ids, constraint, -⟩ := concerns_iff_constraint.mp matched.concerned
  exact ⟨_, rule_eq_ok_iff.mpr ⟨target, ids, read, constraint, rfl⟩⟩

end Policy

end AccessControl
