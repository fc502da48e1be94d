import AccessControl.Access
import AccessControl.Proofs.Decision
import Mathlib.Data.List.Sort

/-!
# What compilation makes of each action

Every action of every policy contributes one rule or one error record, in the
order of declaration, and nothing else comes out.  `Policy.Contributes` says what
an action contributes without going through the steps of the compiler, and
`compile_accounts` that the compiled list holds just these contributions.
-/

namespace AccessControl

namespace IdSet

/-- The identities stand in the order of their bytes, each once. -/
def Ascending (ids : IdSet) : Prop :=
  ids.Pairwise fun first second => first.bytes < second.bytes

theorem ascending_insert
    (id : ObjectId) {ids : IdSet} (ascending : ids.Ascending) :
    (insert id ids).Ascending := by
  induction ids with
  | nil =>
      exact List.pairwise_singleton _ _
  | cons first rest inductionHypothesis =>
      obtain ⟨below, restAscending⟩ := List.pairwise_cons.mp ascending
      unfold insert
      split
      · exact ascending
      · rename_i different
        split
        · rename_i before
          refine List.pairwise_cons.mpr ⟨?_, ascending⟩
          intro other member
          rcases List.mem_cons.mp member with rfl | later
          · exact before
          · exact List.lt_trans before (below other later)
        · rename_i notBefore
          have bytesDiffer : first.bytes ≠ id.bytes := by
            intro equal
            apply different
            cases id
            cases first
            cases equal
            rfl
          have after : first.bytes < id.bytes :=
            Std.lt_of_le_of_ne (List.not_lt.mp notBefore) bytesDiffer
          refine List.pairwise_cons.mpr
            ⟨?_, inductionHypothesis restAscending⟩
          intro other member
          rcases mem_insert.mp member with rfl | inRest
          · exact after
          · exact below other inRest

theorem ascending_ofList (ids : List ObjectId) : (ofList ids).Ascending := by
  induction ids with
  | nil =>
      exact List.Pairwise.nil
  | cons id rest inductionHypothesis =>
      exact ascending_insert id inductionHypothesis

/-- Two sets with the same members are the same list. -/
theorem Ascending.eq_of_mem_iff
    {first second : IdSet} (left : first.Ascending) (right : second.Ascending)
    (same : ∀ id, id ∈ first ↔ id ∈ second) :
    first = second := by
  have : Std.Irrefl fun a b : ObjectId => a.bytes < b.bytes :=
    ⟨fun id => List.lt_irrefl id.bytes⟩
  have : Std.Antisymm fun a b : ObjectId => a.bytes < b.bytes :=
    ⟨fun _ _ below above => absurd above (List.lt_asymm below)⟩
  exact List.Pairwise.eq_of_mem_iff left right same

end IdSet

namespace ResourceConstraint

/-- The identities that listed resources admit: all when the wildcard is among
them, and else those that the entries name. -/
inductive Admits (resources : List String) : Option IdSet → Prop
  | all : wildcard ∈ resources → Admits resources none
  | listed {ids : IdSet} :
      wildcard ∉ resources →
      (∀ entry ∈ resources, ∃ id, ObjectId.ofText? entry = some id) →
      ids.Ascending →
      (∀ id, id ∈ ids ↔
        ∃ entry ∈ resources, ObjectId.ofText? entry = some id) →
      Admits resources (some ids)

/-- The entry is the first of the resources that names no identity, and the
wildcard is not among them. -/
structure Spoils (resources : List String) (entry : String) : Prop where
  unlisted : wildcard ∉ resources
  unnamed : ObjectId.ofText? entry = none
  first :
    ∃ earlier later,
      resources = earlier ++ entry :: later ∧
        ∀ other ∈ earlier, ∃ id, ObjectId.ofText? other = some id

theorem ofValues_eq_ok_iff {resources : List String} {ids : Option IdSet} :
    ofValues (resources.map .text) = .ok ids ↔ Admits resources ids := by
  unfold ofValues
  by_cases whole : wildcard ∈ resources
  · rw [if_pos ((Policy.listsWildcard_iff _).mpr whole)]
    constructor
    · rintro ⟨⟩
      exact .all whole
    · intro admits
      cases admits with
      | all _ =>
          rfl
      | listed unlisted _ _ _ =>
          exact absurd whole unlisted
  · rw [if_neg (mt (Policy.listsWildcard_iff _).mp whole)]
    constructor
    · intro read
      cases found : identities (resources.map .text) with
      | error fault =>
          rw [found] at read
          cases read
      | ok named =>
          rw [found] at read
          cases read
          refine .listed whole
            (exists_identities_texts_iff.mp ⟨named, found⟩)
            (IdSet.ascending_ofList named) fun id => ?_
          rw [IdSet.mem_ofList]
          exact mem_of_identities_texts found id
    · intro admits
      cases admits with
      | all listed =>
          exact absurd listed whole
      | listed _ named ascending members =>
          obtain ⟨found, read⟩ := exists_identities_texts_iff.mpr named
          rw [read]
          refine congrArg (Except.ok ∘ some) ?_
          apply (IdSet.ascending_ofList found).eq_of_mem_iff ascending
          intro id
          rw [IdSet.mem_ofList, mem_of_identities_texts read, members]

theorem identities_texts_eq_error_iff
    {resources : List String} {fault : Value} :
    identities (resources.map .text) = .error fault ↔
      ∃ entry earlier later,
        fault = .text entry ∧ ObjectId.ofText? entry = none ∧
          resources = earlier ++ entry :: later ∧
          ∀ other ∈ earlier, ∃ id, ObjectId.ofText? other = some id := by
  induction resources with
  | nil =>
      constructor
      · intro absurd
        cases absurd
      · rintro ⟨entry, earlier, later, -, -, split, -⟩
        simp at split
  | cons first rest inductionHypothesis =>
      simp only [List.map_cons, identities, Value.identity?]
      cases named : ObjectId.ofText? first with
      | none =>
          constructor
          · rintro ⟨⟩
            exact ⟨first, [], rest, rfl, named, rfl, by simp⟩
          · rintro ⟨entry, earlier, later, rfl, -, split, earlierNamed⟩
            cases earlier with
            | nil =>
                cases split
                rfl
            | cons other others =>
                cases split
                obtain ⟨id, read⟩ := earlierNamed first (by simp)
                rw [named] at read
                cases read
      | some id =>
          have passed :
              (identities (rest.map .text)).map (id :: ·) = .error fault ↔
                identities (rest.map .text) = .error fault := by
            cases identities (rest.map .text) <;> simp [Except.map]
          simp only [passed, inductionHypothesis]
          constructor
          · rintro ⟨entry, earlier, later, rfl, unnamed, rfl, earlierNamed⟩
            refine ⟨entry, first :: earlier, later, rfl, unnamed, rfl, ?_⟩
            intro other member
            rcases List.mem_cons.mp member with rfl | inEarlier
            · exact ⟨id, named⟩
            · exact earlierNamed other inEarlier
          · rintro ⟨entry, earlier, later, rfl, unnamed, split, earlierNamed⟩
            cases earlier with
            | nil =>
                cases split
                rw [named] at unnamed
                cases unnamed
            | cons other others =>
                cases split
                exact ⟨entry, others, later, rfl, unnamed, rfl,
                  fun other member =>
                    earlierNamed other (List.mem_cons_of_mem _ member)⟩

theorem ofValues_eq_error_iff {resources : List String} {fault : Value} :
    ofValues (resources.map .text) = .error fault ↔
      ∃ entry, fault = .text entry ∧ Spoils resources entry := by
  unfold ofValues
  by_cases whole : wildcard ∈ resources
  · rw [if_pos ((Policy.listsWildcard_iff _).mpr whole)]
    constructor
    · intro absurd
      cases absurd
    · rintro ⟨entry, -, spoils⟩
      exact absurd whole spoils.unlisted
  · rw [if_neg (mt (Policy.listsWildcard_iff _).mp whole)]
    have passed :
        (identities (resources.map .text)).map
              (fun ids => some (IdSet.ofList ids)) =
            .error fault ↔
          identities (resources.map .text) = .error fault := by
      cases identities (resources.map .text) <;> simp [Except.map]
    rw [passed, identities_texts_eq_error_iff]
    constructor
    · rintro ⟨entry, earlier, later, same, unnamed, split, earlierNamed⟩
      exact ⟨entry, same, whole, unnamed, earlier, later, split, earlierNamed⟩
    · rintro ⟨entry, same, -, unnamed, earlier, later, split, earlierNamed⟩
      exact ⟨entry, earlier, later, same, unnamed, split, earlierNamed⟩

/-- Neither the order of the entries nor how often they stand there matters. -/
theorem admits_congr
    {resources others : List String}
    (same : ∀ entry, entry ∈ others ↔ entry ∈ resources)
    (ids : Option IdSet) :
    Admits others ids ↔ Admits resources ids := by
  have kept {first second : List String} {ids : Option IdSet}
      (same : ∀ entry, entry ∈ first ↔ entry ∈ second)
      (admits : Admits first ids) : Admits second ids := by
    cases admits with
    | all listed =>
        exact .all ((same _).mp listed)
    | listed unlisted named ascending members =>
        refine .listed (mt (same _).mpr unlisted)
          (fun entry member => named entry ((same entry).mpr member))
          ascending fun id => ?_
        simp only [members, same]
  exact ⟨kept same, kept fun entry => (same entry).symm⟩

/-- A constraint can be made of the wildcard, and of entries that all name
identities. -/
theorem exists_admits_iff {resources : List String} :
    (∃ ids, Admits resources ids) ↔
      wildcard ∈ resources ∨
        ∀ entry ∈ resources, ∃ id, ObjectId.ofText? entry = some id := by
  constructor
  · rintro ⟨ids, admits⟩
    cases admits with
    | all listed =>
        exact Or.inl listed
    | listed _ named _ _ =>
        exact Or.inr named
  · intro possible
    by_cases whole : wildcard ∈ resources
    · exact ⟨none, .all whole⟩
    · have named := possible.resolve_left whole
      obtain ⟨found, read⟩ := exists_identities_texts_iff.mpr named
      refine ⟨some (IdSet.ofList found), .listed whole named
        (IdSet.ascending_ofList found) fun id => ?_⟩
      rw [IdSet.mem_ofList]
      exact mem_of_identities_texts read id

end ResourceConstraint

/-! ## Contributions -/

namespace Policy

/-- What an action of a policy contributes: its rule when the token is read and the
resources make a constraint, and otherwise the record of what was wrong first. -/
inductive Contributes (policy : Policy) (action : String) :
    Except LogRecord Rule → Prop
  | rule {target : Target} {ids : Option IdSet} :
      Action.parse action = .ok target →
      ResourceConstraint.Admits policy.resources ids →
      Contributes policy action
        (.ok
          ⟨policy.effect, target.subjectType, target.verb, ids,
            Condition.toValue policy.condition, .text policy.name⟩)
  | badAction {fault : Action.Fault} :
      Action.parse action = .error fault →
      Contributes policy action
        (.error
          ⟨.error, .compiler,
            s!"Error creating policy '{policy.name}': {fault.message}"⟩)
  | badResource {target : Target} {entry : String} :
      Action.parse action = .ok target →
      ResourceConstraint.Spoils policy.resources entry →
      Contributes policy action
        (.error
          ⟨.error, .compiler,
            s!"Error creating policy '{policy.name}' for action '{action}': " ++
              s!"invalid resource identifier {Text.quoted entry}"⟩)

section Outcome

variable {policy : Policy} {action : String}

theorem report_action (name : String) (fault : Action.Fault) :
    CompileFault.report (.text name) (.action fault) =
      ⟨.error, .compiler,
        s!"Error creating policy '{name}': {fault.message}"⟩ := by
  simp only [CompileFault.report, LogRecord.mk.injEq, true_and]
  apply String.toList_injective
  simp [Value.plain, toString]

theorem report_resource (name token entry : String) :
    CompileFault.report (.text name) (.resource (.text token) (.text entry)) =
      ⟨.error, .compiler,
        s!"Error creating policy '{name}' for action '{token}': " ++
          s!"invalid resource identifier {Text.quoted entry}"⟩ := by
  have shown : (Value.text entry).shown = (Text.quoted entry).toList := rfl
  have message :
      ResourceConstraint.message (.text entry) =
        "invalid resource identifier " ++ Text.quoted entry := by
    unfold ResourceConstraint.message
    rw [shown, String.ofList_toList]
  simp only [CompileFault.report, message, LogRecord.mk.injEq, true_and]
  apply String.toList_injective
  simp [Value.plain, toString]

theorem Contributes.outcome_eq
    {outcome : Except LogRecord Rule}
    (contributes : policy.Contributes action outcome) :
    policy.outcome action = outcome := by
  unfold Policy.outcome Policy.rule targetOf identitiesOf Action.ofValue
  cases contributes with
  | rule parsed admits =>
      simp only [parsed, ResourceConstraint.ofValues_eq_ok_iff.mpr admits]
      rfl
  | badAction unparsed =>
      simp only [unparsed, ← report_action]
      rfl
  | badResource parsed spoils =>
      have refused :=
        ResourceConstraint.ofValues_eq_error_iff.mpr ⟨_, rfl, spoils⟩
      simp only [parsed, refused, ← report_resource]
      rfl

/-- An action contributes one thing, and that is what is made of it. -/
theorem contributes_iff {outcome : Except LogRecord Rule} :
    policy.Contributes action outcome ↔ policy.outcome action = outcome := by
  constructor
  · exact Contributes.outcome_eq
  · rintro rfl
    cases parsed : Action.parse action with
    | error fault =>
        have bad :
            policy.Contributes action
              (.error
                ⟨.error, .compiler,
                  s!"Error creating policy '{policy.name}': {fault.message}"⟩) :=
          .badAction parsed
        rw [bad.outcome_eq]
        exact bad
    | ok target =>
        cases read :
            ResourceConstraint.ofValues (policy.resources.map .text) with
        | ok ids =>
            have good :=
              Contributes.rule parsed
                (ResourceConstraint.ofValues_eq_ok_iff.mp read)
            rw [good.outcome_eq]
            exact good
        | error fault =>
            obtain ⟨entry, -, spoils⟩ :=
              ResourceConstraint.ofValues_eq_error_iff.mp read
            have bad := Contributes.badResource parsed spoils
            rw [bad.outcome_eq]
            exact bad

/-- An action contributes a rule when its token is read, and the resources have the
wildcard or are all identities. -/
theorem exists_contributes_rule_iff :
    (∃ rule, policy.Contributes action (.ok rule)) ↔
      (∃ target, Action.parse action = .ok target) ∧
        (wildcard ∈ policy.resources ∨
          ∀ entry ∈ policy.resources,
            ∃ id, ObjectId.ofText? entry = some id) := by
  rw [← ResourceConstraint.exists_admits_iff]
  constructor
  · rintro ⟨rule, contributes⟩
    cases contributes with
    | rule parsed admits =>
        exact ⟨⟨_, parsed⟩, _, admits⟩
  · rintro ⟨⟨target, parsed⟩, ids, admits⟩
    exact ⟨_, .rule parsed admits⟩

/-- What rule an action contributes does not depend on the order of the resources or
on how often they stand there. -/
theorem contributes_rule_congr
    {others : List String}
    (same : ∀ entry, entry ∈ others ↔ entry ∈ policy.resources)
    (rule : Rule) :
    ({ policy with resources := others } : Policy).Contributes action
        (.ok rule) ↔
      policy.Contributes action (.ok rule) := by
  constructor
  · intro contributes
    cases contributes with
    | rule parsed admits =>
        exact .rule parsed
          ((ResourceConstraint.admits_congr same _).mp admits)
  · intro contributes
    let other : Policy := { policy with resources := others }
    cases contributes with
    | rule parsed admits =>
        have admitted : ResourceConstraint.Admits other.resources _ :=
          (ResourceConstraint.admits_congr same _).mpr admits
        exact .rule parsed admitted

end Outcome

/-- What is compiled is what the declared actions contribute, in their order. -/
theorem compile_eq_map_declared (policies : List Policy) :
    compile policies =
      (declared policies).map fun pair =>
        pair.policy.outcome pair.action := by
  have each (policy : Policy × Nat) :
      (policy.1.declaredBy policy.2).map
          (fun pair => pair.policy.outcome pair.action) =
        policy.1.outcomes := by
    unfold declaredBy outcomes
    conv =>
      rhs
      rw [← List.zipIdx_map_fst 0 policy.1.actions]
    rw [List.map_map, List.map_map]
    rfl
  unfold compile declared
  conv =>
    lhs
    rw [← List.zipIdx_map_fst 0 policies]
  rw [List.flatMap_map, List.map_flatMap]
  exact congrArg (List.flatMap · _) (funext fun policy => (each policy).symm)

theorem forall₂_contributes (policies : List Policy) :
    List.Forall₂
      (fun pair outcome => pair.policy.Contributes pair.action outcome)
      (declared policies) (compile policies) := by
  rw [compile_eq_map_declared, List.forall₂_map_right_iff, List.forall₂_same]
  intro pair _
  exact contributes_iff.mpr rfl

end Policy

/-- Each outcome is a rule or a report. -/
theorem length_rulesOf_add_length_reportsOf
    (outcomes : List (Except LogRecord Rule)) :
    (rulesOf outcomes).length + (reportsOf outcomes).length =
      outcomes.length := by
  induction outcomes with
  | nil =>
      rfl
  | cons outcome rest inductionHypothesis =>
      cases outcome with
      | ok rule =>
          have rules :
              rulesOf (.ok rule :: rest) = rule :: rulesOf rest := rfl
          have reports : reportsOf (.ok rule :: rest) = reportsOf rest := rfl
          rw [rules, reports, List.length_cons, List.length_cons]
          omega
      | error report =>
          have rules : rulesOf (.error report :: rest) = rulesOf rest := rfl
          have reports :
              reportsOf (.error report :: rest) =
                report :: reportsOf rest := rfl
          rw [rules, reports, List.length_cons, List.length_cons]
          omega

namespace Program

variable {α β : Type}

/-- Reports come before everything that is noted afterwards. -/
theorem run_logAll_bind
    (interfere : Command → Store → Store) (records : List LogRecord)
    (rest : Unit → Program β) (store : Store) :
    run interfere (logAll records >>= rest) store =
      { run interfere (rest ()) store with
        records := records ++ (run interfere (rest ()) store).records } := by
  induction records with
  | nil =>
      rfl
  | cons record others inductionHypothesis =>
      have step :
          run interfere (logAll (record :: others) >>= rest) store =
            { run interfere (logAll others >>= rest) store with
              records :=
                record ::
                  (run interfere (logAll others >>= rest) store).records } :=
        rfl
      rw [step, inductionHypothesis]
      rfl

end Program

/-- Compiling an ability gives the rules and logs the reports. -/
theorem Ability.run_compiled
    (policies : List Policy) (interfere : Command → Store → Store)
    (store : Store) :
    (compiled policies).run interfere store =
      ⟨.ok ⟨rulesOf (Policy.compile policies)⟩, store,
        reportsOf (Policy.compile policies), 0⟩ := by
  unfold compiled
  rw [Program.run_logAll_bind]
  simp only [Program.run, pure, List.append_nil]
  rfl

namespace Policy

/-- The compiled list has the contribution of each declared action in its place, and
nothing else: the rules become the ability, and the reports are logged.  Parts of a
list are compiled on their own, and a rule depends on what the resources name, not on
how they are listed. -/
theorem compile_accounts (policies more : List Policy) :
    List.Forall₂
        (fun pair outcome => pair.policy.Contributes pair.action outcome)
        (declared policies) (compile policies) ∧
      (∀ pair ∈ declared policies,
        (∃ rule, pair.policy.Contributes pair.action (.ok rule)) ↔
          (∃ target, Action.parse pair.action = .ok target) ∧
            (wildcard ∈ pair.policy.resources ∨
              ∀ entry ∈ pair.policy.resources,
                ∃ id, ObjectId.ofText? entry = some id)) ∧
      (rulesOf (compile policies)).length +
          (reportsOf (compile policies)).length =
        (policies.flatMap fun policy => policy.actions).length ∧
      (∀ interfere store,
        (Ability.compiled policies).run interfere store =
          ⟨.ok ⟨rulesOf (compile policies)⟩, store,
            reportsOf (compile policies), 0⟩) ∧
      (rulesOf (compile (policies ++ more)) =
          rulesOf (compile policies) ++ rulesOf (compile more) ∧
        reportsOf (compile (policies ++ more)) =
          reportsOf (compile policies) ++ reportsOf (compile more)) ∧
      ∀ policy ∈ policies, ∀ others : List String,
        (∀ entry, entry ∈ others ↔ entry ∈ policy.resources) →
          ∀ action rule,
            ({ policy with resources := others } : Policy).Contributes action
                (.ok rule) ↔
              policy.Contributes action (.ok rule) := by
  refine ⟨forall₂_contributes policies, ?_, ?_, ?_, ⟨?_, ?_⟩, ?_⟩
  · intro pair _
    exact exists_contributes_rule_iff
  · rw [length_rulesOf_add_length_reportsOf, length_compile]
  · exact Ability.run_compiled policies
  · rw [compile_append]
    exact List.filterMap_append
  · rw [compile_append]
    exact List.filterMap_append
  · intro policy _ others same action rule
    exact contributes_rule_congr same rule

/-- Of the actions of the first policy one has no readable token; the second policy
lists an entry that is no identity, and the third one, which has a condition, lists the
wildcard behind it. -/
def mixedPolicies : List Policy :=
  [⟨"write", .allow, ["Invoice:Create", "manage", "*:Read"],
      ["000000000001", "303030303030303030303031"], none⟩,
   ⟨"broken", .deny, ["*"], ["000000000001", "here", "there"], none⟩,
   ⟨"whole", .allow, ["Invoice:*"], ["here", "*"],
      some [("StringEquals", .record [("state", .text "open")])]⟩]

theorem mixedPolicies_accounted :
    List.Forall₂
        (fun pair outcome => pair.policy.Contributes pair.action outcome)
        (declared mixedPolicies) (compile mixedPolicies) ∧
      (rulesOf (compile mixedPolicies)).map
          (fun rule =>
            (rule.policyName.plain, rule.verb, rule.condition.plain)) =
        [("write", "Create", "None"), ("write", "Read", "None"),
          ("whole", "manage", "\x7b'StringEquals': \x7b'state': 'open'\x7d\x7d")] ∧
      (reportsOf (compile mixedPolicies)).map LogRecord.text =
        ["Error creating policy 'write': Malformed action",
          "Error creating policy 'broken' for action '*': " ++
            "invalid resource identifier 'here'"] := by
  refine ⟨(compile_accounts mixedPolicies []).1, ?_, ?_⟩
  · decide +kernel
  · decide +kernel

end Policy

end AccessControl
