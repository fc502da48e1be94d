import AccessControl.Proofs.Decision
import AccessControl.Proofs.Endpoint

/-!
# Spellings of an identifier

The 24 digits of an identifier can be written in either case.  A policy in a path
is looked up first, and what is decided then does not depend on how it was
spelled.  A principal in a path is decided on as it was spelled: the resources of
a policy are compared with the identifier, but a condition on the field `_id`
sees the text.  So the decision is the same for two spellings of a principal
unless a condition of the caller's policies expects one of them:
`finish_serve_of_respells`.
-/

namespace AccessControl

/-- Both texts are the digits of the same identifier. -/
def ObjectId.Respells (first second : String) : Prop :=
  ∃ id, ObjectId.ofHex? first = some id ∧ ObjectId.ofHex? second = some id

/-- A text with a dot has at least two parts. -/
theorem exists_segments_cons_cons
    {text : List Char} (dotted : text.contains '.' = true) :
    ∃ first second rest, segments text = first :: second :: rest := by
  induction text with
  | nil =>
      cases dotted
  | cons c rest inductionHypothesis =>
      unfold segments
      by_cases dot : c = '.'
      · obtain ⟨others, split⟩ := exists_segments_eq_cons rest
        rw [if_pos dot, split]
        exact ⟨_, _, _, rfl⟩
      · have later : rest.contains '.' = true := by
          rw [List.contains_cons, Bool.or_eq_true] at dotted
          rcases dotted with here | there
          · exact absurd (beq_iff_eq.mp here).symm dot
          · exact there
        obtain ⟨first, second, others, split⟩ := inductionHypothesis later
        rw [if_neg dot, split]
        exact ⟨_, _, _, rfl⟩

namespace Fields

theorem get?_singleton (name : String) (value : Value) (other : String) :
    get? [(name, value)] other = if other = name then some value else none := by
  unfold get?
  rw [List.lookup_cons, List.lookup_nil]
  by_cases named : other = name
  · rw [if_pos named, beq_iff_eq.mpr named]
  · rw [if_neg named, beq_eq_false_iff_ne.mpr named]

/-- Of a record with a text as its only field, a path names this field or nothing. -/
theorem at?_singleton_text (name text path : String) :
    at? [(name, .text text)] path =
      if path = name then some (.text text) else none := by
  unfold at?
  rw [get?_singleton]
  by_cases named : path = name
  · rw [if_pos named]
  · rw [if_neg named]
    by_cases dotted : path.toList.contains '.' = true
    · obtain ⟨first, second, rest, split⟩ := exists_segments_cons_cons dotted
      simp only [if_pos dotted, split, List.map_cons, Value.follow,
        get?_singleton]
      by_cases inner : String.ofList first = name
      · rw [if_pos inner]
        rfl
      · rw [if_neg inner]
    · simp only [if_neg dotted]

end Fields

namespace Operator

/-- An expectation that is neither of two texts does not tell them apart. -/
theorem relates_texts
    (operator : Operator) {first second : String} {expected : Value}
    (notFirst : expected ≠ .text first) (notSecond : expected ≠ .text second) :
    operator.relates (.text first) expected =
      operator.relates (.text second) expected := by
  cases expected with
  | text text =>
      have firstDiffers : (first == text) = false :=
        beq_eq_false_iff_ne.mpr fun same => notFirst (same ▸ rfl)
      have secondDiffers : (second == text) = false :=
        beq_eq_false_iff_ne.mpr fun same => notSecond (same ▸ rfl)
      cases operator <;> simp only [relates, bne, firstDiffers, secondDiffers]
  | _ =>
      cases operator <;> rfl

end Operator

namespace Condition

/-- Some operator expects this text of the field `_id`. -/
def Expects (condition : Condition) (text : String) : Prop :=
  ∃ entry ∈ condition, ∃ expectations,
    entry.2 = .record expectations ∧
      ("_id", Value.text text) ∈ expectations

/-- The same, as it is looked for in one operator after the other. -/
def expectsAny (condition : Condition) (text : String) : Bool :=
  condition.any fun entry =>
    match entry.2 with
    | .record expectations =>
        expectations.any fun expectation =>
          expectation.1 == "_id" && (Value.text text).same expectation.2
    | _ => false

theorem expectsAny_iff {condition : Condition} {text : String} :
    condition.expectsAny text = true ↔ condition.Expects text := by
  unfold expectsAny Expects
  rw [List.any_eq_true]
  refine exists_congr fun entry => and_congr_right fun member => ?_
  cases entry.2 with
  | record expectations =>
      simp only [List.any_eq_true, Bool.and_eq_true, beq_iff_eq,
        Value.text_same_iff, Value.record.injEq, exists_eq_left']
      constructor
      · rintro ⟨⟨path, expected⟩, inside, rfl, rfl⟩
        exact inside
      · intro inside
        exact ⟨_, inside, rfl, rfl⟩
  | _ =>
      simp

instance (condition : Condition) (text : String) :
    Decidable (condition.Expects text) :=
  decidable_of_iff _ expectsAny_iff

variable {first second : String}

theorem meets_spelled
    (operator : Operator) {expectations : Fields}
    (notFirst : ("_id", .text first) ∉ expectations)
    (notSecond : ("_id", .text second) ∉ expectations) :
    meets operator (.record [("_id", .text first)]) expectations =
      meets operator (.record [("_id", .text second)]) expectations := by
  induction expectations with
  | nil =>
      rfl
  | cons expectation rest inductionHypothesis =>
      obtain ⟨path, expected⟩ := expectation
      rw [List.mem_cons, not_or] at notFirst notSecond
      have later := inductionHypothesis notFirst.2 notSecond.2
      unfold meets
      rw [Value.lookUp_record, Value.lookUp_record,
        Fields.at?_singleton_text, Fields.at?_singleton_text, later]
      by_cases named : path = "_id"
      · have unexpected (text : String)
            (missed : ("_id", Value.text text) ≠ (path, expected)) :
            expected ≠ .text text := by
          rintro rfl
          exact missed (by rw [named])
        have related :=
          operator.relates_texts (unexpected first notFirst.1)
            (unexpected second notSecond.1)
        simp only [if_pos named, bind, Except.bind, related]
      · rw [if_neg named, if_neg named]

theorem satisfied_spelled
    {condition : Condition}
    (notFirst : ¬ condition.Expects first)
    (notSecond : ¬ condition.Expects second) :
    satisfied (.record [("_id", .text first)]) condition =
      satisfied (.record [("_id", .text second)]) condition := by
  induction condition with
  | nil =>
      rfl
  | cons entry rest inductionHypothesis =>
      obtain ⟨name, held⟩ := entry
      have below {text : String}
          (unexpected : ¬ Expects ((name, held) :: rest) text) :
          (∀ expectations, held = .record expectations →
            ("_id", .text text) ∉ expectations) ∧ ¬ Expects rest text := by
        constructor
        · intro expectations recorded inside
          exact unexpected
            ⟨(name, held), List.mem_cons_self .., expectations, recorded,
              inside⟩
        · rintro ⟨entry, member, expected⟩
          exact unexpected
            ⟨entry, List.mem_cons_of_mem _ member, expected⟩
      obtain ⟨firstHere, firstLater⟩ := below notFirst
      obtain ⟨secondHere, secondLater⟩ := below notSecond
      have later := inductionHypothesis firstLater secondLater
      unfold satisfied
      cases Operator.ofName? name with
      | none =>
          rfl
      | some operator =>
          cases held with
          | record expectations =>
              have same :=
                meets_spelled operator (firstHere _ rfl) (secondHere _ rfl)
              simp only [same, later]
          | _ =>
              rfl

end Condition

/-- The condition of the policy expects this text of the field `_id`. -/
def Policy.Expects (policy : Policy) (text : String) : Prop :=
  ∃ condition ∈ policy.condition, condition.Expects text

instance (policy : Policy) (text : String) :
    Decidable (policy.Expects text) :=
  match held : policy.condition with
  | none =>
      .isFalse (by simp [Policy.Expects, held])
  | some condition =>
      decidable_of_iff (condition.Expects text) (by
        simp [Policy.Expects, held])

theorem Policy.holds_spelled
    {policy : Policy} {first second : String}
    (notFirst : ¬ policy.Expects first)
    (notSecond : ¬ policy.Expects second) :
    Condition.holds (Condition.toValue policy.condition)
        (.record [("_id", .text first)]) =
      Condition.holds (Condition.toValue policy.condition)
        (.record [("_id", .text second)]) := by
  cases held : policy.condition with
  | none =>
      rfl
  | some condition =>
      have unexpected {text : String} (missed : ¬ policy.Expects text) :
          ¬ condition.Expects text :=
        fun expected => missed ⟨condition, held, expected⟩
      exact
        Condition.satisfied_spelled (unexpected notFirst)
          (unexpected notSecond)

/-! ## Decisions on a spelled identifier -/

namespace Ability

/-- Two spellings of an identifier that no condition expects are decided alike. -/
theorem can_spelled
    {policies : List Policy} {first second : String}
    (respells : ObjectId.Respells first second)
    (unexpected :
      ∀ policy ∈ policies,
        ¬ policy.Expects first ∧ ¬ policy.Expects second)
    (verb subjectType : String) :
    (ofPolicies policies).can
        ⟨verb, subjectType, .record [("_id", .text first)]⟩ =
      (ofPolicies policies).can
        ⟨verb, subjectType, .record [("_id", .text second)]⟩ := by
  obtain ⟨id, readFirst, readSecond⟩ := respells
  have identified {text : String} (read : ObjectId.ofHex? text = some id) :
      (Value.record [("_id", .text text)]).resourceIdentity =
        .ok (some id) := by
    have known :
        (Value.text text).identity? = some id :=
      ObjectId.ofText?_of_ofHex? read
    have resource :
        Value.record [("_id", .text text)] =
          Value.ofResource (some [("_id", .text text)]) := rfl
    rw [resource, Value.resourceIdentity_ofResource]
    simp [Fields.identity?, Fields.identityAt?, Fields.get?_singleton, known]
  have sameIdentity :=
    (identified readFirst).trans (identified readSecond).symm
  have holdsAlike :
      ∀ policy ∈ policies,
        Condition.holds (Condition.toValue policy.condition)
            (.record [("_id", .text first)]) =
          Condition.holds (Condition.toValue policy.condition)
            (.record [("_id", .text second)]) := by
    intro policy member
    obtain ⟨notFirst, notSecond⟩ := unexpected policy member
    exact policy.holds_spelled notFirst notSecond
  unfold can
  rw [relevant?_congr sameIdentity holdsAlike]

end Ability

theorem ObjectId.Respells.exists_recordId?
    {first second : String} (respells : ObjectId.Respells first second) :
    ∃ id,
      (Value.text first).recordId? = some id ∧
        (Value.text second).recordId? = some id :=
  respells

namespace Registry

theorem requireId_respelled
    {first second : String} (respells : ObjectId.Respells first second)
    (subject : String) :
    requireId subject (.text first) = requireId subject (.text second) := by
  obtain ⟨id, readFirst, readSecond⟩ := respells.exists_recordId?
  unfold requireId
  rw [readFirst, readSecond]

variable {tenant : Tenant} {first second : String}

theorem get_respelled (respells : ObjectId.Respells first second) :
    get tenant (.text first) = get tenant (.text second) := by
  unfold get
  rw [requireId_respelled respells]

theorem update_respelled
    (respells : ObjectId.Respells first second)
    (now : Except Clock.Fault Timestamp) (changes : Value) :
    update tenant now (.text first) changes =
      update tenant now (.text second) changes := by
  unfold update
  rw [requireId_respelled respells]

/-- Only the note about a deleted policy shows how it was spelled. -/
theorem finish_delete_respelled
    (respells : ObjectId.Respells first second) (store : Store) :
    Program.finish Program.undisturbed (delete tenant (.text first)) store =
      Program.finish Program.undisturbed (delete tenant (.text second))
        store := by
  obtain ⟨id, readFirst, readSecond⟩ := respells.exists_recordId?
  rw [Operation.finish_delete tenant store readFirst,
    Operation.finish_delete tenant store readSecond]

theorem attach_respelled
    (respells : ObjectId.Respells first second)
    {policy other : String} (policyRespells : ObjectId.Respells policy other) :
    attach tenant (.text first) (.text policy) =
      attach tenant (.text second) (.text other) := by
  unfold attach
  rw [requireId_respelled respells, requireId_respelled policyRespells]

theorem detach_respelled
    (respells : ObjectId.Respells first second)
    {policy other : String} (policyRespells : ObjectId.Respells policy other) :
    detach tenant (.text first) (.text policy) =
      detach tenant (.text second) (.text other) := by
  unfold detach
  rw [requireId_respelled respells, requireId_respelled policyRespells]

end Registry

/-! ## Endpoints that are reached by a spelling -/

namespace Http

namespace Call

variable {call : Call} {first second : String}

theorem getPolicy_respelled (respells : ObjectId.Respells first second) :
    call.getPolicy first = call.getPolicy second := by
  unfold getPolicy
  rw [Registry.get_respelled respells]

theorem updatePolicy_respelled (respells : ObjectId.Respells first second) :
    call.updatePolicy first = call.updatePolicy second := by
  unfold updatePolicy
  simp only [Registry.get_respelled respells,
    Registry.update_respelled respells]

theorem finish_deletePolicy_respelled
    (respells : ObjectId.Respells first second) (store : Store) :
    Program.finish Program.undisturbed (call.deletePolicy first) store =
      Program.finish Program.undisturbed (call.deletePolicy second) store := by
  unfold deletePolicy
  simp only [Registry.get_respelled respells, Program.finish_bind,
    Registry.finish_delete_respelled respells]

/-- The checkpoint treats two spellings of a principal alike that no policy of the
caller expects. -/
theorem finish_demand_respelled
    {policies : List Policy}
    (compiled : call.ability = Ability.ofPolicies policies)
    (respells : ObjectId.Respells first second)
    (unexpected :
      ∀ policy ∈ policies,
        ¬ policy.Expects first ∧ ¬ policy.Expects second)
    (verb : String) (store : Store) :
    Program.finish Program.undisturbed
        (call.demand verb principalSubject (principalResource first)) store =
      Program.finish Program.undisturbed
        (call.demand verb principalSubject (principalResource second))
        store := by
  have decided :=
    Ability.can_spelled respells unexpected verb principalSubject
  unfold demand principalResource
  rw [Ability.finish_demand, Ability.finish_demand, compiled, decided]

end Call

namespace Endpoint

/-- The same endpoint with other spellings of the identifiers in its path. -/
inductive Respells : Endpoint → Endpoint → Prop
  | get {first second : String} :
      ObjectId.Respells first second →
      Respells (getPolicy first) (getPolicy second)
  | update {first second : String} :
      ObjectId.Respells first second →
      Respells (updatePolicy first) (updatePolicy second)
  | delete {first second : String} :
      ObjectId.Respells first second →
      Respells (deletePolicy first) (deletePolicy second)
  | attach {first second policy other : String} :
      ObjectId.Respells first second → ObjectId.Respells policy other →
      Respells (attachPolicy first policy) (attachPolicy second other)
  | detach {first second policy other : String} :
      ObjectId.Respells first second → ObjectId.Respells policy other →
      Respells (detachPolicy first policy) (detachPolicy second other)

/-- The texts of its path that the endpoint shows to the conditions of policies. -/
def shown : Endpoint → List String
  | attachPolicy principal _ => [principal]
  | detachPolicy principal _ => [principal]
  | _ => []

/-- Some policy expects a text that the endpoint shows. -/
def IsExpected (endpoint : Endpoint) (policies : List Policy) : Prop :=
  ∃ policy ∈ policies, ∃ text ∈ endpoint.shown, policy.Expects text

instance (endpoint : Endpoint) (policies : List Policy) :
    Decidable (endpoint.IsExpected policies) :=
  inferInstanceAs (Decidable (∃ policy ∈ policies, _))

variable {first second : Endpoint}

theorem finish_act_of_respells
    (respells : first.Respells second) {call : Call} {policies : List Policy}
    (compiled : call.ability = Ability.ofPolicies policies)
    (notFirst : ¬ first.IsExpected policies)
    (notSecond : ¬ second.IsExpected policies) (store : Store) :
    Program.finish Program.undisturbed (first.act call) store =
      Program.finish Program.undisturbed (second.act call) store := by
  have unexpected
      {principal other : String}
      (among : principal ∈ first.shown) (amongOther : other ∈ second.shown) :
      ∀ policy ∈ policies,
        ¬ policy.Expects principal ∧ ¬ policy.Expects other :=
    fun policy member =>
      ⟨fun expected => notFirst ⟨policy, member, _, among, expected⟩,
        fun expected => notSecond ⟨policy, member, _, amongOther, expected⟩⟩
  cases respells with
  | get same =>
      exact congrArg (Program.finish _ · store) (Call.getPolicy_respelled same)
  | update same =>
      exact
        congrArg (Program.finish _ · store) (Call.updatePolicy_respelled same)
  | delete same =>
      exact Call.finish_deletePolicy_respelled same store
  | attach same samePolicy =>
      have asked :=
        Call.finish_demand_respelled compiled same
          (unexpected (List.mem_singleton_self _) (List.mem_singleton_self _))
          "AttachPolicy" store
      simp only [act, Call.attachPolicy]
      rw [Program.finish_bind, Program.finish_bind, asked,
        Registry.attach_respelled same samePolicy]
  | detach same samePolicy =>
      have asked :=
        Call.finish_demand_respelled compiled same
          (unexpected (List.mem_singleton_self _) (List.mem_singleton_self _))
          "DetachPolicy" store
      simp only [act, Call.detachPolicy]
      rw [Program.finish_bind, Program.finish_bind, asked,
        Registry.detach_respelled same samePolicy]

/-- An endpoint decides, answers and leaves the same for all spellings of the
identifiers in its path, unless it shows a spelling to the conditions that one of
the caller's policies expects. -/
theorem finish_serve_of_respells
    (respells : first.Respells second) {claimant : Claimant} {store : Store}
    (unexpected :
      ∀ tenant policies,
        Tenant.ofValue claimant.unit = .ok tenant →
          (Program.run Program.undisturbed
              (Registry.effective tenant claimant.principal) store).result =
            .ok policies →
          ¬ first.IsExpected policies ∧ ¬ second.IsExpected policies)
    (stamp : Stamp) (body : Body) :
    Program.finish Program.undisturbed (first.serve claimant stamp body)
        store =
      Program.finish Program.undisturbed (second.serve claimant stamp body)
        store := by
  unfold serve
  rw [Program.finish_bind, Program.finish_bind]
  cases resolved :
      Program.finish Program.undisturbed claimant.ability store with
  | mk result left =>
      cases result with
      | error failure =>
          rfl
      | ok ability =>
          obtain ⟨tenant, policies, -, -, valid, loaded, compiled⟩ :=
            Claimant.policies_of_finish_ability resolved
          obtain ⟨notFirst, notSecond⟩ :=
            unexpected tenant policies valid loaded
          simp only [Program.finish_bind]
          cases Program.finish Program.undisturbed claimant.tenant left with
          | mk found last =>
              cases found with
              | error failure =>
                  rfl
              | ok tenant =>
                  exact
                    finish_act_of_respells respells compiled notFirst
                      notSecond last

end Endpoint

def lowerSpelling : String := "abcdefabcdefabcdefabcdef"

def upperSpelling : String := "ABCDEFABCDEFABCDEFABCDEF"

/-- Denies everybody to attach a policy to the principal with this spelling. -/
def lockPolicy (spelling : String) : Policy :=
  ⟨"lock", .deny, ["Principal:AttachPolicy"], ["*"],
    some [("StringEquals", .record [("_id", .text spelling)])]⟩

def clerkPolicy : Policy :=
  ⟨"everything", .allow, ["*"], ["*"], none⟩

def clerk : Claimant :=
  ⟨.text "000000000000000000000003", .text "office"⟩

def clerkTenant : Tenant := ⟨"office", "office"⟩

/-- A clerk may do everything but attach policies to the locked spelling. -/
def clerkStore (locked : String) : Store :=
  ⟨[("office_policies",
      [("_id", .id (.numbered 1)) :: clerkPolicy.dump,
       ("_id", .id (.numbered 2)) :: (lockPolicy locked).dump]),
    ("office_users",
      [[("_id", .id (.numbered 3)),
        ("policies", .list [.id (.numbered 1), .id (.numbered 2)])],
       [("_id",
          .id ⟨[0xab, 0xcd, 0xef, 0xab, 0xcd, 0xef,
            0xab, 0xcd, 0xef, 0xab, 0xcd, 0xef], rfl⟩)]])]⟩

/-- The clerk attaches the first policy to the principal. -/
def clerkAttaches (locked spelling : String) :
    Except Failure Response × Store :=
  Program.finish Program.undisturbed
    ((Endpoint.attachPolicy spelling "000000000000000000000001").serve clerk
      ⟨.ok ⟨1704067200000000, none⟩, .numbered 4⟩ .absent)
    (clerkStore locked)

theorem lowerSpelling_respells :
    ObjectId.Respells lowerSpelling upperSpelling :=
  ⟨⟨[0xab, 0xcd, 0xef, 0xab, 0xcd, 0xef, 0xab, 0xcd, 0xef, 0xab, 0xcd, 0xef],
    rfl⟩, by decide +kernel, by decide +kernel⟩

/-- What is denied for one spelling of a principal is done for the other one. -/
theorem lockedSpelling_evaded :
    (clerkAttaches lowerSpelling lowerSpelling).1.toOption.isSome = false ∧
      (clerkAttaches lowerSpelling upperSpelling).1.toOption.isSome =
        true := by
  decide +kernel

/-- Where another principal is locked, both spellings are let through alike. -/
theorem unlockedSpelling_alike :
    (clerkAttaches "000000000000000000000003"
        lowerSpelling).1.toOption.isSome = true ∧
      clerkAttaches "000000000000000000000003" lowerSpelling =
        clerkAttaches "000000000000000000000003" upperSpelling := by
  refine ⟨by decide +kernel, ?_⟩
  refine
    Endpoint.finish_serve_of_respells
      (.attach lowerSpelling_respells
        ⟨.numbered 1, by decide +kernel, by decide +kernel⟩) ?_ _ _
  intro tenant policies valid loaded
  have own : Tenant.ofValue clerk.unit = .ok clerkTenant := by
    rfl
  have same : clerkTenant = tenant := Except.ok.inj (own.symm.trans valid)
  subst same
  have checked :
      (Program.run Program.undisturbed
        (Registry.effective clerkTenant clerk.principal)
        (clerkStore "000000000000000000000003")).result.toOption.all
          (fun policies =>
            [lowerSpelling, upperSpelling].all fun spelling =>
              decide (¬ (Endpoint.attachPolicy spelling
                "000000000000000000000001").IsExpected policies)) =
        true := by
    decide +kernel
  rw [loaded] at checked
  simp only [Except.toOption, Option.all_some, List.all_cons, List.all_nil,
    Bool.and_true, Bool.and_eq_true, decide_eq_true_eq] at checked
  exact checked

end Http

end AccessControl
