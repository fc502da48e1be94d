import AccessControl.Proofs.Decision
import Mathlib.Tactic.Choose

/-!
# Which fields a decision reads

Of a resource a decision reads the fields that may hold its identity, and for each
path in a condition the field with the literal name of the path and the one that its
first segment names.  Two resources that have the same values there are decided
alike, by the same rule: `answers_of_alike`.
-/

namespace AccessControl

/-- The part of a path before its first dot, or all of it. -/
def firstSegment (path : String) : String :=
  String.ofList (path.toList.takeWhile (· != '.'))

namespace Fields

/-- The two records have the same value, or none, in each field that the path can be
looked up in. -/
structure AgreeOn (path : String) (one other : Fields) : Prop where
  literal : other.get? path = one.get? path
  nested : other.get? (firstSegment path) = one.get? (firstSegment path)

instance (path : String) (one other : Fields) :
    Decidable (AgreeOn path one other) :=
  decidable_of_iff
    (other.get? path = one.get? path ∧
      other.get? (firstSegment path) = one.get? (firstSegment path))
    ⟨fun agree => ⟨agree.1, agree.2⟩, fun agree => ⟨agree.1, agree.2⟩⟩

/-- Everything that follows the first segment is read from the value found there. -/
theorem AgreeOn.at?_eq
    {path : String} {one other : Fields} (agree : AgreeOn path one other) :
    other.at? path = one.at? path := by
  obtain ⟨rest, split⟩ := exists_segments_eq_cons path.toList
  have nested := agree.nested
  unfold firstSegment at nested
  unfold at?
  rw [agree.literal, split, List.map_cons]
  simp only [Value.follow, nested]

theorem identity?_congr
    {one other : Fields}
    (sameId : other.get? "_id" = one.get? "_id")
    (samePlainId : other.get? "id" = one.get? "id") :
    other.identity? = one.identity? := by
  unfold identity? identityAt?
  rw [sameId, samePlainId]

end Fields

namespace Condition

/-- The paths that the condition has expectations of. -/
def paths (condition : Condition) : List String :=
  condition.flatMap fun entry =>
    match entry.2 with
    | .record expectations => Fields.names expectations
    | _ => []

theorem mem_paths
    {condition : Condition} {entry : String × Value}
    (member : entry ∈ condition) {expectations : Fields}
    (recorded : entry.2 = .record expectations)
    {expectation : String × Value} (among : expectation ∈ expectations) :
    expectation.1 ∈ condition.paths := by
  refine List.mem_flatMap.mpr ⟨entry, member, ?_⟩
  rw [recorded]
  exact List.mem_map_of_mem among

theorem Met.of_agreeOn
    {condition : Condition} {one other : Fields}
    (agree : ∀ path ∈ condition.paths, Fields.AgreeOn path one other)
    (met : condition.Met one) :
    condition.Met other := by
  intro entry member
  obtain ⟨operator, expectations, known, recorded, fulfilled⟩ :=
    met entry member
  refine ⟨operator, expectations, known, recorded, ?_⟩
  intro expectation among
  obtain ⟨actual, found, related⟩ := fulfilled expectation among
  have sameValue :=
    (agree expectation.1 (mem_paths member recorded among)).at?_eq
  exact ⟨actual, sameValue.trans found, related⟩

end Condition

namespace Policy

/-- The paths in the condition of the policy, if it has one. -/
def paths (policy : Policy) : List String :=
  policy.condition.elim [] Condition.paths

/-- Two resources that no question to these policies should tell apart: they agree in
the fields that may hold an identity and in what every path can be looked up in. -/
structure Alike (policies : List Policy) (one other : Fields) : Prop where
  id : other.get? "_id" = one.get? "_id"
  plainId : other.get? "id" = one.get? "id"
  paths :
    ∀ policy ∈ policies, ∀ path ∈ policy.paths,
      Fields.AgreeOn path one other

theorem Alike.symm
    {policies : List Policy} {one other : Fields}
    (alike : Alike policies one other) :
    Alike policies other one :=
  ⟨alike.id.symm, alike.plainId.symm, fun policy member path among =>
    have agree := alike.paths policy member path among
    ⟨agree.literal.symm, agree.nested.symm⟩⟩

theorem Alike.holds_eq
    {policies : List Policy} {one other : Fields}
    (alike : Alike policies one other)
    {policy : Policy} (member : policy ∈ policies)
    (accepted : policy.Accepted) :
    Condition.holds (Condition.toValue policy.condition) (.record other) =
      Condition.holds (Condition.toValue policy.condition)
        (.record one) := by
  have metBy
      {first second : Fields} (alike : Alike policies first second)
      (met : ∀ entries ∈ policy.condition, entries.Met first) :
      ∀ entries ∈ policy.condition, entries.Met second := by
    intro entries held
    apply Condition.Met.of_agreeOn _ (met entries held)
    intro path among
    apply alike.paths policy member
    unfold Policy.paths
    rw [Option.mem_def.mp held]
    exact among
  obtain ⟨met, decided, meaning⟩ :=
    Condition.holds_iff accepted.condition_shaped (some one)
  obtain ⟨otherMet, otherDecided, otherMeaning⟩ :=
    Condition.holds_iff accepted.condition_shaped (some other)
  have same : otherMet = met := by
    rw [Bool.eq_iff_iff, otherMeaning, meaning]
    exact ⟨metBy alike.symm, metBy alike⟩
  have decidedOne :
      Condition.holds (Condition.toValue policy.condition) (.record one) =
        .ok met := decided
  rw [decidedOne, ← same]
  exact otherDecided

/-- Two resources that agree in the fields that may hold an identity, and in what the
paths of the conditions can be looked up in, are decided by the same rule with the same
answer, and a list keeps either both of them or none. -/
theorem answers_of_alike
    {policies : List Policy}
    (accepted : ∀ policy ∈ policies, policy.Accepted)
    {one other : Fields} (alike : Alike policies one other)
    (verb subjectType : String) :
    ∃ found : Fields → Option (Rule × Nat), ∃ allowed : Fields → Bool,
      (∀ resource,
        let query : Query := ⟨verb, subjectType, .record resource⟩
        (Ability.ofPolicies policies).relevant? query =
            .ok (found resource) ∧
          (Ability.ofPolicies policies).can query =
            .ok (allowed resource)) ∧
        (∀ resources : List Fields,
          (Ability.ofPolicies policies).filter verb subjectType
              Value.record resources =
            .ok (resources.filter allowed)) ∧
        found other = found one ∧ allowed other = allowed one := by
  have searching (resource : Fields) :=
    relevant?_ofPolicies accepted verb subjectType (some resource)
  choose found searched _ using searching
  have decided (resource : Fields) :
      (Ability.ofPolicies policies).can
          ⟨verb, subjectType, .record resource⟩ =
        .ok ((found resource).any (·.1.effect == .allow)) :=
    Ability.can_of_relevant? (searched resource)
  have sameIdentity :
      (Value.record other).resourceIdentity =
        (Value.record one).resourceIdentity := by
    have identified (resource : Fields) :
        (Value.record resource).resourceIdentity =
          .ok resource.identity? :=
      Value.resourceIdentity_ofResource (some resource)
    rw [identified, identified,
      Fields.identity?_congr alike.id alike.plainId]
  have sameSearch :=
    Ability.relevant?_congr sameIdentity
      (fun policy member => alike.holds_eq member (accepted policy member))
      verb subjectType
  have sameFound : found other = found one :=
    Except.ok.inj
      ((searched other).symm.trans (sameSearch.trans (searched one)))
  exact
    ⟨found, fun resource => (found resource).any (·.1.effect == .allow),
      fun resource => ⟨searched resource, decided resource⟩,
      fun resources => Ability.filter_of_can fun resource _ =>
        decided resource,
      sameFound,
      congrArg (fun rule => rule.any (·.1.effect == .allow)) sameFound⟩

/-- One asks for the team of the owner, the other one for a flag under a literal name
with a dot. -/
def recordPolicies : List Policy :=
  [⟨"team", .allow, ["Record:*"], ["*"],
    some [("StringEquals", .record [("owner.team", .text "core")])]⟩,
   ⟨"sealed", .deny, ["*:Delete", "Record"], ["*"],
    some [("Bool", .record [("state.sealed", .boolean true)])]⟩]

/-- A record with a colour. -/
def redRecord : Fields :=
  [("_id", .text "303030303030303030303031"),
    ("owner", .record [("team", .text "core")]),
    ("state.sealed", .boolean true), ("colour", .text "red")]

/-- It has a size instead, and the same owner. -/
def largeRecord : Fields :=
  [("size", .number (.integer 7)), ("state.sealed", .boolean true),
    ("owner", .record [("team", .text "core")]),
    ("_id", .text "303030303030303030303031")]

theorem recordPolicies_alike :
    (∀ policy ∈ recordPolicies, policy.Accepted) ∧
      Alike recordPolicies redRecord largeRecord ∧
      (Ability.ofPolicies recordPolicies).can
          ⟨"Read", "Record", .record largeRecord⟩ =
        .ok true ∧
      (Ability.ofPolicies recordPolicies).filter "Read" "Record"
          Value.record [redRecord, largeRecord] =
        .ok [redRecord, largeRecord] := by
  have accepted : ∀ policy ∈ recordPolicies, policy.Accepted := by
    decide
  have alike : Alike recordPolicies redRecord largeRecord :=
    ⟨rfl, rfl, by decide⟩
  obtain ⟨found, allowed, answered, kept, -, sameAnswer⟩ :=
    answers_of_alike accepted alike "Read" "Record"
  have answeredRed :
      (Ability.ofPolicies recordPolicies).can
        ⟨"Read", "Record", .record redRecord⟩ = .ok true := rfl
  have allowedRed : allowed redRecord = true :=
    Except.ok.inj ((answered redRecord).2.symm.trans answeredRed)
  have allowedLarge : allowed largeRecord = true :=
    sameAnswer.trans allowedRed
  refine ⟨accepted, alike, ?_, ?_⟩
  · rw [(answered largeRecord).2, allowedLarge]
  · rw [kept, List.filter_cons_of_pos allowedRed,
      List.filter_cons_of_pos allowedLarge, List.filter_nil]

end Policy

end AccessControl
