import AccessControl.Proofs.Acceptance
import Mathlib.Tactic.ByContra

/-!
# Documented policies

What a document of a policy has to be, told by the names of the operators and the kinds of
values without the checks that are made.  The documents that are accepted are just these:
`Policy.exists_ofFields_eq_ok_iff`.
-/

namespace AccessControl

namespace Value

def IsText (value : Value) : Prop :=
  ∃ text, value = .text text

def IsList (value : Value) : Prop :=
  ∃ items, value = .list items

def IsRecord (value : Value) : Prop :=
  ∃ fields, value = .record fields

@[simp]
theorem isText_text (text : String) : (Value.text text).IsText :=
  ⟨text, rfl⟩

@[simp]
theorem isList_list (items : List Value) : (Value.list items).IsList :=
  ⟨items, rfl⟩

@[simp]
theorem isRecord_record (fields : Fields) : (Value.record fields).IsRecord :=
  ⟨fields, rfl⟩

/-- A list of texts in which something stands. -/
def IsTexts (value : Value) : Prop :=
  ∃ items, value = .list items ∧ items ≠ [] ∧ ∀ item ∈ items, item.IsText

theorem isTexts_iff {value : Value} :
    value.IsTexts ↔ ∃ found, value = .texts found ∧ found ≠ [] := by
  constructor
  · rintro ⟨items, rfl, filled, each⟩
    obtain ⟨found, rfl⟩ : ∃ found : List String, items = found.map .text := by
      clear filled
      induction items with
      | nil =>
          exact ⟨[], rfl⟩
      | cons first rest inductionHypothesis =>
          obtain ⟨text, rfl⟩ := each first List.mem_cons_self
          obtain ⟨others, rfl⟩ :=
            inductionHypothesis fun item member =>
              each item (List.mem_cons_of_mem _ member)
          exact ⟨text :: others, rfl⟩
    exact ⟨found, rfl, mt List.map_eq_nil_iff.mpr filled⟩
  · rintro ⟨found, rfl, filled⟩
    refine ⟨found.map .text, rfl, mt List.map_eq_nil_iff.mp filled, ?_⟩
    intro item member
    obtain ⟨text, -, rfl⟩ := List.mem_map.mp member
    exact isText_text text

end Value

namespace Condition

def textOperators : List String :=
  ["StringEquals", "StringNotEquals"]

def numberOperators : List String :=
  ["NumberEquals", "NumberNotEquals", "NumberGreaterThan",
   "NumberGreaterThanEquals", "NumberLessThan", "NumberLessThanEquals"]

def operatorNames : List String :=
  textOperators ++ numberOperators ++ ["Bool"]

/-- The value is of the kind that the name of its operator tells; a boolean is no
number. -/
inductive Suits : String → Value → Prop
  | text {operator : String} (text : String) :
      operator ∈ textOperators → Suits operator (.text text)
  | number {operator : String} (number : Number) :
      operator ∈ numberOperators → Suits operator (.number number)
  | boolean (boolean : Bool) : Suits "Bool" (.boolean boolean)

/-- The values that are expected, in order, each with its operator and its field. -/
def expected (condition : Condition) : List (String × String × Value) :=
  condition.flatMap fun entry =>
    match entry.2 with
    | .record expectations =>
        expectations.map fun expectation => (entry.1, expectation)
    | _ => []

/-- Known operators, each with a record of expected values that suit it. -/
structure Documented (condition : Condition) : Prop where
  known : ∀ entry ∈ condition, entry.1 ∈ operatorNames
  recorded : ∀ entry ∈ condition, entry.2.IsRecord
  suiting : ∀ wanted ∈ condition.expected, Suits wanted.1 wanted.2.2

/-- The first expected value that does not suit its operator. -/
def FirstMisfit
    (condition : Condition) (operator : Operator) (field : String) : Prop :=
  ∃ before value after,
    condition.expected = before ++ (operator.name, field, value) :: after ∧
      ¬ Suits operator.name value ∧
      ∀ wanted ∈ before, Suits wanted.1 wanted.2.2

end Condition

namespace Fields

/-- What a document of a policy has to be. -/
structure Documented (fields : Fields) : Prop where
  name : ∃ name, fields.get? "name" = some (.text name) ∧ name ≠ ""
  effect :
    fields.get? "effect" = some (.text "Allow") ∨
      fields.get? "effect" = some (.text "Deny")
  actions : ∃ value, fields.get? "actions" = some value ∧ value.IsTexts
  resources : ∃ value, fields.get? "resources" = some value ∧ value.IsTexts
  condition :
    fields.get? "condition" = none ∨
      fields.get? "condition" = some .null ∨
      ∃ condition : Condition,
        fields.get? "condition" = some (.record condition) ∧
          condition.Documented

end Fields

namespace Condition

variable {condition : Condition} {name : String} {value : Value}

theorem mem_operatorNames_iff :
    name ∈ operatorNames ↔ ∃ operator, Operator.ofName? name = some operator := by
  have names : operatorNames = Operator.all.map Operator.name := rfl
  rw [names, List.mem_map]
  simp only [Operator.ofName?_eq_some_iff, Operator.mem_all, true_and]

theorem suits_iff
    {operator : Operator} (known : Operator.ofName? name = some operator) :
    Suits name value ↔ operator.expects.admits value = true := by
  have named := Operator.ofName?_eq_some_iff.mp known
  constructor
  · intro suits
    cases suits with
    | text text member =>
        subst named
        cases operator <;> first | rfl | exact absurd member (by decide)
    | number number member =>
        subst named
        cases operator <;> first | rfl | exact absurd member (by decide)
    | boolean boolean =>
        cases operator <;> first | rfl | exact absurd named (by decide)
  · intro admitted
    subst named
    cases value with
    | text text =>
        refine .text text ?_
        cases operator <;> first | decide | cases admitted
    | number number =>
        refine .number number ?_
        cases operator <;> first | decide | cases admitted
    | boolean boolean =>
        cases operator <;> first | exact .boolean boolean | cases admitted
    | _ =>
        cases operator <;> cases admitted

theorem mem_expected_iff {wanted : String × String × Value} :
    wanted ∈ condition.expected ↔
      ∃ expectations,
        (wanted.1, .record expectations) ∈ condition ∧
          wanted.2 ∈ expectations := by
  unfold expected
  rw [List.mem_flatMap]
  constructor
  · rintro ⟨⟨name, held⟩, member, inside⟩
    cases held with
    | record expectations =>
        obtain ⟨expectation, among, rfl⟩ := List.mem_map.mp inside
        exact ⟨expectations, member, among⟩
    | _ =>
        cases inside
  · rintro ⟨expectations, member, among⟩
    exact ⟨_, member, List.mem_map.mpr ⟨_, among, rfl⟩⟩

/-- A condition fits when it is as documented. -/
theorem fits_iff_documented : condition.Fits ↔ condition.Documented := by
  constructor
  · intro fits
    refine ⟨fun entry member => ?_, fun entry member => ?_, ?_⟩
    · obtain ⟨operator, -, known, -⟩ := fits entry member
      exact mem_operatorNames_iff.mpr ⟨operator, known⟩
    · obtain ⟨-, expectations, -, recorded, -⟩ := fits entry member
      exact ⟨expectations, recorded⟩
    · intro wanted member
      obtain ⟨expectations, inside, among⟩ := mem_expected_iff.mp member
      obtain ⟨operator, others, known, recorded, fitting⟩ := fits _ inside
      cases recorded
      exact (suits_iff known).mpr (fitting _ among)
  · rintro ⟨known, recorded, suiting⟩ entry member
    obtain ⟨operator, isKnown⟩ := mem_operatorNames_iff.mp (known entry member)
    obtain ⟨expectations, isRecord⟩ := recorded entry member
    refine
      ⟨operator, expectations, isKnown, isRecord, fun wanted among => ?_⟩
    refine (suits_iff isKnown).mp (suiting (entry.1, wanted) ?_)
    exact mem_expected_iff.mpr ⟨expectations, isRecord ▸ member, among⟩

/-- The expected value is known not to suit its operator. -/
def wrong (wanted : String × String × Value) : Bool :=
  (Operator.ofName? wanted.1).any fun operator =>
    !operator.expects.admits wanted.2.2

theorem wrong_iff (known : name ∈ operatorNames) (field : String) :
    wrong (name, field, value) = true ↔ ¬ Suits name value := by
  obtain ⟨operator, isKnown⟩ := mem_operatorNames_iff.mp known
  unfold wrong
  simp only [isKnown, Option.any_some, suits_iff isKnown,
    Bool.not_eq_true', Bool.not_eq_true]

end Condition

namespace Validation

variable {place : List Step}

/-- What is looked for in a condition is the first wrong one among its expected values.
-/
theorem misfit?_eq_find? (condition : Condition) :
    misfit? condition =
      (condition.expected.find? Condition.wrong).bind fun wanted =>
        (Operator.ofName? wanted.1).map (·, wanted.2.1) := by
  induction condition with
  | nil =>
      rfl
  | cons entry rest inductionHypothesis =>
      obtain ⟨name, held⟩ := entry
      cases held with
      | record expectations =>
          have split :
              Condition.expected ((name, .record expectations) :: rest) =
                expectations.map (fun expectation => (name, expectation)) ++
                  Condition.expected rest := rfl
          rw [split, List.find?_append, List.find?_map]
          have asked :
              (Condition.wrong ∘ fun expectation => (name, expectation)) =
                fun expectation =>
                  (Operator.ofName? name).any fun operator =>
                    !operator.expects.admits expectation.2 := rfl
          rw [asked]
          cases known : Operator.ofName? name with
          | none =>
              have nothing :
                  (expectations.find? fun _ => false) = none :=
                List.find?_eq_none.mpr fun _ _ => by simp
              simp only [misfit?, known, inductionHypothesis,
                Option.any_none, nothing, Option.map_none, Option.none_or]
          | some operator =>
              simp only [misfit?, known, inductionHypothesis,
                Option.any_some]
              cases expectations.find?
                  (fun expectation =>
                    !operator.expects.admits expectation.2) with
              | none =>
                  rfl
              | some expectation =>
                  simp [known]
      | _ =>
          cases known : Operator.ofName? name <;>
            simp only [misfit?, known, inductionHypothesis] <;> rfl

/-- Where nothing is wrong with the operators, what is looked for is the first expected
value that does not suit its operator. -/
theorem misfit?_eq_some_iff
    {condition : Condition}
    (faultless : condition.flatMap (entryIssues place) = [])
    {operator : Operator} {field : String} :
    misfit? condition = some (operator, field) ↔
      condition.FirstMisfit operator field := by
  have wrong_iff {wanted : String × String × Value}
      (member : wanted ∈ condition.expected) :
      Condition.wrong wanted = true ↔
        ¬ Condition.Suits wanted.1 wanted.2.2 := by
    obtain ⟨expectations, inside, -⟩ := Condition.mem_expected_iff.mp member
    have sound := List.flatMap_eq_nil_iff.mp faultless _ inside
    have known :=
      Condition.mem_operatorNames_iff.mpr (entryIssues_eq_nil_iff.mp sound).1
    exact Condition.wrong_iff known wanted.2.1
  have first_iff {wanted : String × String × Value} :
      condition.expected.find? Condition.wrong = some wanted ↔
        ∃ before after,
          condition.expected = before ++ wanted :: after ∧
            ¬ Condition.Suits wanted.1 wanted.2.2 ∧
            ∀ other ∈ before, Condition.Suits other.1 other.2.2 := by
    rw [List.find?_eq_some_iff_append]
    constructor
    · rintro ⟨isWrong, before, after, split, right⟩
      refine ⟨before, after, split, ?_, fun other member => ?_⟩
      · exact (wrong_iff (by simp [split])).mp isWrong
      · by_contra unsuited
        have isWrong := (wrong_iff (by simp [split, member])).mpr unsuited
        have isRight := right other member
        rw [isWrong] at isRight
        cases isRight
    · rintro ⟨before, after, split, unsuited, suiting⟩
      refine
        ⟨(wrong_iff (by simp [split])).mpr unsuited, before, after, split,
          fun other member => ?_⟩
      rw [Bool.not_eq_true', ← Bool.not_eq_true,
        wrong_iff (by simp [split, member]), not_not]
      exact suiting other member
  rw [misfit?_eq_find?]
  constructor
  · intro found
    obtain ⟨⟨name, named, value⟩, first, read⟩ :=
      Option.bind_eq_some_iff.mp found
    obtain ⟨other, isKnown, same⟩ := Option.map_eq_some_iff.mp read
    cases same
    obtain rfl := Operator.ofName?_eq_some_iff.mp isKnown
    obtain ⟨before, after, split, unsuited, suiting⟩ := first_iff.mp first
    exact ⟨before, value, after, split, unsuited, suiting⟩
  · rintro ⟨before, value, after, split, unsuited, suiting⟩
    have first := first_iff.mpr ⟨before, after, split, unsuited, suiting⟩
    have isKnown : Operator.ofName? operator.name = some operator :=
      Operator.ofName?_eq_some_iff.mpr rfl
    rw [first, Option.bind_some, isKnown]
    rfl

end Validation

/-! ## Accepted documents -/

namespace Policy

/-- A document is accepted when it is as documented. -/
theorem exists_ofFields_eq_ok_iff {fields : Fields} :
    (∃ policy, ofFields fields = .ok policy) ↔ fields.Documented := by
  simp only [ofFields_eq_ok_iff_spelledBy]
  constructor
  · rintro ⟨policy, spelled, formed⟩
    refine
      ⟨⟨_, spelled.name, formed.named⟩, ?_,
        ⟨_, spelled.actions, Value.isTexts_iff.mpr ⟨_, rfl, formed.acting⟩⟩,
        ⟨_, spelled.resources,
          Value.isTexts_iff.mpr ⟨_, rfl, formed.concerned⟩⟩, ?_⟩
    · have effect := spelled.effect
      cases given : policy.effect with
      | allow =>
          rw [given] at effect
          exact .inl effect
      | deny =>
          rw [given] at effect
          exact .inr effect
    · have condition := spelled.condition
      cases held : fields.get? "condition" with
      | none =>
          exact .inl rfl
      | some value =>
          rw [held, Option.getD_some] at condition
          cases given : policy.condition with
          | none =>
              rw [given] at condition
              exact .inr (.inl (congrArg some condition))
          | some entries =>
              rw [given] at condition
              exact
                .inr
                  (.inr
                    ⟨entries, congrArg some condition,
                      Condition.fits_iff_documented.mp
                        (formed.fits entries given)⟩)
  · rintro ⟨⟨name, isName, named⟩, effect, ⟨_, areActions, acts⟩,
      ⟨_, areResources, concerns⟩, condition⟩
    obtain ⟨actions, rfl, acting⟩ := Value.isTexts_iff.mp acts
    obtain ⟨resources, rfl, concerned⟩ := Value.isTexts_iff.mp concerns
    obtain ⟨effect, isEffect⟩ :
        ∃ effect : Effect,
          fields.get? "effect" = some (.text effect.name) := by
      rcases effect with allow | deny
      · exact ⟨.allow, allow⟩
      · exact ⟨.deny, deny⟩
    obtain ⟨condition, isCondition, fits⟩ :
        ∃ condition : Option Condition,
          (fields.get? "condition").getD .null =
              Condition.toValue condition ∧
            ∀ entries ∈ condition, entries.Fits := by
      rcases condition with absent | null | ⟨entries, held, documented⟩
      · exact ⟨none, by rw [absent]; rfl, by simp⟩
      · exact ⟨none, by rw [null]; rfl, by simp⟩
      · refine ⟨some entries, by rw [held]; rfl, ?_⟩
        rintro others isGiven
        cases isGiven
        exact Condition.fits_iff_documented.mpr documented
    exact
      ⟨⟨name, effect, actions, resources, condition⟩,
        ⟨isName, isEffect, areActions, areResources, isCondition⟩,
        ⟨named, acting, concerned, fits⟩⟩

end Policy

end AccessControl
