import AccessControl.Policy.Validation
import AccessControl.Proofs.Condition

/-!
# Accepted policies

What is known of a policy because its document was accepted: every field passed
its own check, and the condition, when there is one, holds known operators with
records of expectations.  Conversely a document whose fields spell a well-formed
policy is accepted as this policy: `ofFields_eq_ok_iff_spelledBy`.
-/

namespace AccessControl

namespace Policy

/-- The policy is what some document was accepted as. -/
def Accepted (policy : Policy) : Prop :=
  ∃ document, ofValue modelName document = .ok policy

/-- A document is accepted when each of its fields passes its check. -/
theorem ofFields_eq_ok_iff {fields : Fields} {policy : Policy} :
    ofFields fields = .ok policy ↔
      Validation.required "name" Validation.nonEmptyText fields =
          .ok policy.name ∧
        Validation.required "effect" Validation.effect fields =
          .ok policy.effect ∧
        Validation.required "actions" Validation.nonEmptyTexts fields =
          .ok policy.actions ∧
        Validation.required "resources" Validation.nonEmptyTexts fields =
          .ok policy.resources ∧
        conditionOf fields = .ok policy.condition := by
  unfold ofFields
  constructor
  · intro accepted
    split at accepted
    · rename_i name effect actions resources condition
      cases accepted
      exact ⟨name, effect, actions, resources, condition⟩
    · cases accepted
  · rintro ⟨name, effect, actions, resources, condition⟩
    rw [name, effect, actions, resources, condition]

theorem Accepted.exists_fields
    {policy : Policy} (accepted : policy.Accepted) :
    ∃ fields, ofFields fields = .ok policy := by
  obtain ⟨document, read⟩ := accepted
  cases document with
  | record fields =>
      exact ⟨fields, read⟩
  | _ =>
      cases read

end Policy

namespace Validation

/-- An operator without issues is known and holds a record of expectations. -/
theorem entryIssues_eq_nil_iff
    {place : List Step} {entry : String × Value} :
    entryIssues place entry = [] ↔
      (∃ operator, Operator.ofName? entry.1 = some operator) ∧
        ∃ expectations, entry.2 = .record expectations := by
  unfold entryIssues
  rw [List.append_eq_nil_iff]
  constructor
  · rintro ⟨known, recorded⟩
    constructor
    · cases found : Operator.ofName? entry.1 with
      | some operator =>
          exact ⟨operator, rfl⟩
      | none =>
          simp [found] at known
    · cases held : entry.2 with
      | record expectations =>
          exact ⟨expectations, rfl⟩
      | _ =>
          simp [held] at recorded
  · rintro ⟨⟨operator, known⟩, expectations, recorded⟩
    rw [known, recorded]
    exact ⟨rfl, rfl⟩

/-- A condition that is accepted was a record of operators without issues whose
expected values all fit. -/
theorem condition_eq_ok_some_iff
    {place : List Step} {input : Value} {entries : Condition} :
    condition place input = .ok (some entries) ↔
      input = .record entries ∧
        entries.flatMap (entryIssues place) = [] ∧
        misfit? entries = none := by
  constructor
  · intro accepted
    unfold condition at accepted
    split at accepted
    · cases accepted
    · rename_i given
      split at accepted
      · rename_i faultless
        split at accepted
        · rename_i fitting
          cases accepted
          exact ⟨rfl, faultless, fitting⟩
        · cases accepted
      · cases accepted
    · cases accepted
  · rintro ⟨rfl, faultless, fitting⟩
    simp only [condition, faultless, fitting]

end Validation

namespace Policy

theorem condition_shaped_of_ofFields
    {fields : Fields} {policy : Policy}
    (read : ofFields fields = .ok policy) :
    ∀ entries ∈ policy.condition, entries.Shaped := by
  intro entries present
  have checked : conditionOf fields = .ok policy.condition :=
    (ofFields_eq_ok_iff.mp read).2.2.2.2
  rw [present] at checked
  unfold conditionOf at checked
  cases given : fields.get? "condition" with
  | none =>
      simp [given] at checked
  | some value =>
      simp only [given] at checked
      obtain ⟨-, faultless, -⟩ :=
        Validation.condition_eq_ok_some_iff.mp checked
      intro entry member
      have unfaulted := List.flatMap_eq_nil_iff.mp faultless entry member
      exact (Validation.entryIssues_eq_nil_iff.mp unfaulted).2

theorem Accepted.condition_shaped
    {policy : Policy} (accepted : policy.Accepted) :
    ∀ entries ∈ policy.condition, entries.Shaped := by
  obtain ⟨fields, read⟩ := accepted.exists_fields
  exact condition_shaped_of_ofFields read

end Policy

namespace Verdict

theorem all_eq_ok_iff {α : Type} {verdicts : List (Verdict α)}
    {values : List α} :
    all verdicts = .ok values ↔ verdicts = values.map .ok := by
  induction verdicts generalizing values with
  | nil =>
      cases values <;> simp [all]
  | cons first rest inductionHypothesis =>
      unfold all
      cases first with
      | error issues =>
          cases values <;> simp
      | ok value =>
          cases tail : all rest with
          | error issues =>
              have bad : ∀ others : List α, rest ≠ others.map .ok := by
                intro others good
                rw [inductionHypothesis.mpr good] at tail
                cases tail
              cases values with
              | nil =>
                  simp
              | cons other others =>
                  simp [bad others]
          | ok others =>
              have good := inductionHypothesis.mp tail
              cases values with
              | nil =>
                  simp
              | cons other more =>
                  rw [good]
                  simp [List.map_inj_right]

end Verdict

namespace Validation

theorem required_eq_ok_iff {α : Type} {name : String}
    {check : List Step → Value → Verdict α} {fields : Fields} {found : α} :
    required name check fields = .ok found ↔
      ∃ value,
        fields.get? name = some value ∧
          check [.field name] value = .ok found := by
  unfold required
  cases fields.get? name with
  | none =>
      simp [Verdict.refuse]
  | some value =>
      simp

theorem text_eq_ok_iff
    {place : List Step} {input : Value} {found : String} :
    text place input = .ok found ↔ input = .text found := by
  cases input <;> simp [text, Verdict.refuse]

theorem nonEmptyText_eq_ok_iff
    {place : List Step} {input : Value} {found : String} :
    nonEmptyText place input = .ok found ↔
      input = .text found ∧ found ≠ "" := by
  unfold nonEmptyText
  split
  · rename_i empty
    rw [text_eq_ok_iff] at empty
    subst empty
    simp only [Verdict.refuse, Value.text.injEq, reduceCtorEq, false_iff]
    rintro ⟨rfl, filled⟩
    exact filled rfl
  · rename_i filled
    rw [text_eq_ok_iff]
    constructor
    · rintro rfl
      refine ⟨rfl, ?_⟩
      rintro rfl
      exact filled rfl
    · exact And.left

theorem effect_eq_ok_iff
    {place : List Step} {input : Value} {found : Effect} :
    effect place input = .ok found ↔ input = .text found.name := by
  cases input with
  | text name =>
      have named :
          effect place (.text name) = .ok found ↔
            Effect.ofName? name = some found := by
        unfold effect
        simp only
        cases Effect.ofName? name <;> simp [Verdict.refuse]
      rw [named, Effect.ofName?_eq_some_iff, Value.text.injEq]
      exact eq_comm
  | _ =>
      simp [effect, Verdict.refuse]

theorem texts_eq_ok_iff
    {place : List Step} {input : Value} {found : List String} :
    texts place input = .ok found ↔ input = .texts found := by
  cases input with
  | list items =>
      have each (start : Nat) :
          ((items.zipIdx start).map fun item =>
              text (place ++ [.index item.2]) item.1) =
            found.map .ok ↔
          items = found.map .text := by
        induction items generalizing start found with
        | nil =>
            cases found <;> simp
        | cons item rest inductionHypothesis =>
            cases found with
            | nil =>
                simp
            | cons first others =>
                simp [List.zipIdx_cons, text_eq_ok_iff, inductionHypothesis]
      simp only [texts, Verdict.all_eq_ok_iff, each, Value.texts,
        Value.list.injEq]
  | _ =>
      simp [texts, Verdict.refuse, Value.texts]

theorem nonEmptyTexts_eq_ok_iff
    {place : List Step} {input : Value} {found : List String} :
    nonEmptyTexts place input = .ok found ↔
      input = .texts found ∧ found ≠ [] := by
  unfold nonEmptyTexts
  split
  · rename_i empty
    rw [texts_eq_ok_iff] at empty
    subst empty
    simp only [Verdict.refuse, Value.texts, Value.list.injEq, reduceCtorEq,
      false_iff]
    rintro ⟨same, filled⟩
    exact filled (List.map_eq_nil_iff.mp same.symm)
  · rename_i filled
    rw [texts_eq_ok_iff]
    constructor
    · intro same
      refine ⟨same, ?_⟩
      rintro rfl
      exact filled (texts_eq_ok_iff.mpr same)
    · exact And.left

end Validation

namespace Condition

/-- Every operator is known and holds a record of expected values of its kind. -/
def Fits (condition : Condition) : Prop :=
  ∀ entry ∈ condition,
    ∃ operator expectations,
      Operator.ofName? entry.1 = some operator ∧
        entry.2 = .record expectations ∧
        ∀ expectation ∈ expectations,
          operator.expects.admits expectation.2 = true

end Condition

namespace Validation

theorem misfit?_eq_none_iff
    {condition : Condition} {place : List Step}
    (faultless : condition.flatMap (entryIssues place) = []) :
    misfit? condition = none ↔ condition.Fits := by
  induction condition with
  | nil =>
      simp [misfit?, Condition.Fits]
  | cons entry rest inductionHypothesis =>
      obtain ⟨name, held⟩ := entry
      rw [List.flatMap_cons, List.append_eq_nil_iff,
        entryIssues_eq_nil_iff] at faultless
      obtain ⟨⟨⟨operator, known⟩, expectations, recorded⟩, others⟩ :=
        faultless
      simp only at known recorded
      subst recorded
      have split :
          Condition.Fits ((name, .record expectations) :: rest) ↔
            (∀ expectation ∈ expectations,
              operator.expects.admits expectation.2 = true) ∧
              Condition.Fits rest := by
        simp [Condition.Fits, known]
      rw [split, ← inductionHypothesis others]
      simp only [misfit?, known]
      cases found :
          expectations.find? (fun field =>
            !operator.expects.admits field.2) with
      | none =>
          have fitting := List.find?_eq_none.mp found
          simp only [Bool.not_eq_true', Bool.not_eq_false] at fitting
          simp only [iff_and_self]
          exact fun _ => fun expectation member => fitting expectation member
      | some field =>
          have wrong := List.find?_some found
          have member := List.mem_of_find?_eq_some found
          simp only [reduceCtorEq, false_iff, not_and]
          intro fitting
          simp [fitting field member] at wrong

/-- A condition is accepted when it is a record of operators that fits. -/
theorem condition_eq_ok_some_iff_fits
    {place : List Step} {input : Value} {entries : Condition} :
    condition place input = .ok (some entries) ↔
      input = .record entries ∧ entries.Fits := by
  rw [condition_eq_ok_some_iff]
  constructor
  · rintro ⟨given, faultless, fitting⟩
    exact ⟨given, (misfit?_eq_none_iff faultless).mp fitting⟩
  · rintro ⟨given, fits⟩
    have faultless : entries.flatMap (entryIssues place) = [] := by
      refine List.flatMap_eq_nil_iff.mpr fun entry member => ?_
      obtain ⟨operator, expectations, known, recorded, -⟩ := fits entry member
      exact entryIssues_eq_nil_iff.mpr
        ⟨⟨operator, known⟩, expectations, recorded⟩
    exact ⟨given, faultless, (misfit?_eq_none_iff faultless).mpr fits⟩

/-- A condition is accepted as it is given, or as none where null is given. -/
theorem condition_eq_ok_iff
    {place : List Step} {input : Value} {found : Option Condition} :
    condition place input = .ok found ↔
      input = Condition.toValue found ∧ ∀ entries ∈ found, entries.Fits := by
  cases found with
  | some entries =>
      rw [condition_eq_ok_some_iff_fits]
      simp [Condition.toValue]
  | none =>
      constructor
      · intro accepted
        unfold condition at accepted
        split at accepted
        · simp [Condition.toValue]
        · split at accepted
          · split at accepted <;> cases accepted
          · cases accepted
        · cases accepted
      · rintro ⟨rfl, -⟩
        rfl

end Validation

/-! ## Policies that are accepted -/

namespace Policy

/-- The fields of a document that are read, in the order in which they are checked. -/
def fieldNames : List String :=
  ["name", "effect", "actions", "resources", "condition"]

theorem condition_mem_fieldNames : "condition" ∈ fieldNames := by
  decide

/-- What an accepted policy is known to be. -/
structure WellFormed (policy : Policy) : Prop where
  named : policy.name ≠ ""
  acting : policy.actions ≠ []
  concerned : policy.resources ≠ []
  fits : ∀ entries ∈ policy.condition, entries.Fits

/-- The fields of a document that are read are those of the policy. -/
structure SpelledBy (policy : Policy) (fields : Fields) : Prop where
  name : fields.get? "name" = some (.text policy.name)
  effect : fields.get? "effect" = some (.text policy.effect.name)
  actions : fields.get? "actions" = some (.texts policy.actions)
  resources : fields.get? "resources" = some (.texts policy.resources)
  condition :
    (fields.get? "condition").getD .null =
      Condition.toValue policy.condition

theorem conditionOf_eq_ok_iff
    {fields : Fields} {found : Option Condition} :
    conditionOf fields = .ok found ↔
      (fields.get? "condition").getD .null = Condition.toValue found ∧
        ∀ entries ∈ found, entries.Fits := by
  unfold conditionOf
  cases fields.get? "condition" with
  | some value =>
      exact Validation.condition_eq_ok_iff
  | none =>
      have null : Validation.condition [] .null = .ok none := rfl
      have absent :
          Validation.condition [] .null = .ok found ↔
            .null = Condition.toValue found ∧
              ∀ entries ∈ found, entries.Fits :=
        Validation.condition_eq_ok_iff
      rw [Option.getD_none, ← absent, null]

/-- A document is accepted as the well-formed policy that its fields spell. -/
theorem ofFields_eq_ok_iff_spelledBy
    {fields : Fields} {policy : Policy} :
    ofFields fields = .ok policy ↔
      policy.SpelledBy fields ∧ policy.WellFormed := by
  simp only [ofFields_eq_ok_iff, Validation.required_eq_ok_iff,
    Validation.nonEmptyText_eq_ok_iff, Validation.effect_eq_ok_iff,
    Validation.nonEmptyTexts_eq_ok_iff, conditionOf_eq_ok_iff]
  constructor
  · rintro ⟨⟨_, name, rfl, named⟩, ⟨_, effect, rfl⟩,
      ⟨_, actions, rfl, acting⟩, ⟨_, resources, rfl, concerned⟩,
      condition, fits⟩
    exact ⟨⟨name, effect, actions, resources, condition⟩,
      ⟨named, acting, concerned, fits⟩⟩
  · rintro ⟨spelled, formed⟩
    exact
      ⟨⟨_, spelled.name, rfl, formed.named⟩, ⟨_, spelled.effect, rfl⟩,
        ⟨_, spelled.actions, rfl, formed.acting⟩,
        ⟨_, spelled.resources, rfl, formed.concerned⟩,
        spelled.condition, formed.fits⟩

/-- The document that holds the fields of a policy as they are. -/
def document (policy : Policy) : Fields :=
  [("name", .text policy.name),
   ("effect", .text policy.effect.name),
   ("actions", .texts policy.actions),
   ("resources", .texts policy.resources),
   ("condition", Condition.toValue policy.condition)]

theorem WellFormed.ofFields_document
    {policy : Policy} (formed : policy.WellFormed) :
    ofFields policy.document = .ok policy := by
  have spelled : policy.SpelledBy policy.document :=
    ⟨rfl, rfl, rfl, rfl, rfl⟩
  exact ofFields_eq_ok_iff_spelledBy.mpr ⟨spelled, formed⟩

theorem accepted_iff_wellFormed {policy : Policy} :
    policy.Accepted ↔ policy.WellFormed := by
  constructor
  · intro accepted
    obtain ⟨fields, read⟩ := accepted.exists_fields
    exact (ofFields_eq_ok_iff_spelledBy.mp read).2
  · intro formed
    exact ⟨.record policy.document, formed.ofFields_document⟩

/-- A policy can be accepted when its own document is accepted as this policy. -/
theorem ofFields_document_iff_accepted {policy : Policy} :
    (ofFields policy.document).toOption = some policy ↔
      policy.Accepted := by
  constructor
  · intro read
    refine ⟨.record policy.document, ?_⟩
    cases verdict : ofFields policy.document with
    | error issues =>
        rw [verdict] at read
        cases read
    | ok found =>
        rw [verdict] at read
        cases read
        exact verdict
  · intro accepted
    rw [(accepted_iff_wellFormed.mp accepted).ofFields_document]
    rfl

instance (policy : Policy) : Decidable policy.Accepted :=
  decidable_of_iff _ ofFields_document_iff_accepted

/-- Only the fields of a policy count. -/
theorem SpelledBy.of_get?_eq
    {policy : Policy} {fields others : Fields}
    (spelled : policy.SpelledBy fields)
    (same :
      ∀ name ∈ fieldNames, others.get? name = fields.get? name) :
    policy.SpelledBy others := by
  simp only [fieldNames, List.forall_mem_cons] at same
  obtain ⟨name, effect, actions, resources, condition, -⟩ := same
  exact ⟨name ▸ spelled.name, effect ▸ spelled.effect,
    actions ▸ spelled.actions, resources ▸ spelled.resources,
    condition ▸ spelled.condition⟩

end Policy

end AccessControl
