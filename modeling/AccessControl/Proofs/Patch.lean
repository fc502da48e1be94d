import AccessControl.Proofs.History
import AccessControl.Proofs.Verdict

/-!
# Changes of valid policies

A change request is checked like the policy that it would make: what is found wrong with
it is what is found wrong with a valid document into which it is merged, and a request
that is accepted leaves a valid document valid, nulls included:
`PolicyPatch.validates_like_policy`.
-/

namespace AccessControl

theorem Value.isNull_eq_false_iff {value : Value} :
    value.isNull = false ↔ value ≠ .null := by
  cases value <;> simp [isNull]

namespace Validation

variable {α : Type} {name : String} {check : List Step → Value → Verdict α}
  {document changes : Fields} {old : α}

theorem optional_of_filled
    {fields : Fields} {input : Value}
    (given : fields.get? name = some input) (filled : input.isNull = false) :
    optional name check fields =
      (check [.field name] input).map fun found => some (some found) := by
  unfold optional
  rw [given]
  cases input with
  | null =>
      cases filled
  | _ =>
      rfl

theorem optional_eq_ok_iff {fields : Fields} {found : Option (Option α)} :
    optional name check fields = .ok found ↔
      match found with
      | none => fields.get? name = none
      | some none => fields.get? name = some .null
      | some (some value) =>
          ∃ input,
            fields.get? name = some input ∧ input.isNull = false ∧
              check [.field name] input = .ok value := by
  cases given : fields.get? name with
  | none =>
      unfold optional
      rw [given]
      rcases found with - | (- | value) <;> simp
  | some input =>
      cases null : input.isNull with
      | true =>
          have isNull : input = .null := by
            cases input <;> first | rfl | cases null
          unfold optional
          rw [given, isNull]
          rcases found with - | (- | value) <;> simp [Value.isNull]
      | false =>
          have isFilled := Value.isNull_eq_false_iff.mp null
          rw [optional_of_filled given null]
          cases passes : check [.field name] input <;>
            rcases found with - | (- | value) <;>
              simp [Except.map, null, passes, isFilled]

/-- A field of the changes that is not null is checked like that of the merged document.
-/
theorem issues_optional_eq_required
    (nodup : changes.names.Nodup)
    (held : required name check document = .ok old)
    (filled : changes.get? name ≠ some .null) :
    (optional name check changes).issues =
      (required name check (document.merge changes)).issues := by
  obtain ⟨stored, isStored, passes⟩ := required_eq_ok_iff.mp held
  have merged := document.get?_merge nodup name
  cases given : changes.get? name with
  | none =>
      unfold optional required
      rw [merged, isStored, given]
      simp only [Option.none_or, passes]
      rfl
  | some value =>
      have isFilled : value.isNull = false :=
        Value.isNull_eq_false_iff.mpr fun isNull =>
          filled (isNull ▸ given)
      unfold required
      rw [optional_of_filled given isFilled, merged, given,
        Verdict.issues_map]
      rfl

/-- So is a condition. -/
theorem issues_optional_eq_conditionOf
    (nodup : changes.names.Nodup) {kept : Option Condition}
    (held : Policy.conditionOf document = .ok kept)
    (filled : changes.get? "condition" ≠ some .null) :
    (optional "condition" condition changes).issues =
      (Policy.conditionOf (document.merge changes)).issues := by
  have merged := document.get?_merge nodup "condition"
  unfold Policy.conditionOf at held ⊢
  cases given : changes.get? "condition" with
  | none =>
      unfold optional
      rw [merged, given, Option.none_or, held]
      rfl
  | some value =>
      have isFilled : value.isNull = false :=
        Value.isNull_eq_false_iff.mpr fun isNull =>
          filled (isNull ▸ given)
      rw [optional_of_filled given isFilled, merged, given,
        Verdict.issues_map]
      rfl

/-- A required field is given by the changes, unless they lack it or hold a null. -/
theorem required_merge
    (nodup : changes.names.Nodup) (counts : name ∈ Policy.fieldNames)
    (isRequired : name ≠ "condition")
    (held : required name check document = .ok old)
    {found : Option (Option α)}
    (given : optional name check changes = .ok found) :
    required name check
        (document.merge (Registry.effectiveChanges changes)) =
      .ok (found.join.getD old) := by
  have read := optional_eq_ok_iff.mp given
  have merged :=
    Registry.get?_merge_effectiveChanges document nodup counts
  rw [required_eq_ok_iff] at held ⊢
  rw [merged]
  rcases found with - | (- | value)
  · rw [read]
    exact held
  · rw [read]
    simp only [Value.isNull, isRequired, ne_eq, not_false_eq_true, and_self,
      if_true]
    exact held
  · obtain ⟨input, isGiven, isFilled, passes⟩ := read
    rw [isGiven]
    simp only [isFilled, Bool.false_eq_true, false_and, if_false]
    exact ⟨input, rfl, passes⟩

/-- The condition is given by the changes, unless they lack it; a null clears it. -/
theorem conditionOf_merge
    (nodup : changes.names.Nodup) {kept : Option Condition}
    (held : Policy.conditionOf document = .ok kept)
    {found : Option (Option (Option Condition))}
    (given : optional "condition" condition changes = .ok found) :
    Policy.conditionOf
        (document.merge (Registry.effectiveChanges changes)) =
      .ok ((found.map Option.join).getD kept) := by
  have read := optional_eq_ok_iff.mp given
  have merged :=
    Registry.get?_merge_effectiveChanges document nodup
      Policy.condition_mem_fieldNames
  unfold Policy.conditionOf at held ⊢
  rw [merged]
  rcases found with - | (- | value)
  · rw [read]
    exact held
  · rw [read]
    rfl
  · obtain ⟨input, isGiven, isFilled, passes⟩ := read
    rw [isGiven]
    simp only [isFilled, Bool.false_eq_true, false_and, if_false, passes]
    rfl

end Validation

namespace PolicyPatch

/-- The policy with the fields that the request holds; a null clears the condition and
leaves any other field as it is. -/
def revise (patch : PolicyPatch) (policy : Policy) : Policy where
  name := patch.name.join.getD policy.name
  effect := patch.effect.join.getD policy.effect
  actions := patch.actions.join.getD policy.actions
  resources := patch.resources.join.getD policy.resources
  condition := patch.condition.getD policy.condition

variable {document changes : Fields} {policy : Policy} {patch : PolicyPatch}

theorem issues_ofFields_eq_merged
    (nodup : changes.names.Nodup)
    (accepted : Policy.ofFields document = .ok policy)
    (filled : ∀ name ∈ Policy.fieldNames, changes.get? name ≠ some .null) :
    (ofFields changes).issues =
      (Policy.ofFields (document.merge changes)).issues := by
  obtain ⟨name, effect, actions, resources, condition⟩ :=
    Policy.ofFields_eq_ok_iff.mp accepted
  rw [issues_ofFields, Policy.issues_ofFields,
    Validation.issues_optional_eq_required nodup name
      (filled _ (by decide)),
    Validation.issues_optional_eq_required nodup effect
      (filled _ (by decide)),
    Validation.issues_optional_eq_required nodup actions
      (filled _ (by decide)),
    Validation.issues_optional_eq_required nodup resources
      (filled _ (by decide)),
    Validation.issues_optional_eq_conditionOf nodup condition
      (filled _ (by decide))]

/-- An accepted request makes of a valid document another valid one. -/
theorem ofFields_merge_effectiveChanges
    (nodup : changes.names.Nodup)
    (accepted : Policy.ofFields document = .ok policy)
    (requested : ofFields changes = .ok patch) :
    Policy.ofFields (document.merge (Registry.effectiveChanges changes)) =
      .ok (patch.revise policy) := by
  obtain ⟨name, effect, actions, resources, condition⟩ :=
    Policy.ofFields_eq_ok_iff.mp accepted
  obtain ⟨newName, newEffect, newActions, newResources, _, newCondition,
    joined⟩ :=
    ofFields_eq_ok_iff.mp requested
  rw [Policy.ofFields_eq_ok_iff]
  refine
    ⟨Validation.required_merge nodup (by decide) (by decide) name newName,
      Validation.required_merge nodup (by decide) (by decide) effect
        newEffect,
      Validation.required_merge nodup (by decide) (by decide) actions
        newActions,
      Validation.required_merge nodup (by decide) (by decide) resources
        newResources, ?_⟩
  rw [Validation.conditionOf_merge nodup condition newCondition, ← joined]
  rfl

/-! ## Requests and policies -/

/-- Where a change request holds no null, the same is found wrong with it as with a valid
document into which it is merged, so that it is accepted just when this is.  And an
accepted request, with or without nulls, makes of a valid document another one. -/
theorem validates_like_policy
    (accepted :
      Policy.ofValue Policy.modelName (.record document) = .ok policy)
    (nodup : changes.names.Nodup) :
    ((∀ name ∈ Policy.fieldNames, changes.get? name ≠ some .null) →
      let merged :=
        Policy.ofValue Policy.modelName (.record (document.merge changes))
      (ofValue (.record changes)).issues = merged.issues ∧
        ((∃ patch, ofValue (.record changes) = .ok patch) ↔
          ∃ found, merged = .ok found)) ∧
    ∀ patch,
      ofValue (.record changes) = .ok patch →
      Policy.ofValue Policy.modelName
          (.record
            (document.merge (Registry.effectiveChanges changes))) =
        .ok (patch.revise policy) := by
  constructor
  · intro filled merged
    have same := issues_ofFields_eq_merged nodup accepted filled
    refine ⟨same, ?_⟩
    calc
      (∃ patch, ofFields changes = .ok patch)
        ↔ (ofFields changes).issues = [] := issues_ofFields_eq_nil_iff.symm
      _ ↔ (Policy.ofFields (document.merge changes)).issues = [] := by
          rw [same]
      _ ↔ ∃ found, Policy.ofFields (document.merge changes) = .ok found :=
          Policy.issues_ofFields_eq_nil_iff
  · exact fun patch requested =>
      ofFields_merge_effectiveChanges nodup accepted requested

def ledgerPolicy : Policy :=
  ⟨"ledger", .allow, ["*:Read"], ["*"],
    some [("Bool", .record [("open", .boolean true)])]⟩

/-- A request with a number among the actions and an operator that is none, and one that
clears the condition and leaves the name as it is. -/
theorem ledgerPolicy_changed :
    let faulty : Fields :=
      [("actions", .list [.text "*:List", .integer 7]),
       ("condition", .record [("Equals", .record [])]),
       ("note", .null)]
    let clearing : Fields :=
      [("condition", .null), ("effect", .text "Deny"), ("name", .null)]
    Policy.ofValue Policy.modelName (.record ledgerPolicy.document) =
        .ok ledgerPolicy ∧
      (faulty.names.Nodup ∧
        (∀ name ∈ Policy.fieldNames, faulty.get? name ≠ some .null) ∧
        (Policy.ofValue Policy.modelName
            (.record (ledgerPolicy.document.merge faulty))).issues =
          [⟨.notString, [.field "actions", .index 1], .integer 7⟩,
           ⟨.notOperator,
            [.field "condition", .field "Equals", .field "[key]"],
            .text "Equals"⟩]) ∧
      clearing.names.Nodup ∧
        Policy.ofValue Policy.modelName
            (.record
              (ledgerPolicy.document.merge
                (Registry.effectiveChanges clearing))) =
          .ok ⟨"ledger", .deny, ["*:Read"], ["*"], none⟩ := by
  intro faulty clearing
  have accepted :
      Policy.ofValue Policy.modelName (.record ledgerPolicy.document) =
        .ok ledgerPolicy := rfl
  have nodup : faulty.names.Nodup := by
    decide
  have filled :
      ∀ name ∈ Policy.fieldNames, faulty.get? name ≠ some .null := by
    decide
  have nodupClearing : clearing.names.Nodup := by
    decide
  obtain ⟨sameIssues, -⟩ :=
    (validates_like_policy accepted nodup).1 filled
  have merged := (validates_like_policy accepted nodupClearing).2 _ rfl
  exact
    ⟨accepted, ⟨nodup, filled, sameIssues.symm⟩, nodupClearing, merged⟩

end PolicyPatch

end AccessControl
