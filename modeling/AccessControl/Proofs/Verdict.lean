import AccessControl.Proofs.Acceptance

/-!
# Verdicts and their issues

A check that refuses a value always tells why, so a value is accepted exactly when
nothing is found wrong with it.  What is found wrong with a document is what is found
wrong with its fields, in their order.
-/

namespace AccessControl

namespace Verdict

variable {α β : Type} {verdict : Verdict α}

/-- A verdict that refuses tells why. -/
def Told (verdict : Verdict α) : Prop :=
  verdict ≠ .error []

theorem Told.issues_eq_nil_iff (told : verdict.Told) :
    verdict.issues = [] ↔ ∃ found, verdict = .ok found := by
  cases verdict with
  | ok found =>
      simp [issues]
  | error found =>
      have filled : found ≠ [] := fun empty => told (empty ▸ rfl)
      simp [issues, filled]

theorem told_ok (found : α) : Told (.ok found) := by
  intro refused
  cases refused

theorem told_refuse (defect : Defect) (place : List Step) (input : Value) :
    Told (refuse defect place input : Verdict α) := by
  intro refused
  cases refused

theorem Told.map (told : verdict.Told) (change : α → β) :
    Told (Except.map change verdict) := by
  cases verdict with
  | ok found =>
      exact told_ok _
  | error found =>
      intro refused
      cases refused
      exact told rfl

theorem issues_map (change : α → β) :
    issues (Except.map change verdict) = verdict.issues := by
  cases verdict <;> rfl

theorem issues_all (verdicts : List (Verdict α)) :
    (all verdicts).issues = verdicts.flatMap issues := by
  induction verdicts with
  | nil =>
      rfl
  | cons first rest inductionHypothesis =>
      rw [List.flatMap_cons, ← inductionHypothesis]
      cases first <;> cases tail : all rest <;> simp [all, tail, issues]

theorem told_all {verdicts : List (Verdict α)}
    (each : ∀ verdict ∈ verdicts, verdict.Told) :
    (all verdicts).Told := by
  induction verdicts with
  | nil =>
      exact told_ok []
  | cons first rest inductionHypothesis =>
      have restTold :=
        inductionHypothesis fun verdict member =>
          each verdict (List.mem_cons_of_mem _ member)
      intro refused
      have nothing : (all (first :: rest)).issues = [] :=
        congrArg issues refused
      rw [issues_all, List.flatMap_cons, ← issues_all,
        List.append_eq_nil_iff] at nothing
      obtain ⟨value, isOk⟩ :=
        (each first List.mem_cons_self).issues_eq_nil_iff.mp nothing.1
      obtain ⟨values, areOk⟩ := restTold.issues_eq_nil_iff.mp nothing.2
      unfold all at refused
      rw [isOk, areOk] at refused
      cases refused

end Verdict

namespace Validation

variable {α : Type}

/-- The check tells why it refuses a value. -/
def Tells (check : List Step → Value → Verdict α) : Prop :=
  ∀ place input, (check place input).Told

theorem tells_text : Tells text := by
  intro place input
  cases input with
  | text value =>
      exact Verdict.told_ok value
  | _ =>
      exact Verdict.told_refuse _ _ _

theorem tells_nonEmptyText : Tells nonEmptyText := by
  intro place input
  unfold nonEmptyText
  split
  · exact Verdict.told_refuse _ _ _
  · exact tells_text place input

theorem tells_texts : Tells texts := by
  intro place input
  cases input with
  | list items =>
      refine Verdict.told_all fun verdict member => ?_
      obtain ⟨item, -, rfl⟩ := List.mem_map.mp member
      exact tells_text _ _
  | _ =>
      exact Verdict.told_refuse _ _ _

theorem tells_nonEmptyTexts : Tells nonEmptyTexts := by
  intro place input
  unfold nonEmptyTexts
  split
  · exact Verdict.told_refuse _ _ _
  · exact tells_texts place input

theorem tells_effect : Tells effect := by
  intro place input
  unfold effect
  split
  · split
    · exact Verdict.told_ok _
    · exact Verdict.told_refuse _ _ _
  · exact Verdict.told_refuse _ _ _

theorem tells_condition : Tells condition := by
  intro place input
  unfold condition
  split
  · exact Verdict.told_ok none
  · split
    · split
      · exact Verdict.told_ok _
      · exact Verdict.told_refuse _ _ _
    · rename_i filled
      exact fun refused => filled (Except.error.inj refused)
  · exact Verdict.told_refuse _ _ _

variable {check : List Step → Value → Verdict α}

theorem told_required
    (tells : Tells check) (name : String) (fields : Fields) :
    (required name check fields).Told := by
  unfold required
  cases fields.get? name with
  | some value =>
      exact tells _ _
  | none =>
      exact Verdict.told_refuse _ _ _

theorem told_optional
    (tells : Tells check) (name : String) (fields : Fields) :
    (optional name check fields).Told := by
  unfold optional
  split
  · exact Verdict.told_ok none
  · exact Verdict.told_ok (some none)
  · exact (tells _ _).map _

end Validation

/-! ## Documents -/

namespace Policy

theorem told_conditionOf (fields : Fields) : (conditionOf fields).Told := by
  unfold conditionOf
  cases fields.get? "condition" with
  | some value =>
      exact Validation.tells_condition _ _
  | none =>
      exact Verdict.told_ok none

/-- What is found wrong with a document is what is found wrong with its fields. -/
theorem issues_ofFields (fields : Fields) :
    (ofFields fields).issues =
      (Validation.required "name" Validation.nonEmptyText fields).issues ++
        (Validation.required "effect" Validation.effect fields).issues ++
        (Validation.required "actions" Validation.nonEmptyTexts fields).issues ++
        (Validation.required "resources" Validation.nonEmptyTexts
          fields).issues ++
        (conditionOf fields).issues := by
  unfold ofFields
  split
  · rename_i name effect actions resources condition
    rw [name, effect, actions, resources, condition]
    rfl
  · rfl

/-- A document is accepted exactly when nothing is found wrong with it. -/
theorem issues_ofFields_eq_nil_iff {fields : Fields} :
    (ofFields fields).issues = [] ↔
      ∃ policy, ofFields fields = .ok policy := by
  constructor
  · intro nothing
    simp only [issues_ofFields, List.append_eq_nil_iff,
      (Validation.told_required Validation.tells_nonEmptyText _
        _).issues_eq_nil_iff,
      (Validation.told_required Validation.tells_effect _
        _).issues_eq_nil_iff,
      (Validation.told_required Validation.tells_nonEmptyTexts _
        _).issues_eq_nil_iff,
      (told_conditionOf fields).issues_eq_nil_iff] at nothing
    obtain ⟨⟨⟨⟨⟨name, isName⟩, effect, isEffect⟩, actions, areActions⟩,
      resources, areResources⟩, condition, isCondition⟩ := nothing
    exact
      ⟨⟨name, effect, actions, resources, condition⟩,
        ofFields_eq_ok_iff.mpr
          ⟨isName, isEffect, areActions, areResources, isCondition⟩⟩
  · rintro ⟨policy, accepted⟩
    rw [accepted]
    rfl

end Policy

namespace PolicyPatch

/-- A change request is accepted when each of the fields that it holds passes its check
or is null. -/
theorem ofFields_eq_ok_iff {fields : Fields} {patch : PolicyPatch} :
    ofFields fields = .ok patch ↔
      Validation.optional "name" Validation.nonEmptyText fields =
          .ok patch.name ∧
        Validation.optional "effect" Validation.effect fields =
          .ok patch.effect ∧
        Validation.optional "actions" Validation.nonEmptyTexts fields =
          .ok patch.actions ∧
        Validation.optional "resources" Validation.nonEmptyTexts fields =
          .ok patch.resources ∧
        ∃ condition,
          Validation.optional "condition" Validation.condition fields =
              .ok condition ∧
            patch.condition = condition.map Option.join := by
  unfold ofFields
  constructor
  · intro accepted
    split at accepted
    · rename_i name effect actions resources condition
      cases accepted
      exact ⟨name, effect, actions, resources, _, condition, rfl⟩
    · cases accepted
  · rintro ⟨name, effect, actions, resources, found, condition, joined⟩
    rw [name, effect, actions, resources, condition]
    simp only [← joined]

theorem issues_ofFields (fields : Fields) :
    (ofFields fields).issues =
      (Validation.optional "name" Validation.nonEmptyText fields).issues ++
        (Validation.optional "effect" Validation.effect fields).issues ++
        (Validation.optional "actions" Validation.nonEmptyTexts fields).issues ++
        (Validation.optional "resources" Validation.nonEmptyTexts
          fields).issues ++
        (Validation.optional "condition" Validation.condition
          fields).issues := by
  unfold ofFields
  split
  · rename_i name effect actions resources condition
    rw [name, effect, actions, resources, condition]
    rfl
  · rfl

/-- A change request is accepted exactly when nothing is found wrong with it. -/
theorem issues_ofFields_eq_nil_iff {fields : Fields} :
    (ofFields fields).issues = [] ↔
      ∃ patch, ofFields fields = .ok patch := by
  constructor
  · intro nothing
    simp only [issues_ofFields, List.append_eq_nil_iff,
      (Validation.told_optional Validation.tells_nonEmptyText _
        _).issues_eq_nil_iff,
      (Validation.told_optional Validation.tells_effect _
        _).issues_eq_nil_iff,
      (Validation.told_optional Validation.tells_nonEmptyTexts _
        _).issues_eq_nil_iff,
      (Validation.told_optional Validation.tells_condition _
        _).issues_eq_nil_iff] at nothing
    obtain ⟨⟨⟨⟨⟨name, isName⟩, effect, isEffect⟩, actions, areActions⟩,
      resources, areResources⟩, condition, isCondition⟩ := nothing
    exact
      ⟨⟨name, effect, actions, resources, condition.map Option.join⟩,
        ofFields_eq_ok_iff.mpr
          ⟨isName, isEffect, areActions, areResources, condition,
            isCondition, rfl⟩⟩
  · rintro ⟨patch, accepted⟩
    rw [accepted]
    rfl

end PolicyPatch

end AccessControl
