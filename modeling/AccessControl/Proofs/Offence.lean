import AccessControl.Proofs.Documented
import AccessControl.Proofs.Stored
import AccessControl.Proofs.Verdict
import AccessControl.Registry.Records
import Mathlib.Data.List.Flatten
import Mathlib.Data.List.Nodup

/-!
# What is wrong with a document

Of a document that is refused, every place that offends is told of, once and in order;
whether expected values suit their operators is looked at only in a condition without
other offences, and then the first one that does not is told of:
`Policy.ofValue_documented`.
-/

namespace AccessControl

namespace Fields

/-- What is wrong with a document, and where, apart from its expected values. -/
inductive Offends (fields : Fields) : Issue → Prop
  | missing {name : String} :
      name ∈ Registry.requiredFields → fields.get? name = none →
      Offends fields ⟨.missing, [.field name], .record fields⟩
  | notString {value : Value} :
      fields.get? "name" = some value → ¬ value.IsText →
      Offends fields ⟨.notString, [.field "name"], value⟩
  | emptyString :
      fields.get? "name" = some (.text "") →
      Offends fields ⟨.emptyString, [.field "name"], .text ""⟩
  | notEffect {value : Value} :
      fields.get? "effect" = some value →
      value ≠ .text "Allow" → value ≠ .text "Deny" →
      Offends fields ⟨.notEffect, [.field "effect"], value⟩
  | notList {name : String} {value : Value} :
      name ∈ ["actions", "resources"] → fields.get? name = some value →
      ¬ value.IsList →
      Offends fields ⟨.notList, [.field name], value⟩
  | emptyList {name : String} :
      name ∈ ["actions", "resources"] → fields.get? name = some (.list []) →
      Offends fields ⟨.emptyList, [.field name], .list []⟩
  | notStrings {name : String} {items : List Value} {position : Nat}
      {item : Value} :
      name ∈ ["actions", "resources"] →
      fields.get? name = some (.list items) →
      items[position]? = some item → ¬ item.IsText →
      Offends fields ⟨.notString, [.field name, .index position], item⟩
  | notDictionary {value : Value} :
      fields.get? "condition" = some value → value ≠ .null →
      ¬ value.IsRecord →
      Offends fields ⟨.notDictionary, [.field "condition"], value⟩
  | notOperator {condition : Condition} {entry : String × Value} :
      fields.get? "condition" = some (.record condition) →
      entry ∈ condition → entry.1 ∉ Condition.operatorNames →
      Offends fields
        ⟨.notOperator,
          [.field "condition", .field entry.1, .field "[key]"],
          .text entry.1⟩
  | notExpectations {condition : Condition} {entry : String × Value} :
      fields.get? "condition" = some (.record condition) →
      entry ∈ condition → ¬ entry.2.IsRecord →
      Offends fields
        ⟨.notDictionary, [.field "condition", .field entry.1], entry.2⟩

/-- The first expected value that does not suit its operator, told of the condition as a
whole. -/
inductive Misfits (fields : Fields) : Issue → Prop
  | wrongExpectation {condition : Condition} {operator : Operator}
      {field : String} :
      fields.get? "condition" = some (.record condition) →
      condition.FirstMisfit operator field →
      Misfits fields
        ⟨.wrongExpectation operator field, [.field "condition"],
          .record condition⟩

/-- The places of one entry of a record: its name, and what stands under the name. -/
def entryPlaces (name : String) (entry : String × Value) : List (List Step) :=
  [[.field name, .field entry.1, .field "[key]"],
   [.field name, .field entry.1]]

/-- The place of a field, and those of its items or entries in order. -/
def placesOf (fields : Fields) (name : String) : List (List Step) :=
  [.field name] ::
    match fields.get? name with
    | some (.list items) =>
        (List.range items.length).map fun position =>
          [.field name, .index position]
    | some (.record entries) => entries.flatMap (entryPlaces name)
    | _ => []

/-- The places of a document, in the order of the fields and then of the positions. -/
def places (fields : Fields) : List (List Step) :=
  Policy.fieldNames.flatMap fields.placesOf

end Fields

namespace Validation

variable {place : List Step} {input : Value} {issue : Issue}

theorem mem_issues_refuse {α : Type} {defect : Defect} :
    issue ∈ (Verdict.refuse defect place input : Verdict α).issues ↔
      issue = ⟨defect, place, input⟩ :=
  List.mem_singleton

theorem mem_issues_text :
    issue ∈ (text place input).issues ↔
      ¬ input.IsText ∧ issue = ⟨.notString, place, input⟩ := by
  cases input <;>
    simp [text, Verdict.issues, Verdict.refuse, Value.IsText]

theorem mem_issues_nonEmptyText :
    issue ∈ (nonEmptyText place input).issues ↔
      ¬ input.IsText ∧ issue = ⟨.notString, place, input⟩ ∨
        input = .text "" ∧ issue = ⟨.emptyString, place, input⟩ := by
  unfold nonEmptyText
  split
  · rename_i empty
    obtain rfl := text_eq_ok_iff.mp empty
    simp [mem_issues_refuse]
  · rename_i filled
    rw [mem_issues_text]
    have notEmpty : input ≠ .text "" := by
      rintro rfl
      exact filled rfl
    simp [notEmpty]

theorem mem_issues_effect :
    issue ∈ (effect place input).issues ↔
      input ≠ .text "Allow" ∧ input ≠ .text "Deny" ∧
        issue = ⟨.notEffect, place, input⟩ := by
  cases input with
  | text name =>
      simp only [effect, Effect.ofName?]
      by_cases allow : name = "Allow"
      · simp [allow, Verdict.issues]
      · by_cases deny : name = "Deny"
        · simp [deny, Verdict.issues]
        · simp [allow, deny, mem_issues_refuse]
  | _ =>
      simp [effect, mem_issues_refuse]

theorem mem_issues_texts {items : List Value} :
    issue ∈ (texts place (.list items)).issues ↔
      ∃ position item,
        items[position]? = some item ∧ ¬ item.IsText ∧
          issue = ⟨.notString, place ++ [.index position], item⟩ := by
  unfold texts
  rw [Verdict.issues_all, List.flatMap_map, List.mem_flatMap]
  constructor
  · rintro ⟨⟨item, position⟩, member, found⟩
    obtain ⟨notText, rfl⟩ := mem_issues_text.mp found
    exact
      ⟨position, item, List.mk_mem_zipIdx_iff_getElem?.mp member, notText,
        rfl⟩
  · rintro ⟨position, item, stands, notText, rfl⟩
    exact
      ⟨(item, position), List.mk_mem_zipIdx_iff_getElem?.mpr stands,
        mem_issues_text.mpr ⟨notText, rfl⟩⟩

theorem mem_issues_nonEmptyTexts :
    issue ∈ (nonEmptyTexts place input).issues ↔
      ¬ input.IsList ∧ issue = ⟨.notList, place, input⟩ ∨
        input = .list [] ∧ issue = ⟨.emptyList, place, input⟩ ∨
        ∃ items position item,
          input = .list items ∧ items[position]? = some item ∧
            ¬ item.IsText ∧
            issue = ⟨.notString, place ++ [.index position], item⟩ := by
  unfold nonEmptyTexts
  split
  · rename_i empty
    obtain rfl := texts_eq_ok_iff.mp empty
    simp [mem_issues_refuse, Value.texts]
  · rename_i filled
    cases input with
    | list items =>
        have notEmpty : items ≠ [] := by
          rintro rfl
          exact filled rfl
        rw [mem_issues_texts]
        simp [notEmpty]
    | _ =>
        simp [texts, mem_issues_refuse, Value.IsList]

theorem mem_entryIssues {entry : String × Value} :
    issue ∈ entryIssues place entry ↔
      entry.1 ∉ Condition.operatorNames ∧
          issue =
            ⟨.notOperator, place ++ [.field entry.1, .field "[key]"],
              .text entry.1⟩ ∨
        ¬ entry.2.IsRecord ∧
          issue = ⟨.notDictionary, place ++ [.field entry.1], entry.2⟩ := by
  obtain ⟨name, held⟩ := entry
  unfold entryIssues
  rw [List.mem_append, Condition.mem_operatorNames_iff]
  refine or_congr ?_ ?_
  · cases Operator.ofName? name <;> simp
  · cases held <;> simp [Value.IsRecord]

theorem mem_issues_condition_record {entries : Condition} :
    issue ∈ (condition place (.record entries)).issues ↔
      issue ∈ entries.flatMap (entryIssues place) ∨
        entries.flatMap (entryIssues place) = [] ∧
          ∃ operator field,
            misfit? entries = some (operator, field) ∧
              issue =
                ⟨.wrongExpectation operator field, place,
                  .record entries⟩ := by
  unfold condition
  dsimp only
  cases entries.flatMap (entryIssues place) with
  | cons first rest =>
      simp [Verdict.issues]
  | nil =>
      cases misfit? entries with
      | none =>
          simp [Verdict.issues]
      | some wrong =>
          simp [mem_issues_refuse, Prod.ext_iff]

theorem mem_issues_condition :
    issue ∈ (condition place input).issues ↔
      input ≠ .null ∧ ¬ input.IsRecord ∧
          issue = ⟨.notDictionary, place, input⟩ ∨
        ∃ entries, input = .record entries ∧
          issue ∈ (condition place (.record entries)).issues := by
  cases input with
  | record entries =>
      simp
  | null =>
      simp [condition, Verdict.issues]
  | _ =>
      simp [condition, mem_issues_refuse, Value.IsRecord]

theorem mem_issues_required
    {α : Type} {name : String} {check : List Step → Value → Verdict α}
    {fields : Fields} :
    issue ∈ (required name check fields).issues ↔
      fields.get? name = none ∧
          issue = ⟨.missing, [.field name], .record fields⟩ ∨
        ∃ value,
          fields.get? name = some value ∧
            issue ∈ (check [.field name] value).issues := by
  unfold required
  cases fields.get? name with
  | none =>
      simp [mem_issues_refuse]
  | some value =>
      simp

theorem mem_issues_conditionOf {fields : Fields} :
    issue ∈ (Policy.conditionOf fields).issues ↔
      ∃ value,
        fields.get? "condition" = some value ∧
          issue ∈ (condition [.field "condition"] value).issues := by
  unfold Policy.conditionOf
  cases fields.get? "condition" with
  | none =>
      simp [Verdict.issues]
  | some value =>
      simp

end Validation

/-! ## What is found is what offends -/

namespace Fields

variable {fields : Fields} {issue : Issue}

theorem offends_of_name
    (found :
      issue ∈
        (Validation.required "name" Validation.nonEmptyText fields).issues) :
    fields.Offends issue := by
  rcases Validation.mem_issues_required.mp found with
    ⟨absent, rfl⟩ | ⟨value, held, inside⟩
  · exact .missing (by decide) absent
  · rcases Validation.mem_issues_nonEmptyText.mp inside with
      ⟨notText, rfl⟩ | ⟨rfl, rfl⟩
    · exact .notString held notText
    · exact .emptyString held

theorem offends_of_effect
    (found :
      issue ∈ (Validation.required "effect" Validation.effect fields).issues) :
    fields.Offends issue := by
  rcases Validation.mem_issues_required.mp found with
    ⟨absent, rfl⟩ | ⟨value, held, inside⟩
  · exact .missing (by decide) absent
  · obtain ⟨notAllow, notDeny, rfl⟩ := Validation.mem_issues_effect.mp inside
    exact .notEffect held notAllow notDeny

theorem offends_of_list
    {name : String} (isList : name ∈ ["actions", "resources"])
    (found :
      issue ∈
        (Validation.required name Validation.nonEmptyTexts fields).issues) :
    fields.Offends issue := by
  have isRequired : name ∈ Registry.requiredFields :=
    List.mem_cons_of_mem _ (List.mem_cons_of_mem _ isList)
  rcases Validation.mem_issues_required.mp found with
    ⟨absent, rfl⟩ | ⟨value, held, inside⟩
  · exact .missing isRequired absent
  · rcases Validation.mem_issues_nonEmptyTexts.mp inside with
      ⟨notList, rfl⟩ | ⟨rfl, rfl⟩ |
        ⟨items, position, item, rfl, stands, notText, rfl⟩
    · exact .notList isList held notList
    · exact .emptyList isList held
    · exact .notStrings isList held stands notText

theorem offends_of_entry
    {condition : Condition}
    (held : fields.get? "condition" = some (.record condition))
    (found :
      issue ∈
        condition.flatMap (Validation.entryIssues [.field "condition"])) :
    fields.Offends issue := by
  obtain ⟨entry, member, inside⟩ := List.mem_flatMap.mp found
  rcases Validation.mem_entryIssues.mp inside with
    ⟨unknown, rfl⟩ | ⟨notRecord, rfl⟩
  · exact .notOperator held member unknown
  · exact .notExpectations held member notRecord

/-- Nothing but expected values can be wrong with a condition whose operators have no
issues. -/
theorem forall_offends_iff
    {condition : Condition}
    (held : fields.get? "condition" = some (.record condition)) :
    (∀ other, fields.Offends other →
        other.place.head? ≠ some (.field "condition")) ↔
      condition.flatMap (Validation.entryIssues [.field "condition"]) = [] := by
  constructor
  · intro elsewhere
    refine List.eq_nil_iff_forall_not_mem.mpr fun issue found => ?_
    have offends := offends_of_entry held found
    obtain ⟨entry, -, inside⟩ := List.mem_flatMap.mp found
    refine elsewhere issue offends ?_
    rcases Validation.mem_entryIssues.mp inside with ⟨-, rfl⟩ | ⟨-, rfl⟩ <;>
      rfl
  · intro faultless other offends same
    have sound (entry : String × Value) (member : entry ∈ condition) :=
      Validation.entryIssues_eq_nil_iff.mp
        (List.flatMap_eq_nil_iff.mp faultless entry member)
    cases offends with
    | missing isRequired _ =>
        cases same
        exact absurd isRequired (by decide)
    | notString _ _ =>
        simp at same
    | emptyString _ =>
        simp at same
    | notEffect _ _ _ =>
        simp at same
    | notList isList _ _ =>
        cases same
        exact absurd isList (by decide)
    | emptyList isList _ =>
        cases same
        exact absurd isList (by decide)
    | notStrings isList _ _ _ =>
        cases same
        exact absurd isList (by decide)
    | notDictionary given _ notRecord =>
        rw [held] at given
        cases given
        exact notRecord (Value.isRecord_record _)
    | notOperator given member unknown =>
        rw [held] at given
        cases given
        exact
          unknown (Condition.mem_operatorNames_iff.mpr (sound _ member).1)
    | notExpectations given member notRecord =>
        rw [held] at given
        cases given
        exact notRecord (sound _ member).2

end Fields

namespace Policy

variable {fields : Fields} {issue : Issue}

theorem mem_issues_ofFields :
    issue ∈ (ofFields fields).issues ↔
      issue ∈
          (Validation.required "name" Validation.nonEmptyText
            fields).issues ∨
        issue ∈
          (Validation.required "effect" Validation.effect fields).issues ∨
        (∃ name ∈ ["actions", "resources"],
          issue ∈
            (Validation.required name Validation.nonEmptyTexts
              fields).issues) ∨
        issue ∈ (conditionOf fields).issues := by
  rw [issues_ofFields]
  simp only [List.mem_append, List.mem_cons, List.not_mem_nil, or_false,
    exists_eq_or_imp, exists_eq_left, or_assoc]

theorem mem_issues_of_missing
    {name : String} (isRequired : name ∈ Registry.requiredFields)
    (absent : fields.get? name = none) :
    ⟨.missing, [.field name], .record fields⟩ ∈ (ofFields fields).issues := by
  have found {α : Type} (check : List Step → Value → Verdict α) :
      ⟨.missing, [.field name], .record fields⟩ ∈
        (Validation.required name check fields).issues :=
    Validation.mem_issues_required.mpr (.inl ⟨absent, rfl⟩)
  rw [mem_issues_ofFields]
  simp only [Registry.requiredFields, List.mem_cons, List.not_mem_nil,
    or_false] at isRequired
  rcases isRequired with rfl | rfl | rfl | rfl
  · exact .inl (found _)
  · exact .inr (.inl (found _))
  · exact .inr (.inr (.inl ⟨_, by decide, found _⟩))
  · exact .inr (.inr (.inl ⟨_, by decide, found _⟩))

theorem mem_issues_of_name
    {value : Value} (held : fields.get? "name" = some value)
    (found :
      issue ∈ (Validation.nonEmptyText [.field "name"] value).issues) :
    issue ∈ (ofFields fields).issues :=
  mem_issues_ofFields.mpr
    (.inl (Validation.mem_issues_required.mpr (.inr ⟨value, held, found⟩)))

theorem mem_issues_of_list
    {name : String} (isList : name ∈ ["actions", "resources"])
    {value : Value} (held : fields.get? name = some value)
    (found :
      issue ∈ (Validation.nonEmptyTexts [.field name] value).issues) :
    issue ∈ (ofFields fields).issues := by
  refine mem_issues_ofFields.mpr (.inr (.inr (.inl ⟨name, isList, ?_⟩)))
  exact Validation.mem_issues_required.mpr (.inr ⟨value, held, found⟩)

theorem mem_issues_of_condition
    {value : Value} (held : fields.get? "condition" = some value)
    (found :
      issue ∈ (Validation.condition [.field "condition"] value).issues) :
    issue ∈ (ofFields fields).issues := by
  refine mem_issues_ofFields.mpr (.inr (.inr (.inr ?_)))
  exact Validation.mem_issues_conditionOf.mpr ⟨value, held, found⟩

theorem mem_issues_of_entry
    {condition : Condition} {entry : String × Value}
    (held : fields.get? "condition" = some (.record condition))
    (member : entry ∈ condition)
    (found : issue ∈ Validation.entryIssues [.field "condition"] entry) :
    issue ∈ (ofFields fields).issues := by
  refine mem_issues_of_condition held ?_
  exact
    Validation.mem_issues_condition_record.mpr
      (.inl (List.mem_flatMap.mpr ⟨entry, member, found⟩))

/-- Whatever offends is told of. -/
theorem mem_issues_of_offends (offends : fields.Offends issue) :
    issue ∈ (ofFields fields).issues := by
  cases offends with
  | missing isRequired absent =>
      exact mem_issues_of_missing isRequired absent
  | notString held notText =>
      exact
        mem_issues_of_name held
          (Validation.mem_issues_nonEmptyText.mpr (.inl ⟨notText, rfl⟩))
  | emptyString held =>
      exact
        mem_issues_of_name held
          (Validation.mem_issues_nonEmptyText.mpr (.inr ⟨rfl, rfl⟩))
  | notEffect held notAllow notDeny =>
      refine
        mem_issues_ofFields.mpr
          (.inr (.inl (Validation.mem_issues_required.mpr (.inr ?_))))
      exact
        ⟨_, held, Validation.mem_issues_effect.mpr ⟨notAllow, notDeny, rfl⟩⟩
  | notList isList held notList =>
      exact
        mem_issues_of_list isList held
          (Validation.mem_issues_nonEmptyTexts.mpr (.inl ⟨notList, rfl⟩))
  | emptyList isList held =>
      exact
        mem_issues_of_list isList held
          (Validation.mem_issues_nonEmptyTexts.mpr (.inr (.inl ⟨rfl, rfl⟩)))
  | notStrings isList held stands notText =>
      exact
        mem_issues_of_list isList held
          (Validation.mem_issues_nonEmptyTexts.mpr
            (.inr (.inr ⟨_, _, _, rfl, stands, notText, rfl⟩)))
  | notDictionary held notNull notRecord =>
      exact
        mem_issues_of_condition held
          (Validation.mem_issues_condition.mpr
            (.inl ⟨notNull, notRecord, rfl⟩))
  | notOperator held member unknown =>
      exact
        mem_issues_of_entry held member
          (Validation.mem_entryIssues.mpr (.inl ⟨unknown, rfl⟩))
  | notExpectations held member notRecord =>
      exact
        mem_issues_of_entry held member
          (Validation.mem_entryIssues.mpr (.inr ⟨notRecord, rfl⟩))

/-- What is told of is what offends, and the first misfit of a condition with which
nothing else is wrong. -/
theorem mem_issues_iff :
    issue ∈ (ofFields fields).issues ↔
      fields.Offends issue ∨
        fields.Misfits issue ∧
          ∀ other, fields.Offends other →
            other.place.head? ≠ some (.field "condition") := by
  constructor
  · intro found
    rcases mem_issues_ofFields.mp found with
      inName | inEffect | ⟨name, isList, inList⟩ | inCondition
    · exact .inl (Fields.offends_of_name inName)
    · exact .inl (Fields.offends_of_effect inEffect)
    · exact .inl (Fields.offends_of_list isList inList)
    · obtain ⟨value, held, inside⟩ :=
        Validation.mem_issues_conditionOf.mp inCondition
      rcases Validation.mem_issues_condition.mp inside with
        ⟨notNull, notRecord, rfl⟩ | ⟨condition, rfl, inRecord⟩
      · exact .inl (.notDictionary held notNull notRecord)
      · rcases Validation.mem_issues_condition_record.mp inRecord with
          inEntries | ⟨faultless, operator, field, misfit, rfl⟩
        · exact .inl (Fields.offends_of_entry held inEntries)
        · have first := (Validation.misfit?_eq_some_iff faultless).mp misfit
          exact
            .inr
              ⟨.wrongExpectation held first,
                (Fields.forall_offends_iff held).mpr faultless⟩
  · rintro (offends | ⟨misfits, elsewhere⟩)
    · exact mem_issues_of_offends offends
    · obtain ⟨held, misfit⟩ := misfits
      have faultless := (Fields.forall_offends_iff held).mp elsewhere
      have found := (Validation.misfit?_eq_some_iff faultless).mpr misfit
      exact
        mem_issues_of_condition held
          (Validation.mem_issues_condition_record.mpr
            (.inr ⟨faultless, _, _, found, rfl⟩))

end Policy

namespace Verdict

variable {α : Type}

/-- The places of what is found. -/
def places (verdict : Verdict α) : List (List Step) :=
  verdict.issues.map Issue.place

end Verdict

namespace Validation

variable {place : List Step} {input : Value}

theorem places_text_sublist : (text place input).places.Sublist [place] := by
  cases input with
  | text value =>
      exact List.nil_sublist _
  | _ =>
      exact .refl _

theorem places_nonEmptyText_sublist :
    (nonEmptyText place input).places.Sublist [place] := by
  unfold nonEmptyText
  split
  · exact .refl _
  · exact places_text_sublist

theorem places_effect_sublist :
    (effect place input).places.Sublist [place] := by
  unfold effect
  split
  · split
    · exact List.nil_sublist _
    · exact .refl _
  · exact .refl _

theorem places_texts_sublist (items : List Value) :
    (texts place (.list items)).places.Sublist
      ((List.range items.length).map fun position =>
        place ++ [.index position]) := by
  have positions :
      (List.range items.length).map (fun position =>
          place ++ [.index position]) =
        items.zipIdx.flatMap fun item => [place ++ [.index item.2]] := by
    rw [← List.map_eq_flatMap, List.range_eq_range',
      ← List.zipIdx_map_snd 0 items, List.map_map]
    rfl
  rw [positions]
  unfold texts Verdict.places
  rw [Verdict.issues_all, List.flatMap_map, List.map_flatMap]
  exact List.Sublist.flatMap_right _ fun item _ => places_text_sublist

theorem places_nonEmptyTexts_sublist
    {fields : Fields} {name : String} {value : Value}
    (held : fields.get? name = some value) :
    (nonEmptyTexts [.field name] value).places.Sublist
      (fields.placesOf name) := by
  unfold nonEmptyTexts
  split
  · exact List.singleton_sublist.mpr List.mem_cons_self
  · cases value with
    | list items =>
        unfold Fields.placesOf
        rw [held]
        exact (places_texts_sublist items).cons _
    | _ =>
        exact List.singleton_sublist.mpr List.mem_cons_self

theorem places_entryIssues_sublist (name : String) (entry : String × Value) :
    ((entryIssues [.field name] entry).map Issue.place).Sublist
      (Fields.entryPlaces name entry) := by
  obtain ⟨key, held⟩ := entry
  unfold entryIssues
  rw [List.map_append]
  have split :
      Fields.entryPlaces name (key, held) =
        [[.field name, .field key, .field "[key]"]] ++
          [[.field name, .field key]] := rfl
  rw [split]
  apply List.Sublist.append
  · cases Operator.ofName? key with
    | none =>
        exact .refl _
    | some operator =>
        exact List.nil_sublist _
  · cases held with
    | record expectations =>
        exact List.nil_sublist _
    | _ =>
        exact .refl _

theorem places_conditionOf_sublist (fields : Fields) :
    (Policy.conditionOf fields).places.Sublist
      (fields.placesOf "condition") := by
  unfold Policy.conditionOf Fields.placesOf
  cases fields.get? "condition" with
  | none =>
      exact List.nil_sublist _
  | some value =>
      cases value with
      | null =>
          exact List.nil_sublist _
      | record entries =>
          unfold condition
          dsimp only
          cases found : entries.flatMap (entryIssues [.field "condition"]) with
          | nil =>
              cases misfit? entries with
              | none =>
                  exact List.nil_sublist _
              | some wrong =>
                  exact List.singleton_sublist.mpr List.mem_cons_self
          | cons first rest =>
              refine List.Sublist.cons _ ?_
              have inEntries :
                  ((first :: rest).map Issue.place).Sublist
                    (entries.flatMap (Fields.entryPlaces "condition")) := by
                rw [← found, List.map_flatMap]
                exact
                  List.Sublist.flatMap_right _ fun entry _ =>
                    places_entryIssues_sublist "condition" entry
              exact inEntries
      | _ =>
          exact List.singleton_sublist.mpr List.mem_cons_self

theorem places_required_sublist
    {α : Type} {name : String} {check : List Step → Value → Verdict α}
    {fields : Fields}
    (each :
      ∀ value, fields.get? name = some value →
        (check [.field name] value).places.Sublist (fields.placesOf name)) :
    (required name check fields).places.Sublist (fields.placesOf name) := by
  unfold required
  cases held : fields.get? name with
  | none =>
      exact List.singleton_sublist.mpr List.mem_cons_self
  | some value =>
      exact each value held

end Validation

/-- What is found wrong with a document is told in the order of its places. -/
theorem Policy.places_ofFields_sublist (fields : Fields) :
    (ofFields fields).places.Sublist fields.places := by
  have single {found : List (List Step)} {name : String}
      (atField : found.Sublist [[.field name]]) :
      found.Sublist (fields.placesOf name) :=
    atField.trans (List.singleton_sublist.mpr List.mem_cons_self)
  have name :
      (Validation.required "name" Validation.nonEmptyText
        fields).places.Sublist (fields.placesOf "name") :=
    Validation.places_required_sublist fun _ _ =>
      single Validation.places_nonEmptyText_sublist
  have effect :
      (Validation.required "effect" Validation.effect fields).places.Sublist
        (fields.placesOf "effect") :=
    Validation.places_required_sublist fun _ _ =>
      single Validation.places_effect_sublist
  have list (name : String) :
      (Validation.required name Validation.nonEmptyTexts
        fields).places.Sublist (fields.placesOf name) :=
    Validation.places_required_sublist fun _ held =>
      Validation.places_nonEmptyTexts_sublist held
  have condition := Validation.places_conditionOf_sublist fields
  have joined :
      fields.places =
        fields.placesOf "name" ++ fields.placesOf "effect" ++
          fields.placesOf "actions" ++ fields.placesOf "resources" ++
          fields.placesOf "condition" := by
    simp [Fields.places, fieldNames]
  unfold Verdict.places
  rw [issues_ofFields, joined]
  simp only [List.map_append]
  exact
    (((name.append effect).append (list "actions")).append
      (list "resources")).append condition

namespace Fields

variable {fields : Fields} {name : String}

theorem head?_of_mem_placesOf
    {place : List Step} (member : place ∈ fields.placesOf name) :
    place.head? = some (.field name) := by
  unfold placesOf at member
  rcases List.mem_cons.mp member with rfl | inside
  · rfl
  · split at inside
    · obtain ⟨position, -, rfl⟩ := List.mem_map.mp inside
      rfl
    · obtain ⟨entry, -, among⟩ := List.mem_flatMap.mp inside
      simp only [entryPlaces, List.mem_cons, List.not_mem_nil,
        or_false] at among
      rcases among with rfl | rfl <;> rfl
    · cases inside

/-- Where every record names each of its fields once, no place comes twice. -/
theorem nodup_placesOf
    (nodup :
      ∀ entries, fields.get? name = some (.record entries) →
        (names entries).Nodup) :
    (fields.placesOf name).Nodup := by
  unfold placesOf
  rw [List.nodup_cons]
  cases held : fields.get? name with
  | none =>
      simp
  | some value =>
      cases value with
      | list items =>
          constructor
          · simp
          · refine List.Nodup.map ?_ List.nodup_range
            intro first second same
            simpa using same
      | record entries =>
          constructor
          · simp [entryPlaces]
          · refine List.nodup_flatMap.mpr ⟨fun entry _ => ?_, ?_⟩
            · simp [entryPlaces]
            · have distinct := nodup entries held
              refine (List.pairwise_map.mp distinct).imp ?_
              intro first second different
              simp [Function.onFun, entryPlaces, different.symm]
      | _ =>
          simp

theorem nodup_places
    (nodup :
      ∀ name entries, fields.get? name = some (.record entries) →
        (names entries).Nodup) :
    fields.places.Nodup := by
  refine
    List.nodup_flatMap.mpr
      ⟨fun name _ => nodup_placesOf (nodup name), ?_⟩
  have distinct : Policy.fieldNames.Pairwise (· ≠ ·) := by
    decide
  refine distinct.imp ?_
  intro first second different place inFirst inSecond
  have same :=
    (head?_of_mem_placesOf inFirst).symm.trans (head?_of_mem_placesOf inSecond)
  cases same
  exact different rfl

end Fields

/-! ## Accepted and refused documents -/

namespace Policy

/-- The documents that are accepted are the documented ones.  What is no record is
refused as such.  Of a record in which every record names its fields once, every place
that offends is told of, and all that is told of stands at different places in their
order; only where nothing else is wrong with the condition, the first expected value
that does not suit its operator is told of too. -/
theorem ofValue_documented (model : String) (document : Value) :
    ((∃ policy, ofValue model document = .ok policy) ↔
      ∃ fields : Fields, document = .record fields ∧ fields.Documented) ∧
    (¬ document.IsRecord →
      (ofValue model document).issues =
        [⟨.notModel model, [], document⟩]) ∧
    ∀ fields : Fields,
      document = .record fields →
      (∀ name entries, fields.get? name = some (.record entries) →
        (Fields.names entries).Nodup) →
      let issues := (ofValue model document).issues
      (issues.map Issue.place).Sublist fields.places ∧
        fields.places.Nodup ∧
        ∀ issue,
          issue ∈ issues ↔
            fields.Offends issue ∨
              fields.Misfits issue ∧
                ∀ other, fields.Offends other →
                  other.place.head? ≠ some (.field "condition") := by
  refine ⟨?_, ?_, ?_⟩
  · constructor
    · rintro ⟨policy, accepted⟩
      cases document with
      | record fields =>
          exact
            ⟨fields, rfl, exists_ofFields_eq_ok_iff.mp ⟨policy, accepted⟩⟩
      | _ =>
          cases accepted
    · rintro ⟨fields, rfl, documented⟩
      exact exists_ofFields_eq_ok_iff.mpr documented
  · intro notRecord
    cases document with
    | record fields =>
        exact absurd (Value.isRecord_record fields) notRecord
    | _ =>
        rfl
  · rintro fields rfl nodup issues
    exact
      ⟨places_ofFields_sublist fields, Fields.nodup_places nodup,
        fun issue => mem_issues_iff⟩

/-- A document with an empty name, a wrong effect, two actions that are no texts, no
resources, an operator that is none and holds no record, and an expected value that does
not suit its operator. -/
def faultyDocument : Fields :=
  [("name", .text ""),
   ("condition",
     .record
       [("Bool", .record [("open", .integer 1)]), ("Is", .null)]),
   ("actions", .list [.text "*", .integer 1, .null]),
   ("effect", .text "allow")]

/-- One that is valid but for two expected values. -/
def unsuitedDocument : Fields :=
  [("name", .text "cap"), ("effect", .text "Deny"),
   ("actions", .list [.text "*"]), ("resources", .list [.text "*"]),
   ("condition",
     .record
       [("NumberLessThan",
          .record [("size", .integer 8), ("age", .boolean true)]),
        ("StringEquals", .record [("kind", .null)])])]

theorem faultyDocument_refused :
    (∀ name entries,
      faultyDocument.get? name = some (.record entries) →
        (Fields.names entries).Nodup) ∧
    (ofValue modelName (.record faultyDocument)).issues =
      [⟨.emptyString, [.field "name"], .text ""⟩,
       ⟨.notEffect, [.field "effect"], .text "allow"⟩,
       ⟨.notString, [.field "actions", .index 1], .integer 1⟩,
       ⟨.notString, [.field "actions", .index 2], .null⟩,
       ⟨.missing, [.field "resources"], .record faultyDocument⟩,
       ⟨.notOperator,
         [.field "condition", .field "Is", .field "[key]"], .text "Is"⟩,
       ⟨.notDictionary, [.field "condition", .field "Is"], .null⟩] ∧
    ((ofValue modelName (.record faultyDocument)).issues.map
      Issue.place).Sublist faultyDocument.places ∧
    (∀ name entries,
      unsuitedDocument.get? name = some (.record entries) →
        (Fields.names entries).Nodup) ∧
    ∃ issue,
      (ofValue modelName (.record unsuitedDocument)).issues = [issue] ∧
        issue.defect = .wrongExpectation .numberLessThan "age" ∧
        unsuitedDocument.Misfits issue := by
  have nodup :
      ∀ name entries,
        faultyDocument.get? name = some (.record entries) →
          (Fields.names entries).Nodup := by
    intro name entries held
    have member := (Fields.get?_eq_some_iff_mem (by decide)).mp held
    obtain ⟨-, rfl⟩ := by simpa [faultyDocument] using member
    decide
  have nodupUnsuited :
      ∀ name entries,
        unsuitedDocument.get? name = some (.record entries) →
          (Fields.names entries).Nodup := by
    intro name entries held
    have member := (Fields.get?_eq_some_iff_mem (by decide)).mp held
    obtain ⟨-, rfl⟩ := by simpa [unsuitedDocument] using member
    decide
  obtain ⟨-, -, faulty⟩ :=
    ofValue_documented modelName (.record faultyDocument)
  obtain ⟨-, -, unsuited⟩ :=
    ofValue_documented modelName (.record unsuitedDocument)
  obtain ⟨inOrder, -, -⟩ := faulty faultyDocument rfl nodup
  obtain ⟨-, -, told⟩ := unsuited unsuitedDocument rfl nodupUnsuited
  have misfits :=
    (told
      ⟨.wrongExpectation .numberLessThan "age", [.field "condition"],
        Registry.fieldOf unsuitedDocument "condition"⟩).mp
      List.mem_cons_self
  refine ⟨nodup, rfl, inOrder, nodupUnsuited, _, rfl, rfl, ?_⟩
  rcases misfits with offends | ⟨misfits, -⟩
  · cases offends
  · exact misfits

end Policy

end AccessControl
