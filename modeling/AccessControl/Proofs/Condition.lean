import AccessControl.Condition

/-!
# The meaning of conditions

On a resource that is a record of fields, or is not there at all, a condition
whose operators hold records of expectations can always be decided, and what is
decided is that every expectation is met: `holds_iff`.
-/

namespace AccessControl

/-- The first segment of a text is what stands before its first dot. -/
theorem exists_segments_eq_cons (text : List Char) :
    ∃ rest, segments text = text.takeWhile (· != '.') :: rest := by
  induction text with
  | nil =>
      exact ⟨[], rfl⟩
  | cons c rest inductionHypothesis =>
      obtain ⟨others, split⟩ := inductionHypothesis
      unfold segments
      by_cases dot : c = '.'
      · rw [if_pos dot, List.takeWhile_cons_of_neg (by simpa using dot)]
        exact ⟨_, rfl⟩
      · rw [if_neg dot, split,
          List.takeWhile_cons_of_pos (by simpa using dot)]
        exact ⟨_, rfl⟩

namespace Fields

/-- The value that a path names: the field with the literal name or, when there is
none and the path has dots, what stands at the end of its segments. -/
def at? (fields : Fields) (path : String) : Option Value :=
  match fields.get? path with
  | some found => some found
  | none =>
      if path.toList.contains '.' then
        (Value.record fields).follow
          ((segments path.toList).map String.ofList)
      else none

end Fields

namespace Value

/-- A resource as a value; a missing one is null. -/
def ofResource : Option Fields → Value
  | some fields => .record fields
  | none => .null

theorem orEmpty_ofResource (resource : Option Fields) :
    (ofResource resource).orEmpty = .record (resource.getD []) := by
  cases resource with
  | none =>
      rfl
  | some fields =>
      cases fields with
      | nil =>
          rfl
      | cons field rest =>
          rfl

theorem lookUp_record (fields : Fields) (path : String) :
    (record fields).lookUp path = .ok (fields.at? path) := by
  have asked : (record fields).field path = .ok (fields.get? path) := rfl
  unfold lookUp Fields.at?
  rw [asked]
  simp only [bind, Except.bind]
  cases fields.get? path with
  | some found =>
      rfl
  | none =>
      exact (apply_ite Except.ok _ _ _).symm

end Value

namespace Condition

/-- The field that an expectation names is found, and stands in the operator's
relation to the expected value. -/
def Fulfilled
    (operator : Operator) (fields : Fields)
    (expectation : String × Value) : Prop :=
  ∃ actual,
    fields.at? expectation.1 = some actual ∧
      operator.relates actual expectation.2 = true

/-- Every operator is known, and all its expectations are fulfilled. -/
def Met (condition : Condition) (fields : Fields) : Prop :=
  ∀ entry ∈ condition,
    ∃ operator expectations,
      Operator.ofName? entry.1 = some operator ∧
        entry.2 = .record expectations ∧
        ∀ expectation ∈ expectations,
          Fulfilled operator fields expectation

/-- Every operator holds a record of expectations. -/
def Shaped (condition : Condition) : Prop :=
  ∀ entry ∈ condition, ∃ expectations, entry.2 = .record expectations

theorem meets_record
    (operator : Operator) (fields expectations : Fields) :
    ∃ met,
      meets operator (.record fields) expectations = .ok met ∧
        (met = true ↔
          ∀ expectation ∈ expectations,
            Fulfilled operator fields expectation) := by
  induction expectations with
  | nil =>
      exact ⟨true, rfl, by simp⟩
  | cons expectation rest inductionHypothesis =>
      obtain ⟨path, expected⟩ := expectation
      obtain ⟨restMet, restDecided, restMeaning⟩ := inductionHypothesis
      unfold meets
      rw [Value.lookUp_record]
      simp only [bind, Except.bind]
      cases found : fields.at? path with
      | none =>
          refine ⟨false, rfl, ?_⟩
          simp [Fulfilled, found]
      | some actual =>
          by_cases related : operator.relates actual expected = true
          · refine ⟨restMet, by simp [related, restDecided], ?_⟩
            rw [restMeaning, List.forall_mem_cons]
            have first : Fulfilled operator fields (path, expected) :=
              ⟨actual, found, related⟩
            simp [first]
          · refine ⟨false, by simp [related], ?_⟩
            have missed : ¬ Fulfilled operator fields (path, expected) := by
              rintro ⟨other, otherFound, otherRelated⟩
              rw [found] at otherFound
              cases otherFound
              exact related otherRelated
            simp [missed]

theorem satisfied_record
    (fields : Fields) {condition : Condition} (shaped : condition.Shaped) :
    ∃ met,
      satisfied (.record fields) condition = .ok met ∧
        (met = true ↔ condition.Met fields) := by
  induction condition with
  | nil =>
      exact ⟨true, rfl, by simp [Met]⟩
  | cons entry rest inductionHypothesis =>
      obtain ⟨name, value⟩ := entry
      obtain ⟨expectations, recorded⟩ := shaped (name, value) (by simp)
      simp only at recorded
      subst recorded
      obtain ⟨restMet, restDecided, restMeaning⟩ :=
        inductionHypothesis fun entry member =>
          shaped entry (List.mem_cons_of_mem _ member)
      have split :
          Met ((name, .record expectations) :: rest) fields ↔
            (∃ operator,
              Operator.ofName? name = some operator ∧
                ∀ expectation ∈ expectations,
                  Fulfilled operator fields expectation) ∧
              Met rest fields := by
        simp [Met]
      rw [split, satisfied]
      cases Operator.ofName? name with
      | none =>
          exact ⟨false, rfl, by simp⟩
      | some operator =>
          obtain ⟨met, decided, meaning⟩ :=
            meets_record operator fields expectations
          simp only [decided, bind, Except.bind]
          cases met with
          | false =>
              refine ⟨false, rfl, ?_⟩
              simp only [Option.some.injEq, exists_eq_left']
              rw [← meaning]
              simp
          | true =>
              refine ⟨restMet, restDecided, ?_⟩
              simp only [Option.some.injEq, exists_eq_left']
              rw [restMeaning, ← meaning]
              simp

/-- A missing condition holds of every resource; another one holds when it is met
by the fields of the resource, and a missing resource has none. -/
theorem holds_iff
    {condition : Option Condition}
    (shaped : ∀ entries ∈ condition, entries.Shaped)
    (resource : Option Fields) :
    ∃ met,
      holds (toValue condition) (Value.ofResource resource) = .ok met ∧
        (met = true ↔
          ∀ entries ∈ condition, Met entries (resource.getD [])) := by
  cases condition with
  | none =>
      exact ⟨true, rfl, by simp⟩
  | some entries =>
      obtain ⟨met, decided, meaning⟩ :=
        satisfied_record (resource.getD []) (shaped entries rfl)
      refine ⟨met, ?_, ?_⟩
      · rw [toValue, holds, Value.orEmpty_ofResource]
        exact decided
      · rw [meaning]
        simp

end Condition

end AccessControl
