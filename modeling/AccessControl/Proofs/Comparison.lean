import AccessControl.Proofs.Condition
import AccessControl.Proofs.Number

/-!
# The relations of the operators

What each operator of a condition asks of the value that is found and the value that
is expected: texts and booleans are compared with their own kind, and numbers by
their exact values, whatever their kinds.  So the six operators on numbers are the
six relations of one linear order, and what is not a number is only different from
everything: `Number.compared_exactly`.
-/

namespace AccessControl

namespace Operator

/-- The order relation that an operator on numbers asks for. -/
def Ranks {α : Type} [LinearOrder α] (operator : Operator) (x y : α) : Prop :=
  match operator with
  | numberEquals => x = y
  | numberNotEquals => x ≠ y
  | numberGreaterThan => x > y
  | numberGreaterThanEquals => x ≥ y
  | numberLessThan => x < y
  | numberLessThanEquals => x ≤ y
  | stringEquals | stringNotEquals | bool => False

/-- Of two values the one is equal to, above or below the other. -/
theorem existsUnique_ranks {α : Type} [LinearOrder α] (x y : α) :
    ∃! operator : Operator,
      operator ∈ [numberEquals, numberGreaterThan, numberLessThan] ∧
        operator.Ranks x y := by
  rcases lt_trichotomy x y with less | equal | greater
  · refine ⟨numberLessThan, ⟨by simp, less⟩, ?_⟩
    rintro other ⟨member, ranked⟩
    simp only [List.mem_cons, List.not_mem_nil, or_false] at member
    rcases member with rfl | rfl | rfl
    · exact absurd ranked less.ne
    · exact absurd ranked less.asymm
    · rfl
  · refine ⟨numberEquals, ⟨by simp, equal⟩, ?_⟩
    rintro other ⟨member, ranked⟩
    simp only [List.mem_cons, List.not_mem_nil, or_false] at member
    rcases member with rfl | rfl | rfl
    · rfl
    · exact absurd equal ranked.ne'
    · exact absurd equal ranked.ne
  · refine ⟨numberGreaterThan, ⟨by simp, greater⟩, ?_⟩
    rintro other ⟨member, ranked⟩
    simp only [List.mem_cons, List.not_mem_nil, or_false] at member
    rcases member with rfl | rfl | rfl
    · exact absurd ranked greater.ne'
    · rfl
    · exact absurd ranked greater.asymm

/-- The relation of the values of two numbers; what is not a number is only different
from everything. -/
def RanksNumbers (operator : Operator) (a b : Number) : Prop :=
  match a.value?, b.value? with
  | some x, some y => operator.Ranks x y
  | _, _ => operator = numberNotEquals

section Values

variable {operator : Operator} {a b : Number}

theorem ranksNumbers_iff_of_values
    {x y : ExtendedRational} (left : a.value? = some x)
    (right : b.value? = some y) :
    operator.RanksNumbers a b ↔ operator.Ranks x y := by
  unfold RanksNumbers
  rw [left, right]

theorem ranksNumbers_iff_of_none
    (unvalued : a.value? = none ∨ b.value? = none) :
    operator.RanksNumbers a b ↔ operator = numberNotEquals := by
  unfold RanksNumbers
  rcases unvalued with none | none
  · rw [none]
  · rw [none]
    cases a.value? <;> rfl

/-- Only numbers that have values are ranked below others. -/
theorem RanksNumbers.exists_lt (less : numberLessThan.RanksNumbers a b) :
    ∃ x y, a.value? = some x ∧ b.value? = some y ∧ x < y := by
  unfold RanksNumbers at less
  split at less
  · rename_i x y left right
    exact ⟨x, y, left, right, less⟩
  · cases less

theorem RanksNumbers.lt_trans
    {c : Number} (first : numberLessThan.RanksNumbers a b)
    (second : numberLessThan.RanksNumbers b c) :
    numberLessThan.RanksNumbers a c := by
  obtain ⟨x, y, left, middle, below⟩ := first.exists_lt
  obtain ⟨z, w, again, right, above⟩ := second.exists_lt
  rw [middle, Option.some.injEq] at again
  subst again
  exact (ranksNumbers_iff_of_values left right).mpr (below.trans above)

theorem RanksNumbers.expects_eq
    (ranked : operator.RanksNumbers a b) :
    operator.expects = .number := by
  unfold RanksNumbers at ranked
  split at ranked
  · cases operator with
    | stringEquals | stringNotEquals | bool =>
        exact ranked.elim
    | _ =>
        rfl
  · rw [ranked]
    rfl

end Values

theorem relatesNumbers_iff (operator : Operator) (a b : Number) :
    operator.relatesNumbers a b = true ↔ operator.RanksNumbers a b := by
  unfold relatesNumbers RanksNumbers
  rw [Number.compare?_eq]
  cases a.value? with
  | none =>
      cases operator <;> simp
  | some x =>
      cases b.value? with
      | none =>
          cases operator <;> simp
      | some y =>
          have less : some (compare x y) = some .lt ↔ x < y := by
            rw [Option.some.injEq, compare_lt_iff_lt]
          have equal : some (compare x y) = some .eq ↔ x = y := by
            rw [Option.some.injEq, compare_eq_iff_eq]
          have greater : some (compare x y) = some .gt ↔ x > y := by
            rw [Option.some.injEq, compare_gt_iff_gt]
          have orEqual
              {order : Ordering} {Related : Prop}
              (related : some (compare x y) = some order ↔ Related) :
              (some (compare x y) == some order ||
                some (compare x y) == some .eq) = true ↔
                  Related ∨ x = y :=
            Bool.or_eq_true_iff.trans
              (or_congr (beq_iff_eq.trans related) (beq_iff_eq.trans equal))
          cases operator with
          | numberEquals =>
              exact beq_iff_eq.trans equal
          | numberNotEquals =>
              exact bne_iff_ne.trans (not_congr equal)
          | numberGreaterThan =>
              exact beq_iff_eq.trans greater
          | numberGreaterThanEquals =>
              exact (orEqual greater).trans
                ((or_congr_right eq_comm).trans le_iff_lt_or_eq.symm)
          | numberLessThan =>
              exact beq_iff_eq.trans less
          | numberLessThanEquals =>
              exact (orEqual less).trans le_iff_lt_or_eq.symm
          | stringEquals | stringNotEquals | bool =>
              exact iff_of_false Bool.false_ne_true id

/-! ## Values of any kind -/

theorem name_injective {operator other : Operator}
    (same : operator.name = other.name) :
    operator = other := by
  have named := ofName?_eq_some_iff.mpr same
  rw [ofName?_eq_some_iff.mpr rfl] at named
  exact (Option.some.inj named).symm

/-- The value that is found stands in the relation of the operator to the expected
one. -/
inductive Stands : Operator → Value → Value → Prop
  | equalTexts (characters : String) :
      Stands stringEquals (.text characters) (.text characters)
  | otherText {characters : String} {expected : Value} :
      expected ≠ .text characters →
        Stands stringNotEquals (.text characters) expected
  | equalBooleans (value : Bool) :
      Stands bool (.boolean value) (.boolean value)
  | rankedNumbers {operator : Operator} {actual expected : Number} :
      operator.expects = .number →
        operator.RanksNumbers actual expected →
        Stands operator (.number actual) (.number expected)

theorem relates_iff (operator : Operator) (actual expected : Value) :
    operator.relates actual expected = true ↔
      operator.Stands actual expected := by
  constructor
  · intro related
    unfold relates at related
    split at related
    · rw [eq_of_beq related]
      exact .equalTexts _
    · refine .otherText fun same => ?_
      cases same
      simp at related
    · rename_i different
      exact .otherText fun same => different _ same
    · rw [eq_of_beq related]
      exact .equalBooleans _
    · have ranked := (relatesNumbers_iff _ _ _).mp related
      exact .rankedNumbers ranked.expects_eq ranked
    · cases related
  · intro stands
    cases stands with
    | equalTexts characters =>
        exact beq_self_eq_true characters
    | otherText different =>
        cases expected with
        | text other =>
            refine bne_iff_ne.mpr fun same => different ?_
            rw [same]
        | _ =>
            rfl
    | equalBooleans value =>
        exact beq_self_eq_true value
    | rankedNumbers expects ranked =>
        have related := (relatesNumbers_iff _ _ _).mpr ranked
        cases operator <;> exact related

/-- Where the value that is found is not of the operator's kind, it stands in no
relation, not even in that of being different. -/
theorem Stands.admits
    {operator : Operator} {actual expected : Value}
    (stands : operator.Stands actual expected) :
    operator.expects.admits actual = true := by
  cases stands with
  | rankedNumbers expects ranked =>
      rw [expects]
      rfl
  | _ =>
      rfl

end Operator

namespace Fields

/-- The answer of a condition that expects one thing of one field. -/
def passes
    (fields : Fields) (operator : Operator) (path : String)
    (expected : Value) : Except EvaluationFault Bool :=
  Condition.holds
    (.record [(operator.name, .record [(path, expected)])]) (.record fields)

variable {fields : Fields} {operator : Operator} {path : String}

theorem passes_eq
    {actual : Value} (found : fields.at? path = some actual)
    (expected : Value) :
    fields.passes operator path expected =
      .ok (operator.relates actual expected) := by
  have known : Operator.ofName? operator.name = some operator :=
    Operator.ofName?_eq_some_iff.mpr rfl
  have asked : (Value.record fields).orEmpty = .record fields :=
    Value.orEmpty_ofResource (some fields)
  unfold passes Condition.holds
  simp only
  rw [asked, Condition.satisfied, known]
  simp only [Condition.meets, Value.lookUp_record, found, bind, Except.bind]
  cases operator.relates actual expected <;> rfl

/-- One expectation of a number says how the values of the two numbers are ranked. -/
theorem passes_number_iff
    {actual : Number} (found : fields.at? path = some (.number actual))
    (numeric : operator.expects = .number) (expected : Number) :
    fields.passes operator path (.number expected) = .ok true ↔
      operator.RanksNumbers actual expected := by
  rw [passes_eq found, Except.ok.injEq, Operator.relates_iff]
  constructor
  · intro stands
    cases stands with
    | rankedNumbers _ ranked =>
        exact ranked
  · exact .rankedNumbers numeric

end Fields

namespace Number

/-- A number that a record holds is compared with an expected one by the six relations
of the linear order of their exact values, so that just one of equal, greater and less
holds and less is transitive, whatever the kinds of the numbers; where one of the two is
not a number, they are different and nothing else. -/
theorem compared_exactly
    {one other : Fields} {path otherPath : String} {a b : Number}
    (held : one.at? path = some (.number a))
    (heldOther : other.at? otherPath = some (.number b)) (e : Number) :
    (∀ x y, a.value? = some x → e.value? = some y →
      ∀ operator : Operator, operator.expects = .number →
        ∃ passed,
          one.passes operator path (.number e) = .ok passed ∧
            (passed = true ↔ operator.Ranks x y)) ∧
      (a.value? ≠ none → e.value? ≠ none →
        ∃! operator : Operator,
          operator ∈
              [.numberEquals, .numberGreaterThan, .numberLessThan] ∧
            one.passes operator path (.number e) = .ok true) ∧
      (one.passes .numberLessThan path (.number b) = .ok true →
        other.passes .numberLessThan otherPath (.number e) = .ok true →
          one.passes .numberLessThan path (.number e) = .ok true) ∧
      (a.value? = none ∨ e.value? = none →
        ∀ operator : Operator, operator.expects = .number →
          one.passes operator path (.number e) =
            .ok (operator == .numberNotEquals)) := by
  refine ⟨?_, ?_, ?_, ?_⟩
  · intro x y left right operator numeric
    refine ⟨_, Fields.passes_eq held (.number e), ?_⟩
    rw [← Operator.ranksNumbers_iff_of_values left right,
      ← Fields.passes_number_iff held numeric, Fields.passes_eq held,
      Except.ok.injEq]
  · intro leftValued rightValued
    obtain ⟨x, left⟩ := Option.ne_none_iff_exists'.mp leftValued
    obtain ⟨y, right⟩ := Option.ne_none_iff_exists'.mp rightValued
    have passing (operator : Operator) :
        operator ∈ [.numberEquals, .numberGreaterThan, .numberLessThan] ∧
            one.passes operator path (.number e) = .ok true ↔
          operator ∈ [.numberEquals, .numberGreaterThan, .numberLessThan] ∧
            operator.Ranks x y := by
      refine and_congr_right fun member => ?_
      have numeric : operator.expects = .number := by
        revert operator
        decide
      rw [Fields.passes_number_iff held numeric,
        Operator.ranksNumbers_iff_of_values left right]
    simp only [passing]
    exact Operator.existsUnique_ranks x y
  · rw [Fields.passes_number_iff held rfl,
      Fields.passes_number_iff heldOther rfl,
      Fields.passes_number_iff held rfl]
    exact Operator.RanksNumbers.lt_trans
  · intro unvalued operator numeric
    rw [Fields.passes_eq held, Except.ok.injEq, Bool.eq_iff_iff, beq_iff_eq,
      ← Operator.ranksNumbers_iff_of_none unvalued,
      ← Fields.passes_number_iff held numeric, Fields.passes_eq held,
      Except.ok.injEq]

/-- 2 ^ 53 as a double. -/
def evenDouble : Number := .double ⟨0x4340000000000000⟩

/-- One more than 2 ^ 53, which no double is. -/
def oddInteger : Number := .integer 9007199254740993

def infinity : Number := .double ⟨0x7ff0000000000000⟩

def smallParcel : Fields := [("size", .number evenDouble)]

def largeParcel : Fields :=
  [("box", .record [("size", .number oddInteger)])]

theorem oddInteger_between :
    smallParcel.at? "size" = some (.number evenDouble) ∧
      largeParcel.at? "box.size" = some (.number oddInteger) ∧
      smallParcel.passes .numberLessThan "size" (.number oddInteger) =
        .ok true ∧
      largeParcel.passes .numberLessThan "box.size" (.number infinity) =
        .ok true ∧
      smallParcel.passes .numberLessThan "size" (.number infinity) =
        .ok true := by
  have held : smallParcel.at? "size" = some (.number evenDouble) := by
    decide
  have heldOther :
      largeParcel.at? "box.size" = some (.number oddInteger) := by
    decide
  have first :
      smallParcel.passes .numberLessThan "size" (.number oddInteger) =
        .ok true := by
    have related :
        Operator.numberLessThan.relates (.number evenDouble)
          (.number oddInteger) = true := by
      decide +kernel
    rw [Fields.passes_eq held, related]
  have second :
      largeParcel.passes .numberLessThan "box.size" (.number infinity) =
        .ok true := by
    have related :
        Operator.numberLessThan.relates (.number oddInteger)
          (.number infinity) = true := by
      decide +kernel
    rw [Fields.passes_eq heldOther, related]
  obtain ⟨-, -, trans, -⟩ := compared_exactly held heldOther infinity
  exact ⟨held, heldOther, first, second, trans first second⟩

end Number

end AccessControl
