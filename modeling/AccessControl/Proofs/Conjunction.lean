import AccessControl.Proofs.Comparison
import Mathlib.Data.List.Forall2

/-!
# Conditions as conjunctions

A condition is a list of demands, each of them an operator by its name with the values
that fields are expected to have.  It holds when every operator is known and every
field is found and stands in the operator's relation to the expected value, no matter
in which order the demands and their fields are written: `holds_iff_upheld`.
-/

namespace AccessControl

theorem segments_ne_nil (text : List Char) : segments text ≠ [] := by
  obtain ⟨rest, split⟩ := exists_segments_eq_cons text
  rw [split]
  exact List.cons_ne_nil _ _

theorem segments_eq_splitOn (text : List Char) :
    segments text = text.splitOn '.' := by
  induction text with
  | nil =>
      rfl
  | cons c rest inductionHypothesis =>
      unfold segments
      rw [List.splitOn_cons_eq_if_modifyHead, ← inductionHypothesis]
      by_cases dot : c = '.'
      · rw [if_pos dot, if_pos (beq_iff_eq.mpr dot)]
      · rw [if_neg dot, if_neg (mt beq_iff_eq.mp dot)]
        obtain ⟨others, split⟩ := exists_segments_eq_cons rest
        rw [split]
        rfl

theorem dot_notMem_of_mem_segments
    {text part : List Char} (member : part ∈ segments text) :
    '.' ∉ part := by
  induction text generalizing part with
  | nil =>
      rw [List.mem_singleton.mp member]
      exact List.not_mem_nil
  | cons c rest inductionHypothesis =>
      obtain ⟨others, split⟩ := exists_segments_eq_cons rest
      have first := inductionHypothesis (split ▸ List.mem_cons_self)
      unfold segments at member
      by_cases dot : c = '.'
      · rw [if_pos dot] at member
        rcases List.mem_cons.mp member with rfl | later
        · exact List.not_mem_nil
        · exact inductionHypothesis later
      · rw [if_neg dot, split] at member
        rcases List.mem_cons.mp member with rfl | later
        · exact List.not_mem_cons_of_ne_of_not_mem (Ne.symm dot) first
        · exact inductionHypothesis (split ▸ List.mem_cons_of_mem _ later)

/-- Names without dots are the segments of the path that they make up. -/
theorem segments_of_intercalate
    {names : List String} {path : String} (filled : names ≠ [])
    (plain : ∀ name ∈ names, '.' ∉ name.toList)
    (spelled : ".".intercalate names = path) :
    (segments path.toList).map String.ofList = names := by
  have joined : path.toList = ['.'].intercalate (names.map String.toList) := by
    rw [← spelled, String.toList_intercalate]
    rfl
  rw [segments_eq_splitOn, joined, List.splitOn_intercalate]
  · simp
  · simpa using plain
  · simpa using filled

theorem intercalate_segments (path : String) :
    ".".intercalate ((segments path.toList).map String.ofList) = path := by
  apply String.toList_injective
  rw [String.toList_intercalate, segments_eq_splitOn]
  simp [List.intercalate_splitOn]

namespace Value

/-- The names lead from the first value through nested records to the last one. -/
inductive Leads : Value → List String → Value → Prop
  | here (value : Value) : Leads value [] value
  | inside {fields : Fields} {name : String} {inner found : Value}
      {rest : List String} :
      fields.get? name = some inner → Leads inner rest found →
        Leads (.record fields) (name :: rest) found

theorem follow_eq_some_iff {value found : Value} {names : List String} :
    value.follow names = some found ↔ Leads value names found := by
  induction names generalizing value with
  | nil =>
      constructor
      · intro followed
        cases followed
        exact .here _
      · intro leads
        cases leads
        rfl
  | cons name rest inductionHypothesis =>
      constructor
      · intro followed
        cases value with
        | record fields =>
            unfold follow at followed
            cases held : Fields.get? fields name with
            | none =>
                rw [held] at followed
                cases followed
            | some inner =>
                rw [held] at followed
                exact .inside held (inductionHypothesis.mp followed)
        | _ =>
            cases followed
      · intro leads
        cases leads with
        | inside held onward =>
            unfold follow
            rw [held]
            exact inductionHypothesis.mpr onward

end Value

namespace Fields

/-- The value is found under the path: under its literal name or, where no field has
that name, at the end of the names between its dots. -/
inductive Shows (fields : Fields) (path : String) (found : Value) : Prop
  | literal : fields.get? path = some found → Shows fields path found
  | nested {names : List String} :
      fields.get? path = none → names ≠ [] →
        (∀ name ∈ names, '.' ∉ name.toList) →
          ".".intercalate names = path →
            Value.Leads (.record fields) names found →
              Shows fields path found

theorem at?_eq_some_iff {fields : Fields} {path : String} {found : Value} :
    fields.at? path = some found ↔ fields.Shows path found := by
  unfold at?
  constructor
  · intro looked
    cases held : fields.get? path with
    | some value =>
        rw [held] at looked
        cases looked
        exact .literal held
    | none =>
        rw [held] at looked
        simp only [Option.ite_none_right_eq_some] at looked
        refine .nested held ?_ ?_ (intercalate_segments path)
          (Value.follow_eq_some_iff.mp looked.2)
        · simpa using segments_ne_nil path.toList
        · intro name member
          obtain ⟨part, among, rfl⟩ := List.mem_map.mp member
          rw [String.toList_ofList]
          exact dot_notMem_of_mem_segments among
  · intro shows
    cases shows with
    | literal held =>
        rw [held]
    | nested missing filled plain spelled leads =>
        rename_i names
        have divided := segments_of_intercalate filled plain spelled
        rw [missing]
        simp only
        by_cases dotted : path.toList.contains '.' = true
        · rw [if_pos dotted, divided]
          exact Value.follow_eq_some_iff.mpr leads
        · -- Without a dot the path is its only segment, which is no field.
          have whole : names = [path] := by
            rw [← divided, segments_eq_splitOn, List.splitOn_eq_singleton]
            · simp
            · simpa using dotted
          rw [whole] at leads
          cases leads with
          | inside held onward =>
              rw [missing] at held
              cases held

theorem Shows.unique
    {fields : Fields} {path : String} {found other : Value}
    (shows : fields.Shows path found) (otherShows : fields.Shows path other) :
    found = other := by
  have read := at?_eq_some_iff.mpr shows
  rw [at?_eq_some_iff.mpr otherShows] at read
  exact (Option.some.inj read).symm

end Fields

namespace Value

/-- The fields that a resource is asked for: those of a record, and none of what counts
as nothing. -/
inductive HasFields : Value → Fields → Prop
  | record (fields : Fields) : HasFields (.record fields) fields
  | nothing {resource : Value} :
      resource.isTruthy = false → HasFields resource []

theorem HasFields.orEmpty_eq
    {resource : Value} {fields : Fields} (has : resource.HasFields fields) :
    resource.orEmpty = .record fields := by
  cases has with
  | record =>
      exact orEmpty_ofResource (some fields)
  | nothing hollow =>
      unfold orEmpty
      rw [hollow]
      rfl

end Value

/-! ## Demands -/

/-- An operator by its name, and the values that it expects of fields. -/
abbrev Demand := String × Fields

namespace Demand

/-- The operator is known, and every field is found and stands in the operator's relation
to what is expected. -/
def Upheld (demand : Demand) (fields : Fields) : Prop :=
  ∃ operator : Operator,
    operator.name = demand.1 ∧
      ∀ expectation ∈ demand.2, ∃ actual,
        fields.Shows expectation.1 actual ∧
          operator.Stands actual expectation.2

/-- The field of an expectation is missing, or what is found there is not of the
operator's kind. -/
def Misses
    (demand : Demand) (fields : Fields) (expectation : String × Value) : Prop :=
  (∀ actual, ¬ fields.Shows expectation.1 actual) ∨
    ∃ (operator : Operator) (actual : Value),
      operator.name = demand.1 ∧ fields.Shows expectation.1 actual ∧
        operator.expects.admits actual = false

theorem upheld_congr
    {demand other : Demand} (called : other.1 = demand.1)
    (permuted : demand.2.Perm other.2) (fields : Fields) :
    demand.Upheld fields ↔ other.Upheld fields := by
  unfold Upheld
  simp only [called, permuted.mem_iff]

theorem not_upheld_of_misses
    {demand : Demand} {fields : Fields} {expectation : String × Value}
    (among : expectation ∈ demand.2)
    (misses : demand.Misses fields expectation) :
    ¬ demand.Upheld fields := by
  rintro ⟨operator, called, standing⟩
  obtain ⟨actual, shown, stands⟩ := standing expectation among
  rcases misses with hidden | ⟨other, found, otherCalled, otherShown, unfit⟩
  · exact hidden actual shown
  · have same : other = operator :=
      Operator.name_injective (otherCalled.trans called.symm)
    have sameFound : found = actual := otherShown.unique shown
    rw [same, sameFound, stands.admits] at unfit
    cases unfit

end Demand

namespace Condition

/-- The condition that makes these demands. -/
def ofDemands (demands : List Demand) : Condition :=
  demands.map fun demand => (demand.1, .record demand.2)

/-- The demands in another order, and the fields of each in another order. -/
def Rearranged (demands others : List Demand) : Prop :=
  ∃ middle : List Demand,
    demands.Perm middle ∧
      List.Forall₂
        (fun demand other =>
          other.1 = demand.1 ∧ demand.2.Perm other.2)
        middle others

theorem shaped_ofDemands (demands : List Demand) :
    (ofDemands demands).Shaped := by
  intro entry member
  obtain ⟨demand, -, rfl⟩ := List.mem_map.mp member
  exact ⟨demand.2, rfl⟩

theorem met_ofDemands_iff {demands : List Demand} {fields : Fields} :
    (ofDemands demands).Met fields ↔
      ∀ demand ∈ demands, demand.Upheld fields := by
  constructor
  · intro met demand member
    obtain ⟨operator, expectations, known, recorded, fulfilled⟩ :=
      met _ (List.mem_map_of_mem member)
    cases recorded
    refine ⟨operator, Operator.ofName?_eq_some_iff.mp known, ?_⟩
    intro expectation among
    obtain ⟨actual, found, related⟩ := fulfilled expectation among
    exact ⟨actual, Fields.at?_eq_some_iff.mp found,
      (Operator.relates_iff _ _ _).mp related⟩
  · intro upheld entry member
    obtain ⟨demand, inDemands, rfl⟩ := List.mem_map.mp member
    obtain ⟨operator, called, standing⟩ := upheld demand inDemands
    refine ⟨operator, demand.2, Operator.ofName?_eq_some_iff.mpr called, rfl,
      ?_⟩
    intro expectation among
    obtain ⟨actual, shown, stands⟩ := standing expectation among
    exact ⟨actual, Fields.at?_eq_some_iff.mpr shown,
      (Operator.relates_iff _ _ _).mpr stands⟩

theorem Rearranged.upheld_iff
    {demands others : List Demand} (rearranged : Rearranged demands others)
    (fields : Fields) :
    (∀ demand ∈ demands, demand.Upheld fields) ↔
      ∀ demand ∈ others, demand.Upheld fields := by
  obtain ⟨middle, permuted, paired⟩ := rearranged
  simp only [permuted.mem_iff]
  clear permuted
  induction paired with
  | nil =>
      rfl
  | cons alike _ inductionHypothesis =>
      rw [List.forall_mem_cons, List.forall_mem_cons, inductionHypothesis,
        Demand.upheld_congr alike.1 alike.2]

/-- A condition always has an answer, and it holds when each of its demands is upheld by
the fields of the resource.  So the order of the operators and of their fields does not
matter, and a field that is missing or of another kind than the operator's fails every
operator, the negated ones too. -/
theorem holds_iff_upheld
    (demands : List Demand) {resource : Value} {fields : Fields}
    (has : resource.HasFields fields) :
    ∃ met,
      holds (.record (ofDemands demands)) resource = .ok met ∧
        (met = true ↔ ∀ demand ∈ demands, demand.Upheld fields) ∧
        (∀ others, Rearranged demands others →
          holds (.record (ofDemands others)) resource = .ok met) ∧
        ∀ demand ∈ demands, ∀ expectation ∈ demand.2,
          demand.Misses fields expectation → met = false := by
  have answered (some : List Demand) :
      ∃ met,
        holds (.record (ofDemands some)) resource = .ok met ∧
          (met = true ↔ ∀ demand ∈ some, demand.Upheld fields) := by
    obtain ⟨met, decided, meaning⟩ :=
      satisfied_record fields (shaped_ofDemands some)
    refine ⟨met, ?_, meaning.trans met_ofDemands_iff⟩
    rw [holds, has.orEmpty_eq]
    exact decided
  obtain ⟨met, decided, meaning⟩ := answered demands
  refine ⟨met, decided, meaning, ?_, ?_⟩
  · intro others rearranged
    obtain ⟨other, otherDecided, otherMeaning⟩ := answered others
    have same : other = met := by
      rw [Bool.eq_iff_iff, otherMeaning, meaning, rearranged.upheld_iff]
    rw [otherDecided, same]
  · intro demand member expectation among misses
    rw [← Bool.not_eq_true, meaning]
    intro upheld
    exact Demand.not_upheld_of_misses among misses (upheld demand member)

/-- A record with a field whose name has a dot, and with another field of the same
spelling inside a nested record. -/
def cabinet : Fields :=
  [("owner", .record [("team", .text "guests")]),
   ("drawers.open", .boolean false),
   ("drawers", .record [("open", .text "none"), ("count", .integer 4)])]

def cabinetDemands : List Demand :=
  [("StringNotEquals",
     [("owner.team", .text "core"), ("owner.team", .null)]),
   ("Bool", [("drawers.open", .boolean false)]),
   ("NumberNotEquals", [("drawers.count", .integer 3)])]

def cabinetDemandsTurned : List Demand :=
  [("NumberNotEquals", [("drawers.count", .integer 3)]),
   ("Bool", [("drawers.open", .boolean false)]),
   ("StringNotEquals",
     [("owner.team", .null), ("owner.team", .text "core")])]

theorem cabinetDemandsTurned_upheld :
    (Value.record cabinet).HasFields cabinet ∧
      Rearranged cabinetDemands cabinetDemandsTurned ∧
      holds (.record (ofDemands cabinetDemandsTurned)) (.record cabinet) =
        .ok true ∧
      (Value.text "").HasFields [] ∧
      holds (.record (ofDemands cabinetDemands)) (.text "") = .ok false := by
  have has : (Value.record cabinet).HasFields cabinet := .record cabinet
  have rearranged : Rearranged cabinetDemands cabinetDemandsTurned := by
    refine ⟨cabinetDemands.reverse, (List.reverse_perm _).symm, ?_⟩
    exact .cons ⟨rfl, .refl _⟩
      (.cons ⟨rfl, .refl _⟩ (.cons ⟨rfl, .swap _ _ _⟩ .nil))
  obtain ⟨met, decided, -, unordered, -⟩ :=
    holds_iff_upheld cabinetDemands has
  have answered :
      holds (.record (ofDemands cabinetDemands)) (.record cabinet) =
        .ok true := by
    decide +kernel
  rw [answered] at decided
  cases decided
  have hollow : (Value.text "").HasFields [] := .nothing rfl
  have missed :
      Demand.Misses ("NumberNotEquals", [("drawers.count", .integer 3)]) []
        ("drawers.count", .integer 3) := by
    refine Or.inl fun actual shown => ?_
    have nowhere : Fields.at? [] "drawers.count" = none := rfl
    rw [Fields.at?_eq_some_iff.mpr shown] at nowhere
    cases nowhere
  obtain ⟨hollowMet, hollowDecided, -, -, missing⟩ :=
    holds_iff_upheld cabinetDemands hollow
  rw [missing _ (by simp [cabinetDemands]) _ List.mem_cons_self missed]
    at hollowDecided
  exact ⟨has, rearranged, unordered _ rearranged, hollow, hollowDecided⟩

end Condition

end AccessControl
