import AccessControl.Store
import Mathlib.Data.Int.Order.Basic
import Mathlib.Data.List.Lex
import Mathlib.Data.List.Sigma

/-!
# The order of sorted readings

Values that have an order are in the order of their keys: a key is a row of marks, and
rows are compared by the first marks that differ.  So a reading that is sorted holds the
documents in ascending order of the field, and those that do not differ there in the
order in which they are stored: `sortedBy_ascending`.
-/

namespace AccessControl

/-- A row of marks. -/
abbrev Key := List Int

namespace Key

/-- The rows differ at some place, and where they first do, the mark of the first one is
less. -/
inductive Parts : Key → Key → Prop
  | here {mark other : Int} (rest others : Key) :
      mark < other → Parts (mark :: rest) (other :: others)
  | later (mark : Int) {rest others : Key} :
      Parts rest others → Parts (mark :: rest) (mark :: others)

/-- The rows part in this direction or in the other one. -/
def Parted (before : Bool) (first second : Key) : Prop :=
  if before then Parts first second else Parts second first

variable {first second : Key} {before : Bool}

theorem Parts.lt (parts : Parts first second) : first < second := by
  induction parts with
  | here rest others less =>
      exact List.Lex.rel less
  | later mark _ inductionHypothesis =>
      exact List.Lex.cons inductionHypothesis

/-- What comes after the place where rows part does not matter. -/
theorem Parts.append (parts : Parts first second) (rest others : Key) :
    Parts (first ++ rest) (second ++ others) := by
  induction parts with
  | here _ _ less =>
      exact .here _ _ less
  | later mark _ inductionHypothesis =>
      exact .later mark inductionHypothesis

theorem Parts.prepend (parts : Parts first second) (common : Key) :
    Parts (common ++ first) (common ++ second) := by
  induction common with
  | nil =>
      exact parts
  | cons mark rest inductionHypothesis =>
      exact .later mark inductionHypothesis

namespace Parted

theorem append (parted : Parted before first second) (rest others : Key) :
    Parted before (first ++ rest) (second ++ others) := by
  cases before with
  | true =>
      exact Parts.append parted rest others
  | false =>
      exact Parts.append parted others rest

theorem prepend (parted : Parted before first second) (common : Key) :
    Parted before (common ++ first) (common ++ second) := by
  cases before with
  | true =>
      exact Parts.prepend parted common
  | false =>
      exact Parts.prepend parted common

theorem before_eq (parted : Parted before first second) :
    before = decide (first < second) := by
  cases before with
  | true =>
      exact (decide_eq_true (Parts.lt parted)).symm
  | false =>
      exact (decide_eq_false (Parts.lt parted).not_gt).symm

theorem of_lt_or_gt {mark other : Int} (rest : Key)
    (less : before = true → mark < other)
    (more : before = false → other < mark) :
    Parted before (mark :: rest) (other :: rest) := by
  cases before with
  | true =>
      exact Parts.here _ _ (less rfl)
  | false =>
      exact Parts.here _ _ (more rfl)

end Parted

/-- Rows that spell out two lists part where the lists do, or where the first one
ends. -/
theorem parts_of_lex
    {α : Type} [LT α] {mark : α → Int}
    (above : ∀ item, 0 < mark item)
    (rising : ∀ item other, item < other → mark item < mark other)
    {items others : List α} (ordered : List.Lex (· < ·) items others) :
    Parts (items.map mark ++ [0]) (others.map mark ++ [0]) := by
  induction ordered with
  | nil =>
      exact .here _ _ (above _)
  | cons _ inductionHypothesis =>
      exact .later _ inductionHypothesis
  | rel less =>
      exact .here _ _ (rising _ _ less)

end Key

namespace Number

/-- The exact value of a number that has a finite one, counted in units. -/
def rank (n : Number) : Int :=
  match n.extended with
  | .finite scaled => scaled
  | _ => 0

variable {first second : Number}

theorem extended_of_isFinite (isFinite : first.isFinite = true) :
    first.extended = .finite first.rank := by
  unfold rank
  cases first with
  | integer n =>
      rfl
  | double d =>
      have exponent : d.exponentField ≠ 2047 := bne_iff_ne.mp isFinite
      simp only [extended, Double.extended, if_neg exponent]
      cases d.isNegative <;> rfl

theorem compare?_of_isFinite
    (isFinite : first.isFinite = true) (isFinite' : second.isFinite = true) :
    first.compare? second = some (compare first.rank second.rank) := by
  unfold compare?
  rw [extended_of_isFinite isFinite, extended_of_isFinite isFinite']
  rfl

end Number

/-! ## Keys of values -/

namespace Value

mutual

/-- Every number in the value has a finite value.  Records have no order, so that it does
not matter what stands in them. -/
def Measured : Value → Prop
  | number n => n.isFinite = true
  | list items => MeasuredItems items
  | _ => True

def MeasuredItems : List Value → Prop
  | [] => True
  | item :: rest => Measured item ∧ MeasuredItems rest

end

def charMark (c : Char) : Int :=
  c.toNat + 1

def byteMark (byte : UInt8) : Int :=
  byte.toNat + 1

mutual

/-- The marks of a value: its instant for a point in time, its rank for a number, and
what stands in it, one after the other, for anything longer.  Every value begins with a
one, and a list ends with a zero, so that one that ends comes before a longer one. -/
def key : Value → Key
  | boolean value => [1, (Number.integer (if value then 1 else 0)).rank]
  | number n => [1, n.rank]
  | text value => 1 :: (value.toList.map charMark ++ [0])
  | id value => 1 :: (value.bytes.map byteMark ++ [0])
  | date value => [1, value.instant]
  | list items => 1 :: keyItems items
  | null | record _ => [1]

def keyItems : List Value → Key
  | [] => [0]
  | item :: rest => key item ++ keyItems rest

end

/-- The key of a field; a missing field comes first. -/
def fieldKey (value : Option Value) : Key :=
  value.elim [] key

theorem exists_key_eq_cons (value : Value) :
    ∃ rest, value.key = 1 :: rest := by
  cases value <;> exact ⟨_, rfl⟩

section Numbers

variable {a b : Value} {m n : Number}

theorem key_of_asNumber? (read : a.asNumber? = some m) :
    a.key = [1, m.rank] := by
  cases a with
  | number value =>
      cases read
      rfl
  | boolean value =>
      cases read
      rfl
  | _ =>
      cases read

theorem isFinite_of_asNumber?
    (measured : a.Measured) (read : a.asNumber? = some m) :
    m.isFinite = true := by
  cases a with
  | number value =>
      cases read
      exact measured
  | boolean value =>
      cases read
      rfl
  | _ =>
      cases read

theorem same_of_asNumber? (read : a.asNumber? = some m) :
    same a b = b.asNumber?.any m.same := by
  cases a with
  | number value =>
      cases read
      cases b <;> rw [same]
  | boolean value =>
      cases read
      cases b <;> rw [same]
  | _ =>
      cases read

theorem before?_of_asNumber?
    (read : a.asNumber? = some m) (different : same a b = false) :
    before? a b =
      match b.asNumber? with
      | some n => .ok (m.compare? n == some .lt)
      | none => .error ⟨a, b⟩ := by
  unfold before?
  rw [different]
  cases a with
  | number value =>
      cases read
      cases b <;> rfl
  | boolean value =>
      cases read
      cases b <;> rfl
  | _ =>
      cases read

end Numbers

theorem rank_eq_of_same
    {m n : Number} (measured : m.isFinite = true)
    (measured' : n.isFinite = true) (equal : m.same n = true) :
    m.rank = n.rank := by
  unfold Number.same at equal
  rw [Number.compare?_of_isFinite measured measured', beq_iff_eq,
    Option.some.injEq] at equal
  exact compare_eq_iff_eq.mp equal

/-- What equals a number is one. -/
theorem key_eq_of_same_number
    {a b : Value} {m : Number} (read : a.asNumber? = some m)
    (measured : a.Measured) (measured' : b.Measured)
    (equal : same a b = true) :
    a.key = b.key := by
  rw [same_of_asNumber? read, Option.any_eq_true] at equal
  obtain ⟨n, readOther, sameNumber⟩ := equal
  have sameRank :=
    rank_eq_of_same (isFinite_of_asNumber? measured read)
      (isFinite_of_asNumber? measured' readOther) sameNumber
  rw [key_of_asNumber? read, key_of_asNumber? readOther, sameRank]

mutual

/-- Equal values have equal keys. -/
theorem key_eq_of_same :
    (a b : Value) → a.Measured → b.Measured → same a b = true →
      a.key = b.key
  | .number n, b, measured, measured', equal =>
      key_eq_of_same_number (m := n) rfl measured measured' equal
  | .boolean _, b, measured, measured', equal =>
      key_eq_of_same_number rfl measured measured' equal
  | .null, b, _, _, equal => by
      cases b <;> first | rfl | cases equal
  | .text s, b, _, _, equal => by
      cases b with
      | text t =>
          rw [same_text, beq_iff_eq] at equal
          rw [equal]
      | _ =>
          cases equal
  | .id i, b, _, _, equal => by
      cases b with
      | id j =>
          rw [same_id, beq_iff_eq] at equal
          rw [equal]
      | _ =>
          cases equal
  | .date s, b, _, _, equal => by
      cases b with
      | date t =>
          rw [same, sameDate, Bool.and_eq_true, beq_iff_eq, beq_iff_eq]
            at equal
          rw [key, key, equal.2]
      | _ =>
          cases equal
  | .record _, b, _, _, equal => by
      cases b <;> first | rfl | cases equal
  | .list items, b, measured, measured', equal => by
      cases b with
      | list others =>
          rw [same] at equal
          exact
            congrArg (_ :: ·)
              (keyItems_eq_of_sameItems items others measured measured' equal)
      | _ =>
          cases equal

theorem keyItems_eq_of_sameItems :
    (as bs : List Value) → MeasuredItems as → MeasuredItems bs →
      sameItems as bs = true → keyItems as = keyItems bs
  | [], [], _, _, _ => rfl
  | [], _ :: _, _, _, equal => by
      cases equal
  | _ :: _, [], _, _, equal => by
      cases equal
  | a :: as, b :: bs, measured, measured', equal => by
      rw [sameItems, Bool.and_eq_true] at equal
      rw [keyItems, keyItems,
        key_eq_of_same a b measured.1 measured'.1 equal.1,
        keyItems_eq_of_sameItems as bs measured.2 measured'.2 equal.2]

end

section Atoms

variable {a b : Value} {before : Bool}

theorem parted_of_before?_number
    {m : Number} (read : a.asNumber? = some m) (measured : a.Measured)
    (measured' : b.Measured) (different : same a b = false)
    (compared : before? a b = .ok before) :
    Key.Parted before a.key b.key := by
  rw [before?_of_asNumber? read different] at compared
  cases readOther : b.asNumber? with
  | none =>
      rw [readOther] at compared
      cases compared
  | some n =>
      have isFinite := isFinite_of_asNumber? measured read
      have isFinite' := isFinite_of_asNumber? measured' readOther
      have order := Number.compare?_of_isFinite isFinite isFinite'
      have unequal : m.rank ≠ n.rank := by
        rw [same_of_asNumber? read, readOther, Option.any_some, Number.same,
          order, beq_eq_false_iff_ne] at different
        exact fun equal =>
          different (congrArg some (compare_eq_iff_eq.mpr equal))
      rw [readOther] at compared
      simp only [order, Except.ok.injEq] at compared
      rw [key_of_asNumber? read, key_of_asNumber? readOther]
      refine
        (Key.Parted.of_lt_or_gt [] (fun less => ?_) (fun notLess => ?_)).prepend
          [1]
      · rw [less, beq_iff_eq, Option.some.injEq, compare_lt_iff_lt]
          at compared
        exact compared
      · rw [notLess, beq_eq_false_iff_ne] at compared
        have notBelow : ¬ m.rank < n.rank := fun below =>
          compared (congrArg some (compare_lt_iff_lt.mpr below))
        omega

/-- Two lists that are spelled out part where they first differ. -/
theorem parted_of_spelled
    {α : Type} [LT α] [Std.Irrefl (· < · : α → α → Prop)]
    [Std.Trichotomous (· < · : α → α → Prop)]
    [Std.Asymm (· < · : α → α → Prop)]
    {mark : α → Int} (above : ∀ item, 0 < mark item)
    (rising : ∀ item other, item < other → mark item < mark other)
    {items others : List α} (different : items ≠ others)
    (told : before = true ↔ items < others) :
    Key.Parted before (1 :: (items.map mark ++ [0]))
      (1 :: (others.map mark ++ [0])) := by
  cases before with
  | true =>
      exact .later _ (Key.parts_of_lex above rising (told.mp rfl))
  | false =>
      have notLess : ¬ items < others := fun less => by
        cases told.mpr less
      rcases List.le_iff_lt_or_eq.mp (List.not_lt.mp notLess) with
        more | equal
      · exact .later _ (Key.parts_of_lex above rising more)
      · exact absurd equal.symm different

theorem charMark_pos (c : Char) : 0 < charMark c :=
  Int.natCast_succ_pos _

theorem charMark_lt {c d : Char} (less : c < d) : charMark c < charMark d :=
  Int.add_lt_add_right (Int.ofNat_lt.mpr less) 1

theorem byteMark_pos (byte : UInt8) : 0 < byteMark byte :=
  Int.natCast_succ_pos _

theorem byteMark_lt {byte other : UInt8} (less : byte < other) :
    byteMark byte < byteMark other :=
  Int.add_lt_add_right (Int.ofNat_lt.mpr less) 1

theorem parted_of_before?_text
    {s : String} (different : same (.text s) b = false)
    (compared : before? (.text s) b = .ok before) :
    Key.Parted before (key (.text s)) b.key := by
  unfold before? at compared
  rw [different] at compared
  cases b with
  | text t =>
      cases compared
      rw [same_text, beq_eq_false_iff_ne] at different
      exact
        parted_of_spelled charMark_pos (fun _ _ => charMark_lt)
          (fun equal => different (String.toList_injective equal))
          decide_eq_true_iff
  | _ =>
      cases compared

theorem parted_of_before?_id
    {i : ObjectId} (different : same (.id i) b = false)
    (compared : before? (.id i) b = .ok before) :
    Key.Parted before (key (.id i)) b.key := by
  unfold before? at compared
  rw [different] at compared
  cases b with
  | id j =>
      cases compared
      rw [same_id, beq_eq_false_iff_ne] at different
      have apart : i.bytes ≠ j.bytes := fun equal => by
        cases i
        cases j
        cases equal
        exact different rfl
      exact
        parted_of_spelled byteMark_pos (fun _ _ => byteMark_lt) apart
          decide_eq_true_iff
  | _ =>
      cases compared

theorem parted_of_before?_date
    {s : Timestamp} (different : same (.date s) b = false)
    (compared : before? (.date s) b = .ok before) :
    Key.Parted before (key (.date s)) b.key := by
  unfold before? at compared
  rw [different] at compared
  cases b with
  | date t =>
      simp only [Bool.false_eq_true, if_false] at compared
      split at compared
      · rename_i known
        cases compared
        rw [same, sameDate, known, Bool.true_and, beq_eq_false_iff_ne]
          at different
        refine
          (Key.Parted.of_lt_or_gt [] (fun less => ?_)
            (fun notLess => ?_)).prepend [1]
        · exact decide_eq_true_iff.mp less
        · have notBelow := decide_eq_false_iff_not.mp notLess
          omega
      · cases compared
  | _ =>
      cases compared

end Atoms

mutual

/-- The keys of values that differ and have an order part in its direction. -/
theorem parted_of_before? {before : Bool} :
    (a b : Value) → a.Measured → b.Measured → same a b = false →
      before? a b = .ok before → Key.Parted before a.key b.key
  | .number n, b, measured, measured', different, compared =>
      parted_of_before?_number (m := n) rfl measured measured' different
        compared
  | .boolean _, b, measured, measured', different, compared =>
      parted_of_before?_number rfl measured measured' different compared
  | .text _, b, _, _, different, compared =>
      parted_of_before?_text different compared
  | .id _, b, _, _, different, compared =>
      parted_of_before?_id different compared
  | .date _, b, _, _, different, compared =>
      parted_of_before?_date different compared
  | .null, b, _, _, different, compared => by
      unfold before? at compared
      rw [different] at compared
      cases b <;> cases compared
  | .record _, b, _, _, different, compared => by
      unfold before? at compared
      rw [different] at compared
      cases b <;> cases compared
  | .list items, b, measured, measured', different, compared => by
      unfold before? at compared
      rw [different] at compared
      cases b with
      | list others =>
          rw [same] at different
          have parted :=
            parted_of_listBefore? items others measured measured' different
              compared
          exact parted.prepend [1]
      | _ =>
          cases compared

theorem parted_of_listBefore? {before : Bool} :
    (as bs : List Value) → MeasuredItems as → MeasuredItems bs →
      sameItems as bs = false → listBefore? as bs = .ok before →
        Key.Parted before (keyItems as) (keyItems bs)
  | [], [], _, _, different, _ => by
      cases different
  | [], b :: bs, _, _, _, compared => by
      cases compared
      obtain ⟨rest, begins⟩ := b.exists_key_eq_cons
      rw [keyItems, keyItems, begins]
      exact Key.Parts.here _ _ Int.zero_lt_one
  | a :: as, [], _, _, _, compared => by
      cases compared
      obtain ⟨rest, begins⟩ := a.exists_key_eq_cons
      rw [keyItems, keyItems, begins]
      exact Key.Parts.here _ _ Int.zero_lt_one
  | a :: as, b :: bs, measured, measured', different, compared => by
      unfold listBefore? at compared
      rw [keyItems, keyItems]
      cases equal : same a b with
      | true =>
          rw [equal] at compared
          rw [sameItems, equal, Bool.true_and] at different
          rw [key_eq_of_same a b measured.1 measured'.1 equal]
          have parted :=
            parted_of_listBefore? as bs measured.2 measured'.2 different
              compared
          exact parted.prepend b.key
      | false =>
          rw [equal] at compared
          have parted :=
            parted_of_before? a b measured.1 measured'.1 equal compared
          exact parted.append _ _

end

/-- Values that have an order are in the order of their keys. -/
theorem before?_eq_decide
    {a b : Value} {before : Bool} (measured : a.Measured)
    (measured' : b.Measured) (compared : before? a b = .ok before) :
    before = decide (a.key < b.key) := by
  cases equal : same a b with
  | true =>
      unfold before? at compared
      rw [equal] at compared
      cases compared
      rw [key_eq_of_same a b measured measured' equal]
      exact (decide_eq_false (lt_irrefl _)).symm
  | false =>
      exact (parted_of_before? a b measured measured' equal compared).before_eq

/-- So are fields, where a missing one comes first. -/
theorem fieldBefore?_eq_decide
    {a b : Option Value} {before : Bool} (measured : ∀ v ∈ a, v.Measured)
    (measured' : ∀ v ∈ b, v.Measured)
    (compared : fieldBefore? a b = .ok before) :
    before = decide (fieldKey a < fieldKey b) := by
  cases a with
  | some a =>
      cases b with
      | some b =>
          exact
            before?_eq_decide (measured a rfl) (measured' b rfl) compared
      | none =>
          cases compared
          exact (decide_eq_false (List.not_lt_nil _)).symm
  | none =>
      cases b with
      | some b =>
          cases compared
          obtain ⟨rest, begins⟩ := b.exists_key_eq_cons
          have less : fieldKey none < fieldKey (some b) := by
            rw [fieldKey, fieldKey, Option.elim_some, begins]
            exact List.Lex.nil
          exact (decide_eq_true less).symm
      | none =>
          cases compared
          exact (decide_eq_false (lt_irrefl _)).symm

end Value

/-! ## Sorted readings -/

/-- The first document comes before the second one when the key of its field is below
the other one, and when the keys are the same, at the lower place in the collection. -/
def ComesBefore (field : String) (earlier later : Fields × Nat) : Prop :=
  let key (entry : Fields × Nat) : Key :=
    Value.fieldKey (Fields.get? entry.1 field)
  key earlier < key later ∨
    key earlier = key later ∧ earlier.2 < later.2

theorem ComesBefore.asymm
    {field : String} {earlier later : Fields × Nat}
    (before : ComesBefore field earlier later) :
    ¬ ComesBefore field later earlier := by
  rintro (after | ⟨same, after⟩)
  · rcases before with below | ⟨same, -⟩
    · exact lt_asymm below after
    · exact after.ne same.symm
  · rcases before with below | ⟨-, lower⟩
    · exact below.ne same.symm
    · omega

/-- The list is the documents, each with the place it has, in ascending order of the
field. -/
def AscendingBy (field : String) (documents sorted : List Fields) : Prop :=
  ∃ entries : List (Fields × Nat),
    entries.Perm documents.zipIdx ∧ sorted = entries.map Prod.fst ∧
      entries.Pairwise (ComesBefore field)

section Sorted

variable {field : String} {documents sorted : List Fields} {a b : Fields}

/-- Where no two values are without an order, any two have one. -/
theorem before?_of_unordered?
    {values : List Value} (ordered : unordered? values = none)
    {v w : Value} (member : v ∈ values) (member' : w ∈ values) :
    ∃ before, v.before? w = .ok before := by
  unfold unordered? at ordered
  have pairs := (Option.or_eq_none_iff.mp ordered).2
  rw [List.findSome?_eq_none_iff] at pairs
  have pair :=
    List.findSome?_eq_none_iff.mp (pairs w member') v member
  cases compared : v.before? w with
  | ok before =>
      exact ⟨before, rfl⟩
  | error found =>
      simp only [compared] at pair
      cases pair

theorem fieldBefore?_of_unordered?
    (ordered :
      unordered? (documents.filterMap (Fields.get? · field)) = none)
    (member : a ∈ documents) (member' : b ∈ documents) :
    ∃ before,
      Value.fieldBefore? (Fields.get? a field) (Fields.get? b field) =
        .ok before := by
  cases found : Fields.get? a field with
  | none =>
      cases Fields.get? b field with
      | none =>
          exact ⟨false, rfl⟩
      | some w =>
          exact ⟨true, rfl⟩
  | some v =>
      cases found' : Fields.get? b field with
      | none =>
          exact ⟨false, rfl⟩
      | some w =>
          exact
            before?_of_unordered? ordered
              (List.mem_filterMap.mpr ⟨a, member, found⟩)
              (List.mem_filterMap.mpr ⟨b, member', found'⟩)

/-- The field of the first document is not after that of the second one. -/
def keyUpTo (field : String) (a b : Fields) : Bool :=
  decide
    (Value.fieldKey (Fields.get? a field) ≤ Value.fieldKey (Fields.get? b field))

theorem keyUpTo_trans (a b c : Fields) :
    keyUpTo field a b = true → keyUpTo field b c = true →
      keyUpTo field a c = true := by
  intro first second
  exact
    decide_eq_true
      (le_trans (of_decide_eq_true first) (of_decide_eq_true second))

theorem keyUpTo_total (a b : Fields) :
    (keyUpTo field a b || keyUpTo field b a) = true := by
  rw [Bool.or_eq_true]
  exact (le_total _ _).imp decide_eq_true decide_eq_true

theorem fieldBefore?_eq_not_keyUpTo
    {before : Bool}
    (measured : ∀ v ∈ Fields.get? a field, v.Measured)
    (measured' : ∀ v ∈ Fields.get? b field, v.Measured)
    (compared :
      Value.fieldBefore? (Fields.get? a field) (Fields.get? b field) =
        .ok before) :
    before = !keyUpTo field b a := by
  rw [Value.fieldBefore?_eq_decide measured measured' compared, keyUpTo,
    ← decide_not, decide_eq_decide]
  exact not_le.symm

theorem comesBefore_of_zipIdxLE
    {earlier later : Fields × Nat}
    (isUpTo : List.zipIdxLE (keyUpTo field) earlier later = true)
    (different : earlier.2 ≠ later.2) :
    ComesBefore field earlier later := by
  unfold List.zipIdxLE at isUpTo
  cases toLater : keyUpTo field earlier.1 later.1 with
  | false =>
      rw [toLater] at isUpTo
      cases isUpTo
  | true =>
      have upTo := of_decide_eq_true toLater
      rw [toLater] at isUpTo
      cases toEarlier : keyUpTo field later.1 earlier.1 with
      | false =>
          exact .inl (not_le.mp (of_decide_eq_false toEarlier))
      | true =>
          rw [toEarlier] at isUpTo
          have notAbove : earlier.2 ≤ later.2 := of_decide_eq_true isUpTo
          exact
            .inr
              ⟨le_antisymm upTo (of_decide_eq_true toEarlier),
                Nat.lt_of_le_of_ne notAbove different⟩

theorem exists_sortedBy
    (ordered :
      unordered? (documents.filterMap (Fields.get? · field)) = none) :
    ∃ sorted, sortedBy field documents = .ok sorted ∧ sorted.Perm documents := by
  unfold sortedBy
  simp only [ordered]
  exact ⟨_, rfl, List.mergeSort_perm _ _⟩

theorem unordered?_of_sortedBy (sorts : sortedBy field documents = .ok sorted) :
    unordered? (documents.filterMap (Fields.get? · field)) = none := by
  unfold sortedBy at sorts
  cases ordered :
      unordered? (documents.filterMap (Fields.get? · field)) with
  | none =>
      rfl
  | some fault =>
      simp only [ordered] at sorts
      cases sorts

/-- Sorting by the field is sorting by its keys. -/
theorem sortedBy_eq_mergeSort
    (measured :
      ∀ document ∈ documents, ∀ v ∈ Fields.get? document field, v.Measured)
    (sorts : sortedBy field documents = .ok sorted) :
    sorted = documents.mergeSort (keyUpTo field) := by
  have ordered := unordered?_of_sortedBy sorts
  unfold sortedBy at sorts
  simp only [ordered, Except.ok.injEq] at sorts
  rw [← sorts, ← List.map_id (List.mergeSort _ _)]
  conv_rhs => rw [← List.map_id documents]
  refine List.map_mergeSort fun a member b member' => ?_
  obtain ⟨before, compared⟩ :=
    fieldBefore?_of_unordered? ordered member' member
  rw [compared,
    fieldBefore?_eq_not_keyUpTo (measured b member') (measured a member)
      compared]
  exact Bool.not_not _

/-- A reading that is sorted by a field holds the documents in ascending order of it. -/
theorem sortedBy_ascending
    (measured :
      ∀ document ∈ documents, ∀ v ∈ Fields.get? document field, v.Measured)
    (sorts : sortedBy field documents = .ok sorted) :
    AscendingBy field documents sorted := by
  have ordered := unordered?_of_sortedBy sorts
  let entries := documents.zipIdx.mergeSort (List.zipIdxLE (keyUpTo field))
  have permutes : entries.Perm documents.zipIdx := List.mergeSort_perm _ _
  have isSorted : sorted = entries.map Prod.fst :=
    (sortedBy_eq_mergeSort measured sorts).trans List.mergeSort_zipIdx.symm
  have ascending :
      entries.Pairwise (List.zipIdxLE (keyUpTo field) · · = true) :=
    List.pairwise_mergeSort (List.zipIdxLE_trans keyUpTo_trans)
      (List.zipIdxLE_total keyUpTo_total) _
  -- Equal places cannot occur, so that ties are broken strictly.
  have apart : entries.Pairwise (·.2 ≠ ·.2) :=
    List.pairwise_map.mp
      ((permutes.map Prod.snd).nodup_iff.mpr
        (List.nodup_zipIdx_map_snd documents))
  exact
    ⟨entries, permutes, isSorted,
      (ascending.and apart).imp fun both =>
        comesBefore_of_zipIdxLE both.1 both.2⟩

end Sorted

end AccessControl
