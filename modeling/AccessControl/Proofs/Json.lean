import AccessControl.Json.Reader
import AccessControl.Json.Writer
import Mathlib.Data.List.Forall2

/-!
# JSON that is read back

A list or a record is read as what each of its parts is read as.  So what is written
for a value is read as this value again, whatever follows it, when the value has no
doubles, identifiers and points in time, its records have no name twice, and its
integers and its depth keep to the limits of the reader: `read_write`.
-/

namespace AccessControl

namespace Text

theorem hexDigits_succ {width : Nat} (positive : 0 < width) (value : Nat) :
    hexDigits (width + 1) value =
      hexDigits width (value / 16) ++ [Nat.digitChar (value % 16)] := by
  unfold hexDigits
  by_cases small : value < 16
  · have none : value / 16 = 0 := by omega
    have same : value % 16 = value := Nat.mod_eq_of_lt small
    have zeros : width = width - 1 + 1 := by omega
    rw [Nat.toDigits_of_lt_base small, none, same, zeros]
    simp [List.replicate_succ']
  · rw [Nat.toDigits_of_base_le (by decide) (Nat.le_of_not_lt small)]
    simp [List.append_assoc]

theorem hexDigits_four {unit : Nat} (small : unit < 0x10000) :
    hexDigits 4 unit =
      [Nat.digitChar (unit / 4096), Nat.digitChar (unit / 256 % 16),
       Nat.digitChar (unit / 16 % 16), Nat.digitChar (unit % 16)] := by
  have top : unit / 16 / 16 / 16 < 16 := by omega
  have first : hexDigits 1 (unit / 16 / 16 / 16) =
      [Nat.digitChar (unit / 16 / 16 / 16)] := by
    unfold hexDigits
    rw [Nat.toDigits_of_lt_base top]
    rfl
  rw [hexDigits_succ (by decide), hexDigits_succ (by decide),
    hexDigits_succ (by decide), first]
  simp [Nat.div_div_eq_div_mul]

end Text

namespace Json

theorem toNat_scalar (c : Char) :
    c.toNat < 0xd800 ∨ 0xdfff < c.toNat ∧ c.toNat < 0x110000 :=
  c.valid

/-- The code units that a character is written as. -/
def codeUnits (c : Char) : List Nat :=
  if c.toNat < 0x10000 then [c.toNat]
  else
    [0xd800 + (c.toNat - 0x10000) / 0x400,
     0xdc00 + (c.toNat - 0x10000) % 0x400]

theorem value?_digitChar {digit : Nat} (small : digit < 16) :
    Hex.value? (Nat.digitChar digit) = some digit := by
  have every : ∀ v : Fin 16, Hex.value? (Nat.digitChar v) = some v.val := by
    decide
  exact every ⟨digit, small⟩

theorem units_unitEscape
    (opening : List Char) {unit : Nat} (small : unit < 0x10000)
    {rest : List Char} (more : rest ≠ []) :
    units opening (unitEscape unit ++ rest) =
      (units opening rest).map fun read => (unit :: read.1, read.2) := by
  have read :
      unit? (Nat.digitChar (unit / 4096)) (Nat.digitChar (unit / 256 % 16))
          (Nat.digitChar (unit / 16 % 16)) (Nat.digitChar (unit % 16)) =
        some unit := by
    have highest : unit / 4096 < 16 := by omega
    have high : unit / 256 % 16 < 16 := by omega
    have low : unit / 16 % 16 < 16 := by omega
    have lowest : unit % 16 < 16 := by omega
    have whole :
        4096 * (unit / 4096) + 256 * (unit / 256 % 16) +
            16 * (unit / 16 % 16) + unit % 16 =
          unit := by
      omega
    unfold unit?
    rw [value?_digitChar highest, value?_digitChar high,
      value?_digitChar low, value?_digitChar lowest]
    simp only [whole]
  have filled : rest.isEmpty = false := by
    simpa using more
  unfold unitEscape
  rw [Text.hexDigits_four small]
  simp only [List.cons_append, List.nil_append]
  rw [units]
  simp only [read, filled]
  rfl

theorem units_escaped
    (opening rest : List Char) {letter c : Char}
    (known : escaped? letter = some c) :
    units opening ('\x5c' :: letter :: rest) =
      (units opening rest).map fun read => (c.toNat :: read.1, read.2) := by
  have different : letter ≠ 'u' := by
    rintro rfl
    cases known
  rw [units]
  · rw [known]
  · exact different

theorem units_plain
    (opening rest : List Char) {c : Char}
    (seen : 0x20 ≤ c.toNat) (unquoted : c ≠ '\x22') (kept : c ≠ '\x5c') :
    units opening (c :: rest) =
      (units opening rest).map fun read => (c.toNat :: read.1, read.2) := by
  rw [units]
  · rw [if_neg (Nat.not_lt_of_le seen)]
  · exact unquoted
  · exact fun _ same => (kept same).elim
  · exact fun _ _ same => (kept same).elim
  · exact fun same => (kept same).elim

/-- The characters that are written as a backslash and a letter. -/
def lettered : List Char :=
  ['\x22', '\x5c', '\n', '\r', '\t', '\x08', '\x0c']

theorem exists_letter_of_mem_lettered {c : Char} (member : c ∈ lettered) :
    codeUnits c = [c.toNat] ∧
      ∃ letter, escaped? letter = some c ∧ escape c = ['\x5c', letter] := by
  simp only [lettered, List.mem_cons, List.not_mem_nil, or_false] at member
  rcases member with rfl | rfl | rfl | rfl | rfl | rfl | rfl <;>
    exact ⟨rfl, _, rfl, rfl⟩

theorem escape_of_notMem_lettered {c : Char} (unlettered : c ∉ lettered) :
    0x20 ≤ c.toNat ∧ c.toNat < 0x7f ∧ escape c = [c] ∨
      escape c = (codeUnits c).flatMap unitEscape := by
  simp only [lettered, List.mem_cons, List.not_mem_nil, or_false,
    not_or] at unlettered
  unfold escape codeUnits
  simp only [unlettered, if_false]
  split
  · rename_i visible
    left
    simpa using visible
  · right
    split <;> simp

/-- A character is read as the code units that it was written as. -/
theorem units_escape
    (opening : List Char) (c : Char) {rest : List Char} (more : rest ≠ []) :
    units opening (escape c ++ rest) =
      (units opening rest).map
        fun read => (codeUnits c ++ read.1, read.2) := by
  by_cases member : c ∈ lettered
  · obtain ⟨short, letter, known, written⟩ :=
      exists_letter_of_mem_lettered member
    rw [written, short]
    exact units_escaped opening rest known
  have unquoted : c ≠ '\x22' := by
    rintro rfl
    exact member (by decide)
  have kept : c ≠ '\x5c' := by
    rintro rfl
    exact member (by decide)
  rcases escape_of_notMem_lettered member with
    ⟨seen, ascii, written⟩ | written
  · have short : c.toNat < 0x10000 := by omega
    rw [written, codeUnits, if_pos short]
    exact units_plain opening rest seen unquoted kept
  · rw [written]
    unfold codeUnits
    split
    · rename_i short
      rw [List.flatMap_singleton]
      exact units_unitEscape opening short more
    · have scalar := toNat_scalar c
      have high : 0xd800 + (c.toNat - 0x10000) / 0x400 < 0x10000 := by omega
      have low : 0xdc00 + (c.toNat - 0x10000) % 0x400 < 0x10000 := by omega
      have filled :
          unitEscape (0xdc00 + (c.toNat - 0x10000) % 0x400) ++ rest ≠ [] := by
        simp [more]
      rw [List.flatMap_cons, List.flatMap_singleton, List.append_assoc,
        units_unitEscape opening high filled,
        units_unitEscape opening low more]
      cases units opening rest <;> rfl

theorem units_flatMap_escape (opening text rest : List Char) :
    units opening (text.flatMap escape ++ '\x22' :: rest) =
      .ok (text.flatMap codeUnits, rest) := by
  induction text with
  | nil =>
      rw [List.flatMap_nil, List.nil_append, units]
      rfl
  | cons c text inductionHypothesis =>
      rw [List.flatMap_cons, List.append_assoc,
        units_escape opening c (by simp), inductionHypothesis]
      rfl

theorem joinUnits_codeUnits (c : Char) (more : List Nat) :
    joinUnits (codeUnits c ++ more) = c :: joinUnits more := by
  have scalar := toNat_scalar c
  unfold codeUnits
  split
  · have single :
        (decide (0xd800 ≤ c.toNat) && decide (c.toNat ≤ 0xdfff)) = false := by
      have outside : ¬ (0xd800 ≤ c.toNat ∧ c.toNat ≤ 0xdfff) := by omega
      simpa using outside
    have alone : joinUnits.character c.toNat = c := by
      unfold joinUnits.character
      rw [single, if_neg Bool.false_ne_true, Char.ofNat_toNat]
    cases more with
    | nil =>
        change [joinUnits.character c.toNat] = [c]
        rw [alone]
    | cons low more =>
        have unpaired :
            (decide (0xd800 ≤ c.toNat) && decide (c.toNat ≤ 0xdbff) &&
                decide (0xdc00 ≤ low) && decide (low ≤ 0xdfff)) =
              false := by
          simp only [Bool.and_eq_false_iff, decide_eq_false_iff_not]
          omega
        rw [List.singleton_append, joinUnits, alone, unpaired,
          if_neg Bool.false_ne_true]
  · have whole :
        0x10000 + (0xd800 + (c.toNat - 0x10000) / 0x400 - 0xd800) * 0x400 +
            (0xdc00 + (c.toNat - 0x10000) % 0x400 - 0xdc00) =
          c.toNat := by
      omega
    have paired :
        (decide (0xd800 ≤ 0xd800 + (c.toNat - 0x10000) / 0x400) &&
            decide (0xd800 + (c.toNat - 0x10000) / 0x400 ≤ 0xdbff) &&
            decide (0xdc00 ≤ 0xdc00 + (c.toNat - 0x10000) % 0x400) &&
            decide (0xdc00 + (c.toNat - 0x10000) % 0x400 ≤ 0xdfff)) =
          true := by
      simp only [Bool.and_eq_true, decide_eq_true_eq]
      omega
    simp only [List.cons_append, List.nil_append]
    rw [joinUnits, paired, if_pos rfl, whole, Char.ofNat_toNat]

theorem joinUnits_flatMap_codeUnits (text : List Char) :
    joinUnits (text.flatMap codeUnits) = text := by
  induction text with
  | nil =>
      rfl
  | cons c text inductionHypothesis =>
      rw [List.flatMap_cons, joinUnits_codeUnits, inductionHypothesis]

theorem string_escaped (text : String) (rest : List Char) :
    string (text.toList.flatMap escape ++ '\x22' :: rest) =
      .ok (text, rest) := by
  unfold string
  rw [units_flatMap_escape]
  simp only [Except.map, joinUnits_flatMap_codeUnits, String.ofList_toList]

/-- What may follow a value: nothing, a comma or a closing bracket. -/
def Follows : List Char → Prop
  | [] => True
  | c :: _ => c = ',' ∨ c = ']' ∨ c = '\x7d'

theorem takeWhile_of_follows
    {rest : List Char} (follows : Follows rest) {property : Char → Bool}
    (comma : property ',' = false) (bracket : property ']' = false)
    (brace : property '\x7d' = false) :
    rest.takeWhile property = [] := by
  cases rest with
  | nil =>
      rfl
  | cons c rest =>
      rcases follows with rfl | rfl | rfl <;> simp [comma, bracket, brace]

theorem fraction_of_follows
    {rest : List Char} (follows : Follows rest) : fraction rest = none := by
  cases rest with
  | nil =>
      rfl
  | cons c rest =>
      rcases follows with rfl | rfl | rfl <;> rfl

theorem exponent_of_follows
    {rest : List Char} (follows : Follows rest) : exponent rest = none := by
  cases rest with
  | nil =>
      rfl
  | cons c rest =>
      rcases follows with rfl | rfl | rfl <;> rfl

theorem isDigit_of_mem_toDigits
    {n : Nat} {c : Char} (member : c ∈ Nat.toDigits 10 n) :
    Text.isDigit c = true := by
  have digit := Nat.isDigit_of_mem_toDigits (by decide) (by decide) member
  simpa [Char.isDigit, Text.isDigit, UInt32.le_iff_toNat_le] using digit

theorem toDigits_eq_cons (n : Nat) :
    ∃ first others, Nat.toDigits 10 n = first :: others ∧
      (first = '0' → n = 0) := by
  induction n using Nat.strongRecOn with
  | ind n inductionHypothesis =>
      by_cases small : n < 10
      · have every : ∀ v : Fin 10, Nat.digitChar v = '0' → v = 0 := by
          decide
        refine ⟨_, [], Nat.toDigits_of_lt_base small, fun zero => ?_⟩
        exact congrArg Fin.val (every ⟨n, small⟩ zero)
      · have less : n / 10 < n := by omega
        obtain ⟨first, others, same, positive⟩ :=
          inductionHypothesis (n / 10) less
        refine ⟨first, others ++ [Nat.digitChar (n % 10)], ?_, fun zero => ?_⟩
        · rw [Nat.toDigits_of_base_le (by decide) (Nat.le_of_not_lt small),
            same, List.cons_append]
        · have nothing := positive zero
          omega

/-- The text does not go on with a digit. -/
def Stops (text : List Char) : Prop :=
  ∀ c ∈ text.head?, Text.isDigit c = false

theorem stops_of_follows {rest : List Char} (follows : Follows rest) :
    Stops rest := by
  intro c member
  cases rest with
  | nil =>
      cases member
  | cons d rest =>
      cases member
      rcases follows with rfl | rfl | rfl <;> rfl

theorem digits_append
    {found rest : List Char} (each : ∀ c ∈ found, Text.isDigit c = true)
    (stops : Stops rest) : digits (found ++ rest) = (found, rest) := by
  unfold digits
  rw [List.takeWhile_append_of_pos each, List.dropWhile_append_of_pos each]
  cases rest with
  | nil =>
      simp
  | cons c rest =>
      have stop : Text.isDigit c = false := stops c rfl
      simp [stop]

/-- The digits in front of a point: a zero, or digits that do not begin with one. -/
structure IsWhole (whole : List Char) : Prop where
  filled : whole ≠ []
  each : ∀ c ∈ whole, Text.isDigit c = true
  unpadded : ∀ rest, whole = '0' :: rest → rest = []

theorem wholeDigits_append
    {whole rest : List Char} (isWhole : IsWhole whole) (stops : Stops rest) :
    wholeDigits (whole ++ rest) = some (whole, rest) := by
  have found := digits_append isWhole.each stops
  cases whole with
  | nil =>
      exact absurd rfl isWhole.filled
  | cons first others =>
      by_cases zero : first = '0'
      · subst zero
        rw [isWhole.unpadded others rfl]
        rfl
      · rw [List.cons_append] at found ⊢
        rw [wholeDigits]
        · simp [found]
        · exact fun _ same => zero (List.head_eq_of_cons_eq same)

theorem isWhole_toDigits (n : Nat) : IsWhole (Nat.toDigits 10 n) := by
  obtain ⟨first, others, same, positive⟩ := toDigits_eq_cons n
  refine ⟨?_, fun c => isDigit_of_mem_toDigits, fun rest padded => ?_⟩
  · rw [same]
    exact List.cons_ne_nil first others
  · rw [same] at padded
    have zero : n = 0 := positive (List.head_eq_of_cons_eq padded)
    subst zero
    rw [← same] at padded
    exact (List.cons.inj padded).2.symm

theorem unsigned_toDigits
    (negative : Bool) (n : Nat) {rest : List Char} (follows : Follows rest) :
    unsigned negative (Nat.toDigits 10 n ++ rest) =
      some (.integer (if negative then -n else n), rest) := by
  have size : Text.ofDigits (Nat.toDigits 10 n) = n :=
    Nat.ofDigitChars_ten_toDigits
  unfold unsigned
  rw [wholeDigits_append (isWhole_toDigits n) (stops_of_follows follows)]
  simp [fraction_of_follows follows, exponent_of_follows follows, size]

/-- An integer is written as the digits of its size, after a sign when it is
negative. -/
theorem text_integer (n : Int) :
    (Number.integer n).text =
      if n < 0 then '-' :: Nat.toDigits 10 n.natAbs
      else Nat.toDigits 10 n.natAbs := by
  change (toString n).toList = _
  rw [Int.toString_eq_repr]
  cases n with
  | ofNat n =>
      have positive : ¬ Int.ofNat n < 0 := by simp
      rw [if_neg positive]
      exact Nat.toList_repr
  | negSucc n =>
      rw [if_pos (Int.negSucc_lt_zero n)]
      unfold Int.repr
      simp

theorem number?_of_isDigit
    {first : Char} (others : List Char) (digit : Text.isDigit first = true) :
    number? (first :: others) = unsigned false (first :: others) := by
  rw [number?]
  rintro rest same
  rw [List.head_eq_of_cons_eq same] at digit
  exact absurd digit (by decide)

theorem number?_text
    (n : Int) {rest : List Char} (follows : Follows rest) :
    number? ((Number.integer n).text ++ rest) =
      some (.integer n, rest) := by
  rw [text_integer]
  by_cases negative : n < 0
  · have same : -(n.natAbs : Int) = n := by omega
    rw [if_pos negative, List.cons_append, number?,
      unsigned_toDigits true n.natAbs follows, if_pos rfl, same]
  · have same : (n.natAbs : Int) = n := by omega
    rw [if_neg negative]
    have read := unsigned_toDigits false n.natAbs follows
    rw [if_neg Bool.false_ne_true, same] at read
    obtain ⟨first, others, written, -⟩ := toDigits_eq_cons n.natAbs
    have digit : Text.isDigit first = true :=
      isDigit_of_mem_toDigits (by rw [written]; exact List.mem_cons_self)
    rw [written, List.cons_append] at read ⊢
    rw [number?_of_isDigit _ digit, read]

theorem isNumberSign_of_isDigit {c : Char} (digit : Text.isDigit c = true) :
    isNumberSign c = true := by
  unfold isNumberSign
  simp [digit]

theorem not_isWhite_of_isNumberSign
    {c : Char} (sign : isNumberSign c = true) : isWhite c = false := by
  cases white : isWhite c with
  | false =>
      rfl
  | true =>
      simp only [isWhite, Bool.or_eq_true, decide_eq_true_eq] at white
      rcases white with ((rfl | rfl) | rfl) | rfl <;>
        exact absurd sign (by decide)

theorem isNumberSign_of_mem_text
    {n : Int} {c : Char} (member : c ∈ (Number.integer n).text) :
    isNumberSign c = true := by
  rw [text_integer] at member
  split at member
  · rcases List.mem_cons.mp member with rfl | member
    · rfl
    · exact isNumberSign_of_isDigit (isDigit_of_mem_toDigits member)
  · exact isNumberSign_of_isDigit (isDigit_of_mem_toDigits member)

theorem literal_text
    (n : Int) {rest : List Char} (follows : Follows rest) :
    literal ((Number.integer n).text ++ rest) rest =
      (Number.integer n).text := by
  unfold literal
  rw [List.takeWhile_append_of_pos fun _ => isNumberSign_of_mem_text,
    takeWhile_of_follows follows (by decide) (by decide) (by decide)]
  simp

/-- An integer with so few digits that it is read. -/
def Countable (n : Int) : Prop :=
  (Nat.toDigits 10 n.natAbs).length ≤ Text.mostDigits

theorem countable_of_small {n : Int} (small : n.natAbs < 1000000000000) :
    Countable n := by
  have short : (Nat.toDigits 10 n.natAbs).length ≤ 12 :=
    (Nat.length_toDigits_le_iff (by decide) (by decide)).mpr small
  exact Nat.le_trans short (by decide)

theorem counted_text {n : Int} (countable : Countable n) :
    counted (Number.integer n).text (.integer n) =
      .ok (.number (.integer n)) := by
  have digits :
      (Number.integer n).text.filter Text.isDigit =
        Nat.toDigits 10 n.natAbs := by
    have every :
        (Nat.toDigits 10 n.natAbs).filter Text.isDigit =
          Nat.toDigits 10 n.natAbs :=
      List.filter_eq_self.mpr fun _ => isDigit_of_mem_toDigits
    rw [text_integer]
    split
    · rw [List.filter_cons_of_neg (by decide), every]
    · exact every
  unfold counted
  simp only [digits]
  exact if_pos countable

/-- The text begins like a number: with a digit, perhaps behind a minus sign. -/
def BeginsNumber (text : List Char) : Prop :=
  ∃ first others, text = first :: others ∧ isNumberSign first = true ∧
    (first = '-' → ∃ second rest, others = second :: rest ∧
      Text.isDigit second = true)

theorem beginsNumber_of_isDigit
    {first : Char} (others : List Char) (digit : Text.isDigit first = true) :
    BeginsNumber (first :: others) := by
  refine ⟨first, others, rfl, isNumberSign_of_isDigit digit, fun sign => ?_⟩
  rw [sign] at digit
  exact absurd digit (by decide)

theorem beginsNumber_minus
    {first : Char} (others : List Char) (digit : Text.isDigit first = true) :
    BeginsNumber ('-' :: first :: others) :=
  ⟨_, _, rfl, by decide, fun _ => ⟨first, others, rfl, digit⟩⟩

theorem beginsNumber_text (n : Int) :
    BeginsNumber (Number.integer n).text := by
  obtain ⟨first, others, written, -⟩ := toDigits_eq_cons n.natAbs
  have digit : Text.isDigit first = true :=
    isDigit_of_mem_toDigits (by rw [written]; exact List.mem_cons_self)
  rw [text_integer, written]
  split
  · exact beginsNumber_minus others digit
  · exact beginsNumber_of_isDigit others digit

theorem word?_of_beginsNumber
    {text : List Char} (begins : BeginsNumber text) (rest : List Char) :
    word? (text ++ rest) = none := by
  obtain ⟨first, others, written, sign, digits⟩ := begins
  rw [written, List.cons_append]
  unfold word?
  split
  all_goals rename_i same
  case h_6 =>
    obtain ⟨second, others, rfl, digit⟩ :=
      digits (List.head_eq_of_cons_eq same)
    have letter := List.head_eq_of_cons_eq (List.tail_eq_of_cons_eq same)
    rw [letter] at digit
    exact absurd digit (by decide)
  case h_7 =>
    rfl
  all_goals
    rw [List.head_eq_of_cons_eq same] at sign
    exact absurd sign (by decide)

/-! ## Values -/

/-- What stands at the beginning of a written value. -/
def Begins (text : List Char) : Prop :=
  ∃ first others, text = first :: others ∧ isWhite first = false ∧
    first ≠ ']'

/-- What is written for a value is read as another one, at this depth and before
everything that may follow. -/
def ReadsAs (depth : Nat) (v other : Value) : Prop :=
  ∃ written, write? v = some written ∧ Begins written ∧
    ∀ fuel rest, 2 * written.length ≤ fuel + 1 → Follows rest →
      value plainly (fuel + 1) depth (written ++ rest) = .ok (other, rest)

/-- What is written for a value is read as the value. -/
abbrev ReadsBack (depth : Nat) (v : Value) : Prop :=
  ReadsAs depth v v

theorem readsBack_null (depth : Nat) : ReadsBack depth .null := by
  refine ⟨"null".toList, by rw [write?], ⟨_, _, rfl, by decide⟩, ?_⟩
  intro fuel rest _ _
  rfl

theorem readsBack_boolean (depth : Nat) (b : Bool) :
    ReadsBack depth (.boolean b) := by
  cases b with
  | false =>
      refine ⟨"false".toList, by rw [write?], ⟨_, _, rfl, by decide⟩, ?_⟩
      intro fuel rest _ _
      rfl
  | true =>
      refine ⟨"true".toList, by rw [write?], ⟨_, _, rfl, by decide⟩, ?_⟩
      intro fuel rest _ _
      rfl

/-- A number is read as another one when its text begins like a number, is read so,
and has few enough digits. -/
theorem readsAs_number
    (depth : Nat) {n other : Number} (begins : BeginsNumber (writeNumber n))
    (read :
      ∀ rest, Follows rest →
        number? (writeNumber n ++ rest) = some (other, rest))
    (countable :
      ∀ rest, Follows rest →
        counted (literal (writeNumber n ++ rest) rest) other =
          .ok (.number other)) :
    ReadsAs depth (.number n) (.number other) := by
  have plain := word?_of_beginsNumber begins
  obtain ⟨first, others, written, sign, -⟩ := begins
  have different {c : Char} (unsigned : isNumberSign c = false) :
      first ≠ c := by
    rintro rfl
    rw [sign] at unsigned
    cases unsigned
  refine ⟨writeNumber n, by rw [write?],
    ⟨first, others, written, not_isWhite_of_isNumberSign sign,
      different (by decide)⟩, ?_⟩
  intro fuel rest _ follows
  have read := read rest follows
  have plain := plain rest
  have counts := countable rest follows
  have reads : plainly.number = counted := rfl
  rw [written, List.cons_append] at read plain counts ⊢
  rw [value]
  · simp only [read, plain, reads, counts]
    rfl
  · exact fun _ same =>
      different (by decide) (List.head_eq_of_cons_eq same)
  · exact fun _ same =>
      different (by decide) (List.head_eq_of_cons_eq same)
  · exact fun _ same =>
      different (by decide) (List.head_eq_of_cons_eq same)

theorem readsBack_integer
    (depth : Nat) {n : Int} (countable : Countable n) :
    ReadsBack depth (.number (.integer n)) := by
  refine
    readsAs_number depth (beginsNumber_text n)
      (fun _ follows => number?_text n follows) fun rest follows => ?_
  have characters := literal_text n follows
  change counted (literal ((Number.integer n).text ++ rest) rest) _ = _
  rw [characters, counted_text countable]

theorem readsBack_text (depth : Nat) (s : String) :
    ReadsBack depth (.text s) := by
  refine ⟨writeText s, by rw [write?], ⟨_, _, rfl, by decide⟩, ?_⟩
  intro fuel rest _ _
  unfold writeText
  rw [List.cons_append, List.cons_append, List.append_assoc, value]
  rw [List.singleton_append, string_escaped]
  rfl

theorem skipWhite_of_begins
    {text : List Char} (begins : Begins text) (rest : List Char) :
    skipWhite (text ++ rest) = text ++ rest := by
  obtain ⟨first, others, rfl, black, -⟩ := begins
  exact List.dropWhile_cons_of_neg (by simp [black])

theorem items_last
    {fuel depth : Nat} {text rest : List Char} {item : Value}
    (read : value plainly fuel depth text = .ok (item, ']' :: rest)) :
    items plainly (fuel + 1) depth text = .ok ([item], rest) := by
  rw [items, read]
  rfl

theorem items_next
    {fuel depth : Nat} {text inside rest : List Char} {item : Value}
    (begins : Begins inside)
    (read :
      value plainly fuel depth text = .ok (item, ',' :: (inside ++ rest))) :
    items plainly (fuel + 1) depth text =
      (items plainly fuel depth (inside ++ rest)).map
        fun others => (item :: others.1, others.2) := by
  have comma :
      skipWhite (',' :: (inside ++ rest)) = ',' :: (inside ++ rest) := rfl
  rw [items, read]
  simp only [bind, Except.bind, comma, skipWhite_of_begins begins]
  cases items plainly fuel depth (inside ++ rest) <;> rfl

/-- Items that are written one after the other are read as what each is read as. -/
theorem items_writeItems?
    {depth : Nat} {items others : List Value} (filled : items ≠ [])
    (each : List.Forall₂ (ReadsAs depth) items others) :
    ∃ inside, writeItems? items = some inside ∧ Begins inside ∧
      ∀ fuel rest, 2 * inside.length ≤ fuel →
        Json.items plainly (fuel + 1) depth (inside ++ ']' :: rest) =
          .ok (others, rest) := by
  induction each with
  | nil =>
      exact absurd rfl filled
  | @cons item other items others first each inductionHypothesis =>
      obtain ⟨written, firstWritten, begins, readFirst⟩ := first
      have positive : 0 < written.length := by
        obtain ⟨_, _, rfl, -⟩ := begins
        simp
      cases each with
      | nil =>
          refine ⟨written, by rw [writeItems?, firstWritten], begins, ?_⟩
          intro fuel rest enough
          obtain ⟨fuel, rfl⟩ : ∃ less, fuel = less + 1 :=
            ⟨fuel - 1, by omega⟩
          exact items_last
            (readFirst fuel (']' :: rest) enough (.inr (.inl rfl)))
      | @cons next _ items _ _ _ =>
          obtain ⟨more, moreWritten, moreBegin, readMore⟩ :=
            inductionHypothesis (List.cons_ne_nil next items)
          have begins' : Begins (written ++ ',' :: more) := by
            obtain ⟨head, tail, rfl, black, different⟩ := begins
            exact ⟨head, _, rfl, black, different⟩
          refine ⟨written ++ ',' :: more, ?_, begins', ?_⟩
          · rw [writeItems?, firstWritten, moreWritten]
            · rfl
            · exact List.cons_ne_nil next items
          intro fuel rest enough
          rw [List.length_append, List.length_cons] at enough
          obtain ⟨fuel, rfl⟩ : ∃ less, fuel = less + 1 :=
            ⟨fuel - 1, by omega⟩
          have read :=
            readFirst fuel (',' :: (more ++ ']' :: rest)) (by omega)
              (.inl rfl)
          rw [List.append_assoc, List.cons_append,
            items_next moreBegin read, readMore fuel rest (by omega)]
          rfl

theorem value_list
    {fuel depth : Nat} {inside rest : List Char} (begins : Begins inside) :
    value plainly (fuel + 1) (depth + 1) ('[' :: (inside ++ rest)) =
      (items plainly fuel depth (inside ++ rest)).map
        fun read => (.list read.1, read.2) := by
  rw [value, skipWhite_of_begins begins]
  obtain ⟨first, others, rfl, -, different⟩ := begins
  simp [different]

theorem readsAs_list
    {depth : Nat} {items others : List Value}
    (each : List.Forall₂ (ReadsAs depth) items others) :
    ReadsAs (depth + 1) (.list items) (.list others) := by
  cases items with
  | nil =>
      cases each
      refine ⟨"[]".toList, by rw [write?]; rfl, ⟨_, _, rfl, by decide⟩, ?_⟩
      intro fuel rest _ _
      rfl
  | cons item items =>
      obtain ⟨inside, written, begins, read⟩ :=
        items_writeItems? (List.cons_ne_nil item items) each
      refine ⟨'[' :: inside ++ [']'], by rw [write?, written]; rfl,
        ⟨_, _, rfl, by decide⟩, ?_⟩
      intro fuel rest enough _
      simp only [List.length_append, List.length_cons] at enough
      obtain ⟨fuel, rfl⟩ : ∃ less, fuel = less + 1 := ⟨fuel - 1, by omega⟩
      rw [List.append_assoc, List.cons_append, List.singleton_append,
        value_list begins, read fuel rest (by omega)]
      rfl

section Members

variable {fuel depth : Nat} {text rest : List Char} {item : Value}

theorem members_last
    (fields : Fields) (name : String) (black : skipWhite text = text)
    (read : value plainly fuel depth text = .ok (item, '\x7d' :: rest)) :
    members plainly (fuel + 1) depth fields (writeText name ++ ':' :: text) =
      .ok (fields.set name item, rest) := by
  have colon : skipWhite (':' :: text) = ':' :: text := rfl
  have brace : skipWhite ('\x7d' :: rest) = '\x7d' :: rest := rfl
  unfold writeText
  rw [List.cons_append, List.cons_append, List.append_assoc,
    List.singleton_append, members, string_escaped]
  simp only [bind, Except.bind, colon, black, read, brace]

theorem members_next
    (fields : Fields) (name : String) (black : skipWhite text = text)
    (read :
      value plainly fuel depth text = .ok (item, ',' :: '\x22' :: rest)) :
    members plainly (fuel + 1) depth fields (writeText name ++ ':' :: text) =
      members plainly fuel depth (fields.set name item) ('\x22' :: rest) := by
  have colon : skipWhite (':' :: text) = ':' :: text := rfl
  have comma :
      skipWhite (',' :: '\x22' :: rest) = ',' :: '\x22' :: rest := rfl
  have quote : skipWhite ('\x22' :: rest) = '\x22' :: rest := rfl
  unfold writeText
  rw [List.cons_append, List.cons_append, List.append_assoc,
    List.singleton_append, members, string_escaped]
  simp only [bind, Except.bind, colon, black, read, comma, quote]

end Members

/-- What is written for a field is read as a field with the same name. -/
def FieldReadsAs (depth : Nat) (field other : String × Value) : Prop :=
  field.1 = other.1 ∧ ReadsAs depth field.2 other.2

/-- Fields that are written one after the other are read as what each is read as,
after those that have been read before. -/
theorem members_writeFields?
    {depth : Nat} {fields others : Fields} (filled : fields ≠ [])
    (each : List.Forall₂ (FieldReadsAs depth) fields others) :
    ∃ inside, writeFields? fields = some inside ∧
      (∃ more, inside = '\x22' :: more) ∧
      ∀ fuel earlier rest, 2 * inside.length ≤ fuel →
        (Fields.names (earlier ++ others)).Nodup →
        members plainly (fuel + 1) depth earlier (inside ++ '\x7d' :: rest) =
          .ok (earlier ++ others, rest) := by
  induction each with
  | nil =>
      exact absurd rfl filled
  | @cons field other fields others first each inductionHypothesis =>
      obtain ⟨name, item⟩ := field
      obtain ⟨sameName, read⟩ := other
      obtain ⟨rfl, written, itemWritten, begins, readItem⟩ := first
      have new {earlier : Fields}
          (distinct : (Fields.names (earlier ++ (name, read) :: others)).Nodup) :
          earlier.set name read = earlier ++ [(name, read)] := by
        apply Fields.set_of_notMem
        intro member
        unfold Fields.names at distinct member
        rw [List.map_append, List.nodup_append] at distinct
        exact distinct.2.2 name member name List.mem_cons_self rfl
      cases each with
      | nil =>
          refine ⟨writeText name ++ ':' :: written, ?_, ⟨_, rfl⟩, ?_⟩
          · rw [writeFields?, itemWritten]
            rfl
          intro fuel earlier rest enough distinct
          simp only [List.length_append, List.length_cons] at enough
          obtain ⟨fuel, rfl⟩ : ∃ less, fuel = less + 1 :=
            ⟨fuel - 1, by omega⟩
          have readLast :=
            readItem fuel ('\x7d' :: rest) (by omega) (.inr (.inr rfl))
          rw [List.append_assoc, List.cons_append,
            members_last earlier name (skipWhite_of_begins begins _) readLast,
            new distinct]
      | @cons next _ fields _ _ _ =>
          obtain ⟨more, moreWritten, ⟨tail, quoted⟩, readOthers⟩ :=
            inductionHypothesis (List.cons_ne_nil next fields)
          refine ⟨writeText name ++ ':' :: written ++ ',' :: more, ?_,
            ⟨_, rfl⟩, ?_⟩
          · rw [writeFields?, itemWritten, moreWritten]
            · rfl
            · exact List.cons_ne_nil next fields
          intro fuel earlier rest enough distinct
          simp only [List.length_append, List.length_cons] at enough
          obtain ⟨fuel, rfl⟩ : ∃ less, fuel = less + 1 :=
            ⟨fuel - 1, by omega⟩
          have readFirst :=
            readItem fuel (',' :: (more ++ '\x7d' :: rest)) (by omega)
              (.inl rfl)
          have readMore :=
            readOthers fuel (earlier ++ [(name, read)]) rest (by omega)
              (by rw [List.append_assoc]; exact distinct)
          rw [quoted, List.cons_append] at readFirst readMore
          rw [List.append_assoc, List.append_assoc, List.cons_append,
            List.cons_append, quoted, List.cons_append,
            members_next earlier name (skipWhite_of_begins begins _) readFirst,
            new distinct, readMore, List.append_assoc, List.singleton_append]

theorem value_record (fuel depth : Nat) (rest : List Char) :
    value plainly (fuel + 1) (depth + 1) ('\x7b' :: '\x22' :: rest) =
      (members plainly fuel depth [] ('\x22' :: rest)).map
        fun read => (.record read.1, read.2) := by
  have quote : skipWhite ('\x22' :: rest) = '\x22' :: rest := rfl
  rw [value, quote]
  rfl

theorem names_eq_of_fieldsReadAs
    {depth : Nat} {fields others : Fields}
    (each : List.Forall₂ (FieldReadsAs depth) fields others) :
    fields.names = others.names := by
  induction each with
  | nil =>
      rfl
  | cons first _ inductionHypothesis =>
      unfold Fields.names at inductionHypothesis ⊢
      rw [List.map_cons, List.map_cons, first.1, inductionHypothesis]

theorem readsAs_record
    {depth : Nat} {fields others : Fields} (distinct : fields.names.Nodup)
    (each : List.Forall₂ (FieldReadsAs depth) fields others) :
    ReadsAs (depth + 1) (.record fields) (.record others) := by
  rw [names_eq_of_fieldsReadAs each] at distinct
  cases fields with
  | nil =>
      cases each
      refine ⟨['\x7b', '\x7d'], by rw [write?]; rfl, ⟨_, _, rfl, by decide⟩,
        ?_⟩
      intro fuel rest _ _
      rfl
  | cons field fields =>
      obtain ⟨inside, written, ⟨others, quoted⟩, read⟩ :=
        members_writeFields? (List.cons_ne_nil field fields) each
      refine ⟨'\x7b' :: inside ++ ['\x7d'], by rw [write?, written]; rfl,
        ⟨_, _, rfl, by decide⟩, ?_⟩
      intro fuel rest enough _
      simp only [List.length_append, List.length_cons] at enough
      obtain ⟨fuel, rfl⟩ : ∃ less, fuel = less + 1 := ⟨fuel - 1, by omega⟩
      have readAll := read fuel [] rest (by omega) distinct
      rw [quoted, List.cons_append] at readAll
      rw [List.append_assoc, List.cons_append, List.singleton_append, quoted,
        List.cons_append, value_record, readAll]
      rfl

/-! ## Whole texts -/

/-- The values that are written and read back, nested at most so deep: those
without doubles, identifiers and points in time, with integers of few enough
digits and no name twice in a record. -/
inductive Portable : Nat → Value → Prop
  | null (depth : Nat) : Portable depth .null
  | boolean (depth : Nat) (b : Bool) : Portable depth (.boolean b)
  | integer (depth : Nat) {n : Int} (countable : Countable n) :
      Portable depth (.number (.integer n))
  | text (depth : Nat) (s : String) : Portable depth (.text s)
  | list {depth : Nat} {items : List Value}
      (each : ∀ item ∈ items, Portable depth item) :
      Portable (depth + 1) (.list items)
  | record {depth : Nat} {fields : Fields} (distinct : fields.names.Nodup)
      (each : ∀ field ∈ fields, Portable depth field.2) :
      Portable (depth + 1) (.record fields)

theorem Portable.readsBack
    {depth : Nat} {v : Value} (portable : Portable depth v) :
    ReadsBack depth v := by
  induction portable with
  | null depth =>
      exact readsBack_null depth
  | boolean depth b =>
      exact readsBack_boolean depth b
  | integer depth countable =>
      exact readsBack_integer depth countable
  | text depth s =>
      exact readsBack_text depth s
  | list _ inductionHypothesis =>
      exact readsAs_list (List.forall₂_same.mpr inductionHypothesis)
  | record distinct _ inductionHypothesis =>
      refine readsAs_record distinct (List.forall₂_same.mpr ?_)
      exact fun field member => ⟨rfl, inductionHypothesis field member⟩

/-- What reads a record goes at least one deep. -/
theorem Portable.exists_depth
    {depth : Nat} {fields : Fields} (portable : Portable depth (.record fields)) :
    ∃ inner, depth = inner + 1 := by
  cases portable
  exact ⟨_, rfl⟩

theorem Portable.set_integer
    {depth : Nat} {fields : Fields} (portable : Portable depth (.record fields))
    (name : String) {n : Int} (countable : Countable n) :
    Portable depth (.record (fields.set name (.integer n))) := by
  cases portable with
  | record distinct each =>
      refine .record (Fields.nodup_names_set distinct name _) ?_
      intro field member
      rcases Fields.mem_of_mem_set member with earlier | rfl
      · exact each field earlier
      · exact .integer _ countable

/-- A whole text that was written for a value. -/
theorem read_of_readsAs
    {depth : Nat} {v other : Value} (reads : ReadsAs depth v other) :
    ∃ written, write? v = some written ∧
      read (String.ofList written) depth = .ok other := by
  obtain ⟨written, same, begins, readBack⟩ := reads
  refine ⟨written, same, ?_⟩
  have whole :=
    readBack (2 * written.length + 1) [] (by omega) trivial
  have black := skipWhite_of_begins begins []
  rw [List.append_nil] at whole black
  have document : document plainly depth written = .ok other := by
    have nothing : skipWhite [] = [] := rfl
    unfold document
    rw [black, whole]
    simp only [bind, Except.bind, nothing]
  unfold read readAs
  simp only [String.toList_ofList, document]
  rfl

theorem read_write
    {depth : Nat} {v : Value} (portable : Portable depth v) :
    ∃ written, write? v = some written ∧
      read (String.ofList written) depth = .ok v :=
  read_of_readsAs portable.readsBack

end Json

end AccessControl
