import AccessControl.Proofs.Decimal
import AccessControl.Proofs.Json

/-!
# The texts of doubles as JSON

A finite double is written as its shortest decimal, positionally or with a power of
ten, and read as a finite double; one that is not finite is written as a word.  So
every value without identifiers and points in time is read as a value that resembles
it: `Writable.exists_readsAs`.
-/

namespace AccessControl

namespace Text

theorem ofDigits_append_zeros (digits : List Char) (count : Nat) :
    ofDigits (digits ++ List.replicate count '0') =
      ofDigits digits * 10 ^ count := by
  induction count with
  | zero =>
      rw [List.replicate_zero, List.append_nil, Nat.pow_zero, Nat.mul_one]
  | succ count inductionHypothesis =>
      have zero : '0'.toNat - 0x30 = 0 := rfl
      unfold ofDigits at inductionHypothesis ⊢
      rw [List.replicate_succ', ← List.append_assoc, List.foldl_append,
        inductionHypothesis, List.foldl_cons, List.foldl_nil, zero,
        Nat.add_zero, Nat.mul_comm, Nat.mul_assoc, Nat.pow_succ]

theorem ofDigits_zeros_append (digits : List Char) (count : Nat) :
    ofDigits (List.replicate count '0' ++ digits) = ofDigits digits := by
  induction count with
  | zero =>
      rfl
  | succ count inductionHypothesis =>
      rw [List.replicate_succ, List.cons_append]
      exact inductionHypothesis

/-- How many zeros stand at the end of a text. -/
def zerosAtEnd (text : List Char) : Nat :=
  (text.reverse.takeWhile (· = '0')).length

/-- The text without the zeros at its end. -/
def withoutZeros (text : List Char) : List Char :=
  text.take (text.length - zerosAtEnd text)

theorem withoutZeros_append (text : List Char) :
    withoutZeros text ++ List.replicate (zerosAtEnd text) '0' = text := by
  have parts :=
    List.takeWhile_append_dropWhile
      (p := fun c => decide (c = '0')) (l := text.reverse)
  have zeros :
      text.reverse.takeWhile (· = '0') =
        List.replicate (text.reverse.takeWhile (· = '0')).length '0' := by
    apply List.eq_replicate_of_mem
    intro c member
    exact of_decide_eq_true (List.all_eq_true.mp List.all_takeWhile c member)
  unfold withoutZeros zerosAtEnd
  generalize text.reverse.takeWhile (· = '0') = trailing at parts zeros ⊢
  generalize text.reverse.dropWhile (· = '0') = leading at parts
  have turned := congrArg List.reverse parts
  rw [List.reverse_reverse, List.reverse_append] at turned
  rw [← turned, List.length_append, List.length_reverse, List.length_reverse,
    Nat.add_sub_cancel, List.take_left' (List.length_reverse)]
  congr 1
  rw [zeros, List.length_replicate, List.reverse_replicate]

end Text

namespace Json

theorem fraction_append
    {decimals rest : List Char} (filled : decimals ≠ [])
    (each : ∀ c ∈ decimals, Text.isDigit c = true) (stops : Stops rest) :
    fraction ('.' :: (decimals ++ rest)) = some (decimals, rest) := by
  unfold fraction
  simp [digits_append each stops, filled]

theorem exponent_exponentText
    (power : ℤ) {rest : List Char} (follows : Follows rest) :
    exponent (Double.exponentText Double.decimalStyle power ++ rest) =
      some (power, rest) := by
  obtain ⟨count, same⟩ :
      ∃ count, Double.exponentText Double.decimalStyle power =
        'e' :: (if power < 0 then '-' else '+') ::
          (List.replicate count '0' ++ Nat.toDigits 10 power.natAbs) :=
    ⟨_, rfl⟩
  have each :
      ∀ c ∈ List.replicate count '0' ++ Nat.toDigits 10 power.natAbs,
        Text.isDigit c = true := by
    intro c member
    rcases List.mem_append.mp member with zero | digit
    · rw [List.eq_of_mem_replicate zero]
      rfl
    · exact isDigit_of_mem_toDigits digit
  have size :
      Text.ofDigits
          (List.replicate count '0' ++ Nat.toDigits 10 power.natAbs) =
        power.natAbs := by
    rw [Text.ofDigits_zeros_append]
    exact Nat.ofDigitChars_ten_toDigits
  have filled :
      List.replicate count '0' ++ Nat.toDigits 10 power.natAbs ≠ [] := by
    obtain ⟨first, others, written, -⟩ := toDigits_eq_cons power.natAbs
    rw [written]
    simp
  have read := digits_append each (stops_of_follows follows)
  rw [same, List.cons_append, List.cons_append]
  generalize List.replicate count '0' ++ Nat.toDigits 10 power.natAbs = found
    at read size filled ⊢
  unfold exponent
  by_cases negative : power < 0
  · have signed : -|power| = power := by rw [abs_of_neg negative, neg_neg]
    simp [negative, read, size, filled, signed]
  · have signed : |power| = power := abs_of_nonneg (Int.not_lt.mp negative)
    simp [negative, read, size, filled, signed]

/-- What stands behind the digits of a double: nothing, or a power of ten. -/
inductive Scales : List Char → ℤ → Prop
  | one : Scales [] 0
  | power (power : ℤ) :
      Scales (Double.exponentText Double.decimalStyle power) power

theorem Scales.stops
    {tail rest : List Char} {power : ℤ} (scales : Scales tail power)
    (follows : Follows rest) : Stops (tail ++ rest) := by
  cases scales with
  | one =>
      exact stops_of_follows follows
  | power power =>
      intro c member
      cases member
      rfl

theorem Scales.getD_exponent
    {tail rest : List Char} {power : ℤ} (scales : Scales tail power)
    (follows : Follows rest) :
    (exponent (tail ++ rest)).getD (0, tail ++ rest) = (power, rest) := by
  cases scales with
  | one =>
      rw [List.nil_append, exponent_of_follows follows]
      rfl
  | power power =>
      rw [exponent_exponentText power follows]
      rfl

section Unsigned

variable (negative : Bool) {whole decimals tail rest : List Char} {power : ℤ}

theorem unsigned_pointed
    (isWhole : IsWhole whole) (filled : decimals ≠ [])
    (each : ∀ c ∈ decimals, Text.isDigit c = true)
    (scales : Scales tail power) (follows : Follows rest) :
    unsigned negative (whole ++ '.' :: (decimals ++ (tail ++ rest))) =
      some
        (.double
          (Double.ofDecimal negative (Text.ofDigits (whole ++ decimals))
            (power - decimals.length)),
          rest) := by
  have stops : Stops ('.' :: (decimals ++ (tail ++ rest))) := by
    intro c member
    cases member
    rfl
  unfold unsigned
  rw [wholeDigits_append isWhole stops]
  simp [fraction_append filled each (scales.stops follows),
    scales.getD_exponent follows, filled]

theorem unsigned_unpointed
    (isWhole : IsWhole whole) (power : ℤ) (follows : Follows rest) :
    unsigned negative
        (whole ++
          (Double.exponentText Double.decimalStyle power ++ rest)) =
      some
        (.double
          (Double.ofDecimal negative (Text.ofDigits whole) power),
          rest) := by
  have scales := Scales.power power
  have read := exponent_exponentText power follows
  have unpointed :
      fraction (Double.exponentText Double.decimalStyle power ++ rest) =
        none :=
    rfl
  unfold unsigned
  rw [wholeDigits_append isWhole (scales.stops follows)]
  simp [unpointed, read]

end Unsigned

/-! ## Doubles -/

/-- The text begins with a digit and is read as the double nearest to the decimal, or
to its opposite behind a minus sign. -/
structure Spells (text : List Char) (digits : Nat) (exponent : ℤ) : Prop where
  begins :
    ∃ first others, text = first :: others ∧ Text.isDigit first = true
  read :
    ∀ negative rest, Follows rest →
      unsigned negative (text ++ rest) =
        some (.double (Double.ofDecimal negative digits exponent), rest)

theorem spells_pointed
    {whole decimals tail : List Char} {power : ℤ}
    (isWhole : IsWhole whole) (filled : decimals ≠ [])
    (each : ∀ c ∈ decimals, Text.isDigit c = true)
    (scales : Scales tail power) :
    Spells (whole ++ '.' :: (decimals ++ tail))
      (Text.ofDigits (whole ++ decimals)) (power - decimals.length) where
  begins := by
    obtain ⟨first, others, rfl⟩ := List.exists_cons_of_ne_nil isWhole.filled
    exact ⟨first, _, rfl, isWhole.each first List.mem_cons_self⟩
  read := by
    intro negative rest follows
    rw [List.append_assoc, List.cons_append, List.append_assoc]
    exact unsigned_pointed negative isWhole filled each scales follows

theorem spells_unpointed
    {whole : List Char} (isWhole : IsWhole whole) (power : ℤ) :
    Spells (whole ++ Double.exponentText Double.decimalStyle power)
      (Text.ofDigits whole) power where
  begins := by
    obtain ⟨first, others, rfl⟩ := List.exists_cons_of_ne_nil isWhole.filled
    exact ⟨first, _, rfl, isWhole.each first List.mem_cons_self⟩
  read := by
    intro negative rest follows
    rw [List.append_assoc]
    exact unsigned_unpointed negative isWhole power follows

/-- The digits of a decimal without zeros in front: none stand for zero. -/
structure Leads (digits : List Char) (place : ℤ) : Prop where
  each : ∀ c ∈ digits, Text.isDigit c = true
  unpadded : ∀ rest, digits ≠ '0' :: rest
  zero : digits = [] → place = 1

theorem isWhole_singleton {c : Char} (digit : Text.isDigit c = true) :
    IsWhole [c] where
  filled := List.cons_ne_nil _ _
  each := by
    intro d member
    rw [List.mem_singleton.mp member]
    exact digit
  unpadded := by
    intro rest same
    exact (List.cons.inj same).2.symm

section Layout

variable {digits : List Char} {place : ℤ} (leads : Leads digits place)

include leads

theorem Leads.filled (apart : place + digits.length - 1 ≠ 0) : digits ≠ [] := by
  rintro rfl
  have one := leads.zero rfl
  rw [List.length_nil] at apart
  omega

/-- Zeros between the point and the digits. -/
theorem spells_below (below : place + digits.length - 1 < 0) :
    Spells
      ('0' :: '.' ::
        (List.replicate (-(place + digits.length - 1) - 1).toNat '0' ++
          digits))
      (Text.ofDigits digits) place := by
  have filled := leads.filled (by omega)
  generalize counted : (-(place + digits.length - 1) - 1).toNat = count
  have each :
      ∀ c ∈ List.replicate count '0' ++ digits, Text.isDigit c = true := by
    intro c member
    rcases List.mem_append.mp member with zero | digit
    · rw [List.eq_of_mem_replicate zero]
      rfl
    · exact leads.each c digit
  have spells :=
    spells_pointed (isWhole_singleton (c := '0') rfl)
      (List.append_ne_nil_of_right_ne_nil _ filled) each .one
  have size :
      Text.ofDigits (['0'] ++ (List.replicate count '0' ++ digits)) =
        Text.ofDigits digits :=
    Text.ofDigits_zeros_append digits (count + 1)
  have exponent :
      (0 : ℤ) - (List.replicate count '0' ++ digits).length = place := by
    rw [List.length_append, List.length_replicate]
    omega
  rw [size, exponent, List.append_nil] at spells
  exact spells

/-- Zeros between the digits and the point. -/
theorem spells_above
    {whole : Nat} (top : place + digits.length = whole)
    (positive : 0 < whole) (short : digits.length ≤ whole) :
    Spells (digits ++ List.replicate (whole - digits.length) '0' ++ ['.', '0'])
      (Text.ofDigits digits * 10 ^ (whole - digits.length + 1)) (-1) := by
  have each :
      ∀ c ∈ digits ++ List.replicate (whole - digits.length) '0',
        Text.isDigit c = true := by
    intro c member
    rcases List.mem_append.mp member with digit | zero
    · exact leads.each c digit
    · rw [List.eq_of_mem_replicate zero]
      rfl
  have isWhole :
      IsWhole (digits ++ List.replicate (whole - digits.length) '0') := by
    refine ⟨?_, each, ?_⟩
    · intro nothing
      have size := congrArg List.length nothing
      rw [List.length_append, List.length_replicate, List.length_nil] at size
      omega
    · intro rest same
      cases digits with
      | nil =>
          have one := leads.zero rfl
          have single : whole = 1 := by
            rw [List.length_nil] at top
            omega
          subst single
          exact (List.cons.inj same).2.symm
      | cons c digits =>
          cases same
          exact absurd rfl (leads.unpadded digits)
  have spells :=
    spells_pointed isWhole (List.cons_ne_nil '0' [])
      (isWhole_singleton (c := '0') rfl).each .one
  have size :
      Text.ofDigits
          (digits ++ List.replicate (whole - digits.length) '0' ++ ['0']) =
        Text.ofDigits digits * 10 ^ (whole - digits.length + 1) := by
    rw [List.append_assoc, ← List.replicate_succ', Text.ofDigits_append_zeros]
  rw [size] at spells
  exact spells

/-- The point between the digits. -/
theorem spells_between
    {whole : Nat} (top : place + digits.length = whole)
    (positive : 0 < whole) (long : whole < digits.length) :
    Spells (digits.take whole ++ '.' :: digits.drop whole)
      (Text.ofDigits digits) place := by
  have isWhole : IsWhole (digits.take whole) := by
    refine ⟨?_, fun c member => leads.each c (List.mem_of_mem_take member), ?_⟩
    · intro nothing
      have size := congrArg List.length nothing
      rw [List.length_take, List.length_nil] at size
      omega
    · intro rest same
      have joined := List.take_append_drop whole digits
      rw [same] at joined
      exact absurd joined.symm (leads.unpadded _)
  have filled : digits.drop whole ≠ [] :=
    mt List.drop_eq_nil_iff.mp (Nat.not_le_of_lt long)
  have spells :=
    spells_pointed isWhole filled
      (fun c member => leads.each c (List.mem_of_mem_drop member)) .one
  have exponent : (0 : ℤ) - (digits.drop whole).length = place := by
    rw [List.length_drop]
    omega
  rw [List.take_append_drop, exponent, List.append_nil] at spells
  exact spells

/-- A digit, the other ones behind the point, and the power of ten. -/
theorem spells_scientific
    (far :
      ¬ (decide (Double.decimalStyle.lowest ≤ place + digits.length - 1) &&
          decide (place + digits.length - 1 < Double.decimalStyle.tooHigh)) =
        true) :
    Spells (Double.digitsText Double.decimalStyle digits place)
      (Text.ofDigits digits) place := by
  have apart : place + digits.length - 1 ≠ 0 := by
    intro zero
    rw [zero] at far
    exact far (by decide)
  have filled := leads.filled apart
  unfold Double.digitsText
  simp only
  rw [if_neg far]
  match digits, leads with
  | [], _ =>
      exact absurd rfl filled
  | [d], leads =>
      have spells :=
        spells_unpointed (isWhole_singleton (leads.each d List.mem_cons_self))
          (place + [d].length - 1)
      have exponent : place + [d].length - 1 = place := by simp
      rw [exponent] at spells ⊢
      exact spells
  | d :: next :: rest, leads =>
      have spells :=
        spells_pointed (isWhole_singleton (leads.each d List.mem_cons_self))
          (List.cons_ne_nil next rest)
          (fun c member => leads.each c (List.mem_cons_of_mem d member))
          (.power (place + (d :: next :: rest).length - 1))
      have exponent :
          place + (d :: next :: rest).length - 1 - (next :: rest).length =
            place := by
        simp only [List.length_cons]
        omega
      rw [exponent] at spells
      exact spells

end Layout

/-- However it is laid out, the decimal is read as a decimal of the same value. -/
theorem exists_spells_digitsText
    {digits : List Char} {place : ℤ} (leads : Leads digits place) :
    ∃ shift : Nat,
      Spells (Double.digitsText Double.decimalStyle digits place)
        (Text.ofDigits digits * 10 ^ shift) (place - shift) := by
  by_cases positional :
      (decide (Double.decimalStyle.lowest ≤ place + digits.length - 1) &&
          decide (place + digits.length - 1 < Double.decimalStyle.tooHigh)) =
        true
  · unfold Double.digitsText
    simp only
    rw [if_pos positional]
    split
    · rename_i below
      refine ⟨0, ?_⟩
      simpa using spells_below leads below
    · rename_i above
      obtain ⟨whole, counted⟩ : ∃ whole : Nat, place + digits.length = whole :=
        ⟨(place + digits.length).toNat, by omega⟩
      have positive : 0 < whole := by omega
      have top : (place + digits.length - 1 + 1).toNat = whole := by omega
      rw [top]
      by_cases short : digits.length ≤ whole
      · have exponent :
            place - ((whole - digits.length + 1 : Nat) : ℤ) = -1 := by
          omega
        have size :
            (digits ++ List.replicate (whole - digits.length) '0').length =
              whole := by
          rw [List.length_append, List.length_replicate]
          omega
        refine ⟨whole - digits.length + 1, ?_⟩
        rw [exponent, List.take_of_length_le (Nat.le_of_eq size),
          List.drop_of_length_le (Nat.le_of_eq size)]
        exact spells_above leads counted positive short
      · have long : whole < digits.length := Nat.lt_of_not_le short
        have unpadded : whole - digits.length = 0 := by omega
        have filled : (digits.drop whole).isEmpty = false := by
          rw [List.isEmpty_eq_false_iff]
          exact mt List.drop_eq_nil_iff.mp short
        refine ⟨0, ?_⟩
        rw [unpadded, List.replicate_zero, List.append_nil, filled,
          if_neg Bool.false_ne_true]
        simpa using spells_between leads counted positive long
  · refine ⟨0, ?_⟩
    simpa using spells_scientific leads positional

theorem magnitude_eq_zero_of_low {d : Double}
    (zero : d.bits.toNat % Nat.pow 2 63 = 0) : d.magnitude = 0 := by
  have sign : Nat.pow 2 63 = 9223372036854775808 := by decide
  have point : Nat.pow 2 52 = 4503599627370496 := by decide
  have width : Nat.pow 2 11 = 2048 := by decide
  rw [sign] at zero
  unfold Double.magnitude Double.exponentField Double.fractionField
  rw [point, width, if_pos (by omega)]
  omega

/-- The shortest decimal is zero only where the search for it has come to its end. -/
theorem place_of_shortest_zero
    {d : Double} (filled : d.magnitude ≠ 0) {place : ℤ}
    (found : d.shortest = (0, place)) : place = 0 := by
  rcases Double.nearestBits_shortestFrom _ _ _ _ _ _ found with
    same | ⟨-, nothing⟩
  · rw [Nat.zero_mul] at same
    exact absurd (magnitude_eq_zero_of_low same.symm) filled
  · exact nothing

/-- The digits of a whole number without the zeros at their end. -/
theorem leads_withoutZeros
    {m : Nat} {place : ℤ} (ended : m = 0 → place = 0) :
    Leads (Text.withoutZeros (Nat.toDigits 10 m))
      (place + Text.zerosAtEnd (Nat.toDigits 10 m)) := by
  by_cases zero : m = 0
  · have none : Text.withoutZeros (Nat.toDigits 10 0) = [] := by decide
    have one : Text.zerosAtEnd (Nat.toDigits 10 0) = 1 := by decide
    rw [ended zero, zero, none, one]
    exact ⟨nofun, nofun, fun _ => rfl⟩
  · obtain ⟨first, others, written, leading⟩ := toDigits_eq_cons m
    have parts := Text.withoutZeros_append (Nat.toDigits 10 m)
    have starts : first ≠ '0' := mt leading zero
    refine ⟨?_, ?_, ?_⟩
    · intro c member
      exact isDigit_of_mem_toDigits (List.mem_of_mem_take member)
    · intro rest same
      rw [same, written, List.cons_append] at parts
      exact starts (List.head_eq_of_cons_eq parts).symm
    · intro nothing
      rw [nothing, List.nil_append] at parts
      have member : first ∈ Nat.toDigits 10 m := by
        rw [written]
        exact List.mem_cons_self
      rw [← parts] at member
      exact absurd (List.eq_of_mem_replicate member) starts

theorem ofDigits_withoutZeros (m : Nat) :
    Text.ofDigits (Text.withoutZeros (Nat.toDigits 10 m)) *
        10 ^ Text.zerosAtEnd (Nat.toDigits 10 m) =
      m := by
  rw [← Text.ofDigits_append_zeros, Text.withoutZeros_append]
  exact Nat.ofDigitChars_ten_toDigits

theorem cast_scaled {whole shift trailing : Nat} {place : ℤ} :
    ((whole * 10 ^ shift : Nat) : ℚ) * 10 ^ (place + trailing - shift) =
      ((whole * 10 ^ trailing : Nat) : ℚ) * 10 ^ place := by
  have ten : (10 : ℚ) ≠ 0 := by norm_num
  push_cast
  rw [mul_assoc, mul_assoc, ← zpow_natCast, ← zpow_natCast, ← zpow_add₀ ten,
    ← zpow_add₀ ten]
  congr 2
  omega

/-- A finite double is written as a decimal that is near to a finite double, behind a
minus sign when the double has one. -/
theorem exists_spells_text {d : Double} (finite : d.isFinite = true) :
    ∃ body digits exponent, Spells body digits exponent ∧
      (∀ negative,
        (Double.ofDecimal negative digits exponent).isFinite = true) ∧
      d.text = (if d.isNegative then ['-'] else []) ++ body := by
  obtain ⟨scaled, extended⟩ := Double.exists_extended_of_isFinite finite
  unfold Double.text
  rw [extended]
  simp only
  by_cases zero : d.magnitude = 0
  · have spells : Spells ['0', '.', '0'] 0 (-1) :=
      spells_pointed (isWhole_singleton (c := '0') rfl)
        (List.cons_ne_nil '0' []) (isWhole_singleton (c := '0') rfl).each .one
    refine ⟨_, _, _, spells, fun negative => ?_, if_pos zero⟩
    exact Double.isFinite_ofMagnitudeBits negative (by decide)
  · generalize found : d.shortest = best
    obtain ⟨m, place⟩ := best
    have ended : m = 0 → place = 0 := by
      rintro rfl
      exact place_of_shortest_zero zero found
    obtain ⟨shift, spells⟩ :=
      exists_spells_digitsText (leads_withoutZeros ended)
    refine ⟨_, _, _, spells, fun negative => ?_, if_neg zero⟩
    have powered : 0 < Nat.pow 10 (-place).toNat := Nat.pow_pos (by decide)
    refine
      Double.isFinite_ofDecimal negative powered ?_
        (Double.nearestBits_shortest_lt finite found)
    rw [cast_scaled, ofDigits_withoutZeros, Double.cast_decimal]

theorem writeNumber_double (d : Double) :
    writeNumber (.double d) =
      match d.extended with
      | .nan => "NaN".toList
      | .positiveInfinity => "Infinity".toList
      | .negativeInfinity => "-Infinity".toList
      | .finite _ => d.text :=
  rfl

/-- A finite double is read as a finite double. -/
theorem exists_readsAs_double
    (depth : Nat) {d : Double} (finite : d.isFinite = true) :
    ∃ e : Double, e.isFinite = true ∧
      ReadsAs depth (.number (.double d)) (.number (.double e)) := by
  obtain ⟨body, digits, exponent, spells, near, text⟩ :=
    exists_spells_text finite
  obtain ⟨first, others, rfl, digit⟩ := spells.begins
  have written : writeNumber (.double d) = d.text := by
    obtain ⟨scaled, extended⟩ :=
      Double.exists_extended_of_isFinite finite
    rw [writeNumber_double, extended]
  refine ⟨_, near d.isNegative, ?_⟩
  apply readsAs_number
  · rw [written, text]
    cases d.isNegative with
    | false =>
        exact beginsNumber_of_isDigit others digit
    | true =>
        exact beginsNumber_minus others digit
  · intro rest follows
    have read := spells.read d.isNegative rest follows
    rw [written, text]
    cases negative : d.isNegative with
    | false =>
        rw [negative] at read
        rw [← read]
        exact number?_of_isDigit _ digit
    | true =>
        rw [negative] at read
        exact read
  · exact fun rest follows => rfl

/-- A double that is not finite is written as a word, and read as such a double. -/
theorem exists_readsAs_word
    (depth : Nat) {d : Double} (endless : d.isFinite = false) :
    ∃ e : Double, e.isFinite = false ∧
      ReadsAs depth (.number (.double d)) (.number (.double e)) := by
  have written :
      write? (.number (.double d)) = some (writeNumber (.double d)) := by
    rw [write?]
  rw [writeNumber_double] at written
  rcases Double.extended_of_not_isFinite endless with
    extended | extended | extended <;>
    rw [extended] at written
  · refine ⟨⟨0x7ff8000000000000⟩, by decide, _, written,
      ⟨_, _, rfl, by decide⟩, ?_⟩
    exact fun fuel rest _ _ => rfl
  · refine ⟨⟨0x7ff0000000000000⟩, by decide, _, written,
      ⟨_, _, rfl, by decide⟩, ?_⟩
    exact fun fuel rest _ _ => rfl
  · refine ⟨⟨0xfff0000000000000⟩, by decide, _, written,
      ⟨_, _, rfl, by decide⟩, ?_⟩
    exact fun fuel rest _ _ => rfl

/-- The values that are written and read, nested at most so deep: those without
identifiers and points in time, with integers of few enough digits and no name
twice in a record. -/
inductive Writable : Nat → Value → Prop
  | null (depth : Nat) : Writable depth .null
  | boolean (depth : Nat) (b : Bool) : Writable depth (.boolean b)
  | integer (depth : Nat) {n : Int} (countable : Countable n) :
      Writable depth (.number (.integer n))
  | double (depth : Nat) (d : Double) : Writable depth (.number (.double d))
  | text (depth : Nat) (s : String) : Writable depth (.text s)
  | list {depth : Nat} {items : List Value}
      (each : ∀ item ∈ items, Writable depth item) :
      Writable (depth + 1) (.list items)
  | record {depth : Nat} {fields : Fields} (distinct : fields.names.Nodup)
      (each : ∀ field ∈ fields, Writable depth field.2) :
      Writable (depth + 1) (.record fields)

/-- What a value may be read as when its doubles have been written: the same, a double
that is finite where this one is, or a list or a record in its place. -/
inductive Resembles : Value → Value → Prop
  | same (v : Value) : Resembles v v
  | double {d e : Double} (finite : e.isFinite = d.isFinite) :
      Resembles (.number (.double d)) (.number (.double e))
  | list (items others : List Value) : Resembles (.list items) (.list others)
  | record (fields others : Fields) :
      Resembles (.record fields) (.record others)

theorem Writable.exists_readsAs
    {depth : Nat} {v : Value} (writable : Writable depth v) :
    ∃ other, ReadsAs depth v other ∧ Resembles v other := by
  induction writable with
  | null depth =>
      exact ⟨_, readsBack_null depth, .same _⟩
  | boolean depth b =>
      exact ⟨_, readsBack_boolean depth b, .same _⟩
  | integer depth countable =>
      exact ⟨_, readsBack_integer depth countable, .same _⟩
  | double depth d =>
      cases finite : d.isFinite with
      | false =>
          obtain ⟨e, endless, reads⟩ := exists_readsAs_word depth finite
          exact ⟨_, reads, .double (endless.trans finite.symm)⟩
      | true =>
          obtain ⟨e, finite', reads⟩ := exists_readsAs_double depth finite
          exact ⟨_, reads, .double (finite'.trans finite.symm)⟩
  | text depth s =>
      exact ⟨_, readsBack_text depth s, .same _⟩
  | @list depth items _ inductionHypothesis =>
      choose! other reads _ using inductionHypothesis
      have each : List.Forall₂ (ReadsAs depth) items (items.map other) :=
        List.forall₂_map_right_iff.mpr (List.forall₂_same.mpr reads)
      exact ⟨_, readsAs_list each, .list _ _⟩
  | @record depth fields distinct _ inductionHypothesis =>
      have : Nonempty Value := ⟨.null⟩
      choose! other reads _ using inductionHypothesis
      have each :
          List.Forall₂ (FieldReadsAs depth) fields
            (fields.map fun field => (field.1, other field)) :=
        List.forall₂_map_right_iff.mpr <|
          List.forall₂_same.mpr fun field member => ⟨rfl, reads field member⟩
      exact ⟨_, readsAs_record distinct each, .record _ _⟩

end Json

end AccessControl
