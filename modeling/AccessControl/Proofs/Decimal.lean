import AccessControl.Proofs.Number
import Mathlib.Data.Int.Log
import Mathlib.Data.Rat.Floor

/-!
# Decimals that doubles are read from

The double nearest to a ratio depends on the value of the ratio alone, however it is
spelled: `nearestBits_congr`.  So a decimal of the same value as the shortest one of a
finite double is read as a finite double: `isFinite_ofDecimal`.
-/

namespace AccessControl

namespace Double

/-- A ratio with a power of two taken to its denominator. -/
theorem cast_shifted (num den : Nat) (exponent : ℤ) :
    ((num * Nat.pow 2 (-exponent).toNat : Nat) : ℚ) /
        (den * Nat.pow 2 exponent.toNat : Nat) =
      num / den / 2 ^ exponent := by
  have two : (2 : ℚ) ≠ 0 := by norm_num
  rw [Nat.cast_mul, Nat.cast_mul, cast_pow_two, cast_pow_two,
    mul_div_mul_comm, ← zpow_sub₀ two, div_eq_mul_inv _ (2 ^ exponent),
    ← zpow_neg]
  congr 2
  omega

section Ratio

variable {num den : Nat}

theorem pow_two_le_iff (num : Nat) (positive : 0 < den) (exponent : ℤ) :
    den * Nat.pow 2 exponent.toNat ≤ num * Nat.pow 2 (-exponent).toNat ↔
      (2 : ℚ) ^ exponent ≤ num / den := by
  have scaled : (0 : ℚ) < (den * Nat.pow 2 exponent.toNat : Nat) :=
    Nat.cast_pos.mpr (Nat.mul_pos positive (Nat.pow_pos (by decide)))
  have power : (0 : ℚ) < 2 ^ exponent := by positivity
  rw [← one_le_div₀ power, ← cast_shifted, one_le_div₀ scaled, Nat.cast_le]

theorem cast_log2_between {n : Nat} (filled : 0 < n) :
    (2 : ℚ) ^ (Nat.log2 n : ℤ) ≤ n ∧ (n : ℚ) < 2 ^ ((Nat.log2 n : ℤ) + 1) := by
  constructor
  · rw [← cast_pow_two]
    exact Nat.cast_le.mpr (Nat.log2_self_le (Nat.ne_of_gt filled))
  · have less : n < Nat.pow 2 (Nat.log2 n + 1) := Nat.lt_log2_self
    have cast := cast_pow_two (Nat.log2 n + 1)
    rw [Nat.cast_add, Nat.cast_one] at cast
    rw [← cast]
    exact Nat.cast_lt.mpr less

/-- A ratio lies next to the power of two that the lengths of its parts suggest. -/
theorem ratio_between (filled : 0 < num) (positive : 0 < den) :
    (2 : ℚ) ^ ((Nat.log2 num : ℤ) - Nat.log2 den - 1) ≤ num / den ∧
      (num : ℚ) / den < 2 ^ ((Nat.log2 num : ℤ) - Nat.log2 den + 1) := by
  have two : (2 : ℚ) ≠ 0 := by norm_num
  have denPositive : (0 : ℚ) < den := Nat.cast_pos.mpr positive
  obtain ⟨numLow, numHigh⟩ := cast_log2_between filled
  obtain ⟨denLow, denHigh⟩ := cast_log2_between positive
  constructor
  · rw [le_div_iff₀ denPositive]
    calc
      (2 : ℚ) ^ ((Nat.log2 num : ℤ) - Nat.log2 den - 1) * den
          ≤ 2 ^ ((Nat.log2 num : ℤ) - Nat.log2 den - 1) *
              2 ^ ((Nat.log2 den : ℤ) + 1) := by
            gcongr
      _ = 2 ^ (Nat.log2 num : ℤ) := by
            rw [← zpow_add₀ two]
            congr 1
            omega
      _ ≤ num := numLow
  · rw [div_lt_iff₀ denPositive]
    calc
      (num : ℚ) < 2 ^ ((Nat.log2 num : ℤ) + 1) := numHigh
      _ = 2 ^ ((Nat.log2 num : ℤ) - Nat.log2 den + 1) *
            2 ^ (Nat.log2 den : ℤ) := by
            rw [← zpow_add₀ two]
            congr 1
            omega
      _ ≤ 2 ^ ((Nat.log2 num : ℤ) - Nat.log2 den + 1) * den := by
            gcongr

/-- The greatest power of two up to a ratio. -/
theorem binaryExponent_eq_log (filled : 0 < num) (positive : 0 < den) :
    binaryExponent num den = Int.log 2 ((num : ℚ) / den) := by
  have ratio : (0 : ℚ) < num / den := by positivity
  obtain ⟨low, high⟩ := ratio_between filled positive
  have atMost := (Int.lt_zpow_iff_log_lt Nat.one_lt_two ratio).mp high
  have atLeast := (Int.zpow_le_iff_le_log Nat.one_lt_two ratio).mp low
  have fits :=
    pow_two_le_iff num positive
      ((Nat.log2 num : ℤ) - Nat.log2 den)
  have reaches :=
    Int.zpow_le_iff_le_log (R := ℚ) Nat.one_lt_two
      (x := (Nat.log2 num : ℤ) - Nat.log2 den) ratio
  rw [Nat.cast_two] at reaches
  unfold binaryExponent
  simp only [fits, reaches]
  split <;> omega

end Ratio

theorem roundHalfEven_mul_right
    (num den : Nat) {scale : Nat} (positive : 0 < scale) :
    roundHalfEven (num * scale) (den * scale) = roundHalfEven num den := by
  have above :
      den * scale < 2 * (num % den) * scale ↔ den < 2 * (num % den) :=
    Nat.mul_lt_mul_right positive
  have half :
      2 * (num % den) * scale = den * scale ↔ 2 * (num % den) = den :=
    Nat.mul_left_inj (Nat.ne_of_gt positive)
  unfold roundHalfEven
  rw [Nat.mul_div_mul_right num den positive, Nat.mul_mod_mul_right,
    ← Nat.mul_assoc]
  simp only [above, half]

theorem nearestBits_mul_right
    (num : Nat) {den scale : Nat} (denPositive : 0 < den)
    (positive : 0 < scale) :
    nearestBits (num * scale) (den * scale) = nearestBits num den := by
  rcases Nat.eq_zero_or_pos num with rfl | filled
  · simp [nearestBits]
  · have scaled : num * scale ≠ 0 :=
      Nat.ne_of_gt (Nat.mul_pos filled positive)
    have same :
        binaryExponent (num * scale) (den * scale) =
          binaryExponent num den := by
      have scaleNe : (scale : ℚ) ≠ 0 :=
        Nat.cast_ne_zero.mpr (Nat.ne_of_gt positive)
      rw [binaryExponent_eq_log filled denPositive,
        binaryExponent_eq_log (Nat.mul_pos filled positive)
          (Nat.mul_pos denPositive positive),
        Nat.cast_mul, Nat.cast_mul, mul_div_mul_right _ _ scaleNe]
    unfold nearestBits
    rw [if_neg scaled, if_neg (Nat.ne_of_gt filled), same]
    simp only [Nat.mul_right_comm _ scale,
      roundHalfEven_mul_right _ _ positive]

/-- The nearest double depends on the value of the ratio alone. -/
theorem nearestBits_congr
    {num den other otherDen : Nat} (positive : 0 < den)
    (otherPositive : 0 < otherDen)
    (same : (num : ℚ) / den = other / otherDen) :
    nearestBits num den = nearestBits other otherDen := by
  have crossed : num * otherDen = other * den := by
    rw [div_eq_div_iff (Nat.cast_ne_zero.mpr (Nat.ne_of_gt positive))
      (Nat.cast_ne_zero.mpr (Nat.ne_of_gt otherPositive))] at same
    exact_mod_cast same
  rw [← nearestBits_mul_right num positive otherPositive, crossed,
    Nat.mul_comm den, nearestBits_mul_right other otherPositive positive]

theorem le_roundHalfEven (num den : Nat) :
    num / den ≤ roundHalfEven num den := by
  unfold roundHalfEven
  simp only
  split
  · exact Nat.le_succ _
  · exact Nat.le_refl _

/-- No finite double is near to a ratio of 2 ^ 1024 or more. -/
theorem nearestBits_of_large
    {num den : Nat} (positive : 0 < den)
    (large : (2 : ℚ) ^ (1024 : ℤ) ≤ num / den) :
    nearestBits num den = infinityBits := by
  have ratio : (0 : ℚ) < num / den :=
    lt_of_lt_of_le (by positivity) large
  have filled : 0 < num := by
    rcases Nat.eq_zero_or_pos num with rfl | filled
    · simp at ratio
    · exact filled
  have power := binaryExponent_eq_log filled positive
  have top : 1024 ≤ binaryExponent num den := by
    rw [power]
    exact (Int.zpow_le_iff_le_log Nat.one_lt_two ratio).mp large
  have fits := Int.zpow_log_le_self (R := ℚ) Nat.one_lt_two ratio
  rw [← power, Nat.cast_two, ← pow_two_le_iff num positive] at fits
  obtain ⟨above, split⟩ :
      ∃ above : Nat, binaryExponent num den = ((above + 1024 : Nat) : ℤ) :=
    ⟨(binaryExponent num den - 1024).toNat, by omega⟩
  have exponent :
      max (-1074) (binaryExponent num den - 52) =
        ((above + 972 : Nat) : ℤ) := by
    omega
  have unshifted (n : Nat) : (-(n : ℤ)).toNat = 0 := by omega
  rw [split, Int.toNat_natCast, unshifted] at fits
  have mantissa :
      Nat.pow 2 52 ≤
        roundHalfEven (num * Nat.pow 2 0) (den * Nat.pow 2 (above + 972)) := by
    have powered : 0 < den * Nat.pow 2 (above + 972) :=
      Nat.mul_pos positive (Nat.pow_pos (by decide))
    refine Nat.le_trans ?_ (le_roundHalfEven _ _)
    rw [Nat.le_div_iff_mul_le powered]
    refine Nat.le_trans (Nat.le_of_eq ?_) fits
    have sum : 52 + (above + 972) = above + 1024 := by omega
    have power := Nat.pow_add 2 52 (above + 972)
    rw [sum] at power
    rw [Nat.mul_left_comm]
    exact congrArg (den * ·) power.symm
  unfold nearestBits
  rw [if_neg (Nat.ne_of_gt filled), exponent]
  simp only [Int.toNat_natCast, unshifted]
  refine Nat.min_eq_left ?_
  have steps : 2046 ≤ (((above + 972 : Nat) : ℤ) + 1074).toNat := by omega
  have most : infinityBits = 2046 * Nat.pow 2 52 + Nat.pow 2 52 := by decide
  rw [most]
  exact Nat.add_le_add (Nat.mul_le_mul_right _ steps) mantissa

theorem exists_extended_of_isFinite {d : Double} (finite : d.isFinite = true) :
    ∃ scaled, d.extended = .finite scaled := by
  have bounded : d.exponentField ≠ 2047 := bne_iff_ne.mp finite
  unfold extended
  rw [if_neg bounded]
  split
  · exact ⟨_, rfl⟩
  · exact ⟨_, rfl⟩

theorem extended_of_not_isFinite {d : Double} (endless : d.isFinite = false) :
    d.extended = .nan ∨ d.extended = .positiveInfinity ∨
      d.extended = .negativeInfinity := by
  have top : d.exponentField = 2047 :=
    of_not_not (mt bne_iff_ne.mpr (Bool.eq_false_iff.mp endless))
  unfold extended
  rw [if_pos top]
  split
  · exact .inl rfl
  · split
    · exact .inr (.inr rfl)
    · exact .inr (.inl rfl)

theorem isFinite_ofMagnitudeBits
    (negative : Bool) {low : Nat} (small : low < infinityBits) :
    (ofMagnitudeBits negative low).isFinite = true := by
  have top : infinityBits = 9218868437227405312 := by decide
  have sign : Nat.pow 2 63 = 9223372036854775808 := by decide
  have place : Nat.pow 2 52 = 4503599627370496 := by decide
  have width : Nat.pow 2 11 = 2048 := by decide
  rw [top] at small
  unfold isFinite exponentField ofMagnitudeBits
  rw [sign, place, width, UInt64.toNat_ofNat', bne_iff_ne]
  cases negative
  · rw [if_neg Bool.false_ne_true]
    omega
  · rw [if_pos rfl]
    omega

theorem cast_pow_ten (k : Nat) : ((Nat.pow 10 k : Nat) : ℚ) = 10 ^ (k : ℤ) := by
  rw [zpow_natCast]
  exact Nat.cast_pow 10 k

theorem cast_decimal (digits : Nat) (exponent : ℤ) :
    ((digits * Nat.pow 10 exponent.toNat : Nat) : ℚ) /
        (Nat.pow 10 (-exponent).toNat : Nat) =
      digits * 10 ^ exponent := by
  have ten : (10 : ℚ) ≠ 0 := by norm_num
  rw [Nat.cast_mul, cast_pow_ten, cast_pow_ten, mul_div_assoc,
    ← zpow_sub₀ ten]
  congr 2
  omega

/-- A decimal next to a ratio that a finite double is near to is read as a finite
double. -/
theorem isFinite_ofDecimal
    (negative : Bool) {digits num den : Nat} {exponent : ℤ}
    (positive : 0 < den)
    (same : (digits : ℚ) * 10 ^ exponent = num / den)
    (finite : nearestBits num den < infinityBits) :
    (ofDecimal negative digits exponent).isFinite = true := by
  unfold ofDecimal
  apply isFinite_ofMagnitudeBits
  split
  · decide
  · rename_i filled
    split
    · rename_i far
      have one : (1 : ℚ) ≤ digits :=
        Nat.one_le_cast.mpr (Nat.pos_of_ne_zero filled)
      have large : (2 : ℚ) ^ (1024 : ℤ) ≤ num / den := by
        calc
          (2 : ℚ) ^ (1024 : ℤ) ≤ 2 ^ (3 * 401 : ℤ) :=
            zpow_le_zpow_right₀ (by norm_num) (by norm_num)
          _ = (2 ^ (3 : ℤ)) ^ (401 : ℤ) := zpow_mul 2 3 401
          _ ≤ 10 ^ (401 : ℤ) :=
            zpow_le_zpow_left₀ (by norm_num) (by norm_num) (by norm_num)
          _ ≤ 10 ^ exponent := zpow_le_zpow_right₀ (by norm_num) far
          _ ≤ digits * 10 ^ exponent :=
              le_mul_of_one_le_left (by positivity) one
          _ = num / den := same
      rw [nearestBits_of_large positive large] at finite
      exact absurd finite (Nat.lt_irrefl _)
    · split
      · decide
      · have powered : 0 < Nat.pow 10 (-exponent).toNat :=
          Nat.pow_pos (by decide)
        rw [← cast_decimal] at same
        rw [nearestBits_congr powered positive same]
        exact finite

/-! ## The shortest decimal -/

theorem roundHalfEven_eq_or (num den : Nat) :
    roundHalfEven num den = num / den ∨
      roundHalfEven num den = num / den + 1 := by
  unfold roundHalfEven
  simp only
  split
  · exact .inr rfl
  · exact .inl rfl

theorem nearestBits_of_onGrid?
    {num den low m : Nat} {place : ℤ}
    (found : onGrid? num den low place = some m) :
    nearestBits (m * Nat.pow 10 place.toNat) (Nat.pow 10 (-place).toNat) =
      low := by
  unfold onGrid? at found
  simp only at found
  split at found
  · rename_i below above
    cases found
    rcases roundHalfEven_eq_or (num * Nat.pow 10 (-place).toNat)
      (den * Nat.pow 10 place.toNat) with same | same
    · rw [same]
      exact beq_iff_eq.mp below
    · rw [same]
      exact beq_iff_eq.mp above
  · rename_i below _
    cases found
    exact beq_iff_eq.mp below
  · rename_i _ above
    cases found
    exact beq_iff_eq.mp above
  · cases found

/-- The digits that are found stand for a decimal near to the double, or for zero. -/
theorem nearestBits_shortestFrom
    (num den low : Nat) (top : ℤ) (fuel digits : Nat) {m : Nat} {place : ℤ}
    (found : shortestFrom num den low top fuel digits = (m, place)) :
    nearestBits (m * Nat.pow 10 place.toNat) (Nat.pow 10 (-place).toNat) =
        low ∨
      m = 0 ∧ place = 0 := by
  induction fuel generalizing digits with
  | zero =>
      cases found
      exact .inr ⟨rfl, rfl⟩
  | succ fuel inductionHypothesis =>
      rw [shortestFrom] at found
      split at found
      · rename_i hit
        cases found
        exact .inl (nearestBits_of_onGrid? hit)
      · exact inductionHypothesis (digits + 1) found

theorem low_lt_infinityBits {d : Double} (finite : d.isFinite = true) :
    d.bits.toNat % Nat.pow 2 63 < infinityBits := by
  have top : infinityBits = 9218868437227405312 := by decide
  have sign : Nat.pow 2 63 = 9223372036854775808 := by decide
  have place : Nat.pow 2 52 = 4503599627370496 := by decide
  have width : Nat.pow 2 11 = 2048 := by decide
  unfold isFinite exponentField at finite
  rw [bne_iff_ne, place, width] at finite
  rw [top, sign]
  omega

theorem nearestBits_shortest_lt
    {d : Double} (finite : d.isFinite = true) {m : Nat} {place : ℤ}
    (found : d.shortest = (m, place)) :
    nearestBits (m * Nat.pow 10 place.toNat) (Nat.pow 10 (-place).toNat) <
      infinityBits := by
  rcases nearestBits_shortestFrom _ _ _ _ _ _ found with same | ⟨rfl, rfl⟩
  · rw [same]
    exact low_lt_infinityBits finite
  · decide

end Double

end AccessControl
