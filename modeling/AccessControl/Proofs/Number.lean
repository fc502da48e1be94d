import AccessControl.Number
import Mathlib.Algebra.Order.Field.Power
import Mathlib.Data.Option.NAry
import Mathlib.Data.Rat.Cast.Order
import Mathlib.Order.Compare
import Mathlib.Order.WithBot
import Mathlib.Tactic.FieldSimp
import Mathlib.Tactic.NormNum
import Mathlib.Tactic.Positivity

/-!
# The exact value of a number

An integer stands for itself, and the three fields of a double say which rational
number or which infinity it stands for.  Counting in units of 2 ^ -1074 loses
nothing of that, and so numbers are compared by their exact values:
`Number.compare?_eq`.
-/

namespace AccessControl

/-- The rational numbers with an infinity at each end. -/
abbrev ExtendedRational := WithBot (WithTop ℚ)

namespace Double

/-- The size of a double that is neither infinite nor not a number: a fraction with a one
before the point, or without it below the least normal double, and a power of two. -/
def size (d : Double) : ℚ :=
  if d.exponentField = 0 then
    d.fractionField / 2 ^ 52 * 2 ^ (-1022 : ℤ)
  else
    (1 + d.fractionField / 2 ^ 52) * 2 ^ ((d.exponentField : ℤ) - 1023)

/-- The value of a double.  The highest exponent is that of the infinities and of what
is not a number. -/
def value? (d : Double) : Option ExtendedRational :=
  if d.exponentField = 2047 then
    if d.fractionField ≠ 0 then none
    else some (if d.isNegative then ⊥ else ⊤)
  else
    some ((if d.isNegative then -d.size else d.size : ℚ) : WithTop ℚ)

end Double

namespace Number

/-- The value of a number, none when it is not a number. -/
def value? : Number → Option ExtendedRational
  | integer n => some ((n : ℚ) : WithTop ℚ)
  | double d => d.value?

end Number

namespace Extended

/-- The value that a count of units stands for. -/
def value? : Extended → Option ExtendedRational
  | nan => none
  | negativeInfinity => some ⊥
  | finite scaled => some ((scaled / unitsPerOne : ℚ) : WithTop ℚ)
  | positiveInfinity => some ⊤

end Extended

theorem cast_pow_two (k : Nat) : ((Nat.pow 2 k : Nat) : ℚ) = 2 ^ (k : ℤ) := by
  rw [zpow_natCast]
  exact Nat.cast_pow 2 k

theorem unitsPerOne_eq : (unitsPerOne : ℚ) = 2 ^ (1074 : ℤ) := by
  unfold unitsPerOne
  -- Under a name of its own, the exponent is not worked out.
  generalize counted : 1074 = k
  rw [cast_pow_two]
  subst counted
  rfl

theorem unitsPerOne_pos : (0 : ℚ) < unitsPerOne := by
  rw [unitsPerOne_eq]
  positivity

namespace Double

theorem magnitude_div_unitsPerOne (d : Double) :
    (d.magnitude : ℚ) / unitsPerOne = d.size := by
  have two : (2 : ℚ) ≠ 0 := by norm_num
  unfold magnitude size
  rw [unitsPerOne_eq]
  by_cases subnormal : d.exponentField = 0
  · rw [if_pos subnormal, if_pos subnormal]
    have scale : (2 : ℚ) ^ (-1022 : ℤ) = 2 ^ 52 / 2 ^ (1074 : ℤ) := by
      rw [← zpow_natCast, ← zpow_sub₀ two]
      rfl
    rw [scale]
    field_simp
  · rw [if_neg subnormal, if_neg subnormal]
    have stepped :
        (2 : ℚ) ^ ((d.exponentField - 1 : Nat) : ℤ) =
          2 ^ ((d.exponentField : ℤ) - 1023) * (2 ^ (1074 : ℤ) / 2 ^ 52) := by
      rw [← zpow_natCast, ← zpow_sub₀ two, ← zpow_add₀ two]
      congr 1
      omega
    rw [Nat.cast_mul, Nat.cast_add, cast_pow_two, cast_pow_two, stepped]
    have unit : (2 : ℚ) ^ (1074 : ℤ) ≠ 0 := zpow_ne_zero _ two
    generalize (2 : ℚ) ^ (1074 : ℤ) = units at *
    rw [zpow_natCast]
    field_simp

theorem value?_extended (d : Double) : d.extended.value? = d.value? := by
  unfold extended value?
  by_cases highest : d.exponentField = 2047
  · rw [if_pos highest, if_pos highest]
    split
    · rfl
    · cases d.isNegative <;> rfl
  · rw [if_neg highest, if_neg highest, ← magnitude_div_unitsPerOne]
    cases d.isNegative with
    | false =>
        rfl
    | true =>
        have opposite :
            ((-d.magnitude : Int) : ℚ) / unitsPerOne =
              -((d.magnitude : ℚ) / unitsPerOne) := by
          rw [Int.cast_neg, Int.cast_natCast, neg_div]
        exact congrArg (fun q : ℚ => some ((q : WithTop ℚ) : ExtendedRational))
          opposite

end Double

namespace Number

theorem value?_extended (n : Number) : n.extended.value? = n.value? := by
  cases n with
  | integer n =>
      have counted : ((n * unitsPerOne : Int) : ℚ) / unitsPerOne = n := by
        rw [Int.cast_mul, Int.cast_natCast]
        exact mul_div_cancel_right₀ _ unitsPerOne_pos.ne'
      rw [value?, extended, Extended.value?, counted]
  | double d =>
      exact d.value?_extended

end Number

/-! ## The order of the values -/

namespace Extended

theorem counted_lt {less more : Int} (before : less < more) :
    (((less / unitsPerOne : ℚ) : WithTop ℚ) : ExtendedRational) <
      ((more / unitsPerOne : ℚ) : WithTop ℚ) := by
  have divided : (less / unitsPerOne : ℚ) < more / unitsPerOne :=
    div_lt_div_of_pos_right (Int.cast_lt.mpr before) unitsPerOne_pos
  exact WithBot.coe_lt_coe.mpr (WithTop.coe_lt_coe.mpr divided)

/-- Two counts are in the order of their values, and nothing compares with what is not
a number. -/
theorem compare?_eq (a b : Extended) :
    a.compare? b = Option.map₂ compare a.value? b.value? := by
  have same (x : ExtendedRational) : some .eq = some (compare x x) :=
    congrArg some (compare_eq_iff_eq.mpr rfl).symm
  have ordered {x y : ExtendedRational} (before : x < y) :
      some .lt = some (compare x y) :=
    congrArg some (compare_lt_iff_lt.mpr before).symm
  have turned {x y : ExtendedRational} (before : x < y) :
      some .gt = some (compare y x) :=
    congrArg some (compare_gt_iff_gt.mpr before).symm
  have aboveBottom (x : WithTop ℚ) : (⊥ : ExtendedRational) < x :=
    WithBot.bot_lt_coe x
  have belowTop (x : ℚ) : ((x : WithTop ℚ) : ExtendedRational) < ⊤ :=
    WithBot.coe_lt_coe.mpr (WithTop.coe_lt_top x)
  cases a with
  | nan =>
      cases b <;> rfl
  | negativeInfinity =>
      cases b with
      | nan =>
          rfl
      | negativeInfinity =>
          exact same ⊥
      | finite scaled =>
          exact ordered (aboveBottom _)
      | positiveInfinity =>
          exact ordered (aboveBottom _)
  | finite scaled =>
      cases b with
      | nan =>
          rfl
      | negativeInfinity =>
          exact turned (aboveBottom _)
      | finite other =>
          have rising :
              StrictMono fun scaled : Int =>
                (((scaled / unitsPerOne : ℚ) : WithTop ℚ) :
                  ExtendedRational) :=
            fun _ _ => counted_lt
          have kept := rising.cmp_map_eq scaled other
          rw [cmp_eq_compare, cmp_eq_compare] at kept
          exact congrArg some kept.symm
      | positiveInfinity =>
          exact ordered (belowTop _)
  | positiveInfinity =>
      cases b with
      | nan =>
          rfl
      | negativeInfinity =>
          exact turned (aboveBottom _)
      | finite scaled =>
          exact turned (belowTop _)
      | positiveInfinity =>
          exact same ⊤

end Extended

theorem Number.compare?_eq (a b : Number) :
    a.compare? b = Option.map₂ compare a.value? b.value? := by
  rw [← a.value?_extended, ← b.value?_extended]
  exact Extended.compare?_eq _ _

end AccessControl
