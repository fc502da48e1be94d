import AccessControl.Number

/-!
# Fixed and scientific notation

A size, counted in the units of `Double`, is written with a wanted number of
decimals, with one digit before the point and a power of ten, or in the shorter
of these ways for a wanted number of digits.  The exact size is rounded once, a
half going to the even neighbour.
-/

namespace AccessControl

/-- The digits before and after the point, and the power of ten that they are
multiplied by, where one is written. -/
structure Spelling where
  whole : List Char
  decimals : List Char
  power : Option Int

namespace Spelling

/-- The spelling as text; the point is left out when nothing follows it, unless it
is asked for. -/
def text (spelling : Spelling) (pointed : Bool) : List Char :=
  let power :=
    match spelling.power with
    | some power => Double.exponentText Double.decimalStyle power
    | none => []
  if spelling.decimals.isEmpty && !pointed then spelling.whole ++ power
  else spelling.whole ++ '.' :: spelling.decimals ++ power

/-- The spelling without the zeros at the end of its decimals. -/
def trimmed (spelling : Spelling) : Spelling :=
  { spelling with
    decimals :=
      (spelling.decimals.reverse.dropWhile (· = '0')).reverse }

/-- A whole number of the last of so many decimals. -/
def ofScaled (places scaled : Nat) : Spelling :=
  let digits := Nat.toDigits 10 scaled
  let filled :=
    List.replicate (places + 1 - digits.length) '0' ++ digits
  ⟨filled.take (filled.length - places), filled.drop (filled.length - places),
    none⟩

/-- So many decimals. -/
def fixed (places size : Nat) : Spelling :=
  ofScaled places (Double.roundHalfEven (size * Nat.pow 10 places) unitsPerOne)

/-- One digit before the point, so many after it, and the power of ten. -/
def scientific (places size : Nat) : Spelling :=
  if size = 0 then { ofScaled places 0 with power := some 0 }
  else
    let top := Double.decimalExponent size unitsPerOne
    let last := top - places
    let scaled :=
      Double.roundHalfEven (size * Nat.pow 10 (-last).toNat)
        (unitsPerOne * Nat.pow 10 last.toNat)
    if scaled < Nat.pow 10 (places + 1) then
      { ofScaled places scaled with power := some top }
    else { ofScaled places (Nat.pow 10 places) with power := some (top + 1) }

/-- So many digits: with a power of ten below 10 ^ -4 and where not all digits
before the point are among them, else without. -/
def general (digits size : Nat) : Spelling :=
  let spelled := scientific (digits - 1) size
  match spelled.power with
  | some power =>
      if Double.decimalStyle.lowest ≤ power && power < digits then
        fixed (digits - 1 - power).toNat size
      else spelled
  | none => spelled

end Spelling

end AccessControl
