/-!
# Binary64 numbers

A double is its 64 bits.  Every finite double is an integer multiple of
2 ^ -1074, so its exact value is kept as that integer: `Extended.finite k`
stands for k / 2 ^ 1074.  Rounding a ratio to the nearest double and finding
the shortest decimal that reads back are done in exact arithmetic.
-/

namespace AccessControl

structure Double where
  bits : UInt64
deriving DecidableEq, Repr, Inhabited

/-- The exact value of a number: a multiple of 2 ^ -1074, an infinity, or not a
number at all. -/
inductive Extended where
  | nan
  | negativeInfinity
  | finite (scaled : Int)
  | positiveInfinity
deriving DecidableEq, Repr

namespace Extended

/-- The order of the extended numbers; nothing compares with `nan`. -/
def compare? : Extended → Extended → Option Ordering
  | .nan, _ => none
  | _, .nan => none
  | .negativeInfinity, .negativeInfinity => some .eq
  | .negativeInfinity, _ => some .lt
  | _, .negativeInfinity => some .gt
  | .positiveInfinity, .positiveInfinity => some .eq
  | .positiveInfinity, _ => some .gt
  | _, .positiveInfinity => some .lt
  | .finite a, .finite b => some (Ord.compare a b)

end Extended

/-- The unit in which exact values are counted: 2 ^ 1074 of them make one. -/
def unitsPerOne : Nat := Nat.pow 2 1074

namespace Double

def isNegative (d : Double) : Bool :=
  d.bits.toNat / Nat.pow 2 63 == 1

def exponentField (d : Double) : Nat :=
  d.bits.toNat / Nat.pow 2 52 % Nat.pow 2 11

def fractionField (d : Double) : Nat :=
  d.bits.toNat % Nat.pow 2 52

/-- The size of a finite double, in units of 2 ^ -1074. -/
def magnitude (d : Double) : Nat :=
  if d.exponentField = 0 then d.fractionField
  else (Nat.pow 2 52 + d.fractionField) * Nat.pow 2 (d.exponentField - 1)

def extended (d : Double) : Extended :=
  if d.exponentField = 2047 then
    if d.fractionField ≠ 0 then .nan
    else if d.isNegative then .negativeInfinity
    else .positiveInfinity
  else if d.isNegative then .finite (-(d.magnitude : Int))
  else .finite d.magnitude

def isFinite (d : Double) : Bool :=
  d.exponentField != 2047

def isNaN (d : Double) : Bool :=
  d.exponentField == 2047 && d.fractionField != 0

/-- The double with this sign whose other 63 bits are the given ones. -/
def ofMagnitudeBits (negative : Bool) (low : Nat) : Double :=
  ⟨UInt64.ofNat (low + if negative then Nat.pow 2 63 else 0)⟩

def infinityBits : Nat := 2047 * Nat.pow 2 52

/-- A quotient rounded to the nearest integer, a half to the even one. -/
def roundHalfEven (num den : Nat) : Nat :=
  let quotient := num / den
  let rest := 2 * (num % den)
  if den < rest || (rest = den && quotient % 2 = 1) then quotient + 1
  else quotient

/-- The greatest `e` with 2 ^ e ≤ num / den, for positive `num` and `den`. -/
def binaryExponent (num den : Nat) : Int :=
  let guess : Int := (Nat.log2 num : Int) - Nat.log2 den
  if den * Nat.pow 2 guess.toNat ≤ num * Nat.pow 2 (-guess).toNat then guess
  else guess - 1

/-- The bits, without the sign, of the double nearest to num / den, ties going to
the even one. -/
def nearestBits (num den : Nat) : Nat :=
  if num = 0 then 0
  else
    let exponent := max (-1074) (binaryExponent num den - 52)
    let mantissa :=
      roundHalfEven (num * Nat.pow 2 (-exponent).toNat)
        (den * Nat.pow 2 exponent.toNat)
    min infinityBits ((exponent + 1074).toNat * Nat.pow 2 52 + mantissa)

/-- The double nearest to scaled / 2 ^ 1074. -/
def ofScaled (scaled : Int) : Double :=
  ofMagnitudeBits (scaled < 0) (nearestBits scaled.natAbs unitsPerOne)

def notANumber : Double := ⟨0x7ff8000000000000⟩

/-- The double nearest to digits · 10 ^ exponent. -/
def ofDecimal (negative : Bool) (digits : Nat) (exponent : Int) : Double :=
  let low :=
    if digits = 0 then 0
    else if 400 < exponent then infinityBits
    else if exponent < -400 - (Nat.log2 digits : Int) then 0
    else nearestBits (digits * Nat.pow 10 exponent.toNat)
      (Nat.pow 10 (-exponent).toNat)
  ofMagnitudeBits negative low

/-! ## The shortest decimal that reads back -/

/-- The greatest `p` with 10 ^ p ≤ num / den, for a positive ratio in the range
of the doubles. -/
def decimalExponent (num den : Nat) : Int :=
  let guess := binaryExponent num den * 1233 / 4096
  let fits (p : Int) : Bool :=
    den * Nat.pow 10 p.toNat ≤ num * Nat.pow 10 (-p).toNat
  if fits (guess + 2) then guess + 2
  else if fits (guess + 1) then guess + 1
  else if fits guess then guess
  else if fits (guess - 1) then guess - 1
  else guess - 2

/-- On the grid of the multiples of 10 ^ place, the neighbour of num / den that
rounds to `low`; of two such the nearer one, of two equally near the even
one. -/
def onGrid? (num den low : Nat) (place : Int) : Option Nat :=
  let scaledNum := num * Nat.pow 10 (-place).toNat
  let scaledDen := den * Nat.pow 10 place.toNat
  let below := scaledNum / scaledDen
  let hits (m : Nat) : Bool :=
    nearestBits (m * Nat.pow 10 place.toNat) (Nat.pow 10 (-place).toNat) == low
  match hits below, hits (below + 1) with
  | true, true => some (roundHalfEven scaledNum scaledDen)
  | true, false => some below
  | false, true => some (below + 1)
  | false, false => none

/-- The first grid, from one digit to seventeen, that holds a decimal which
rounds to the double: the decimal's digits and the place of the last one. -/
def shortestFrom (num den low : Nat) (top : Int) : Nat → Nat → Nat × Int
  | 0, _ => (0, 0)
  | fuel + 1, digits =>
      let place := top - digits + 1
      match onGrid? num den low place with
      | some m => (m, place)
      | none => shortestFrom num den low top fuel (digits + 1)

/-- The fewest digits that read back as the finite positive double `d`, as a
whole number and the power of ten it is multiplied by. -/
def shortest (d : Double) : Nat × Int :=
  let low := d.bits.toNat % Nat.pow 2 63
  shortestFrom d.magnitude unitsPerOne low
    (decimalExponent d.magnitude unitsPerOne) 17 1

/-- The lowest power of ten that is written positionally, the first one that is
written with an exponent, and the fewest digits of an exponent. -/
structure DecimalStyle where
  lowest : Int
  tooHigh : Int
  exponentDigits : Nat

/-- Doubles are written positionally from 10 ^ -4 up to, and without,
10 ^ 16; an exponent has a sign and at least two digits. -/
def decimalStyle : DecimalStyle := ⟨-4, 16, 2⟩

/-- A power of ten behind its mark, with a sign. -/
def exponentText (style : DecimalStyle) (power : Int) : List Char :=
  let digits := Nat.toDigits 10 power.natAbs
  'e' :: (if power < 0 then '-' else '+') ::
    List.replicate (style.exponentDigits - digits.length) '0' ++ digits

/-- The text of a positive finite double from its shortest digits. -/
def digitsText (style : DecimalStyle) (digits : List Char) (place : Int) :
    List Char :=
  let top := place + digits.length - 1
  if style.lowest ≤ top && top < style.tooHigh then
    if top < 0 then
      '0' :: '.' :: List.replicate (-top - 1).toNat '0' ++ digits
    else
      let whole := (top + 1).toNat
      let padded := digits ++ List.replicate (whole - digits.length) '0'
      let rest := padded.drop whole
      padded.take whole ++ '.' :: (if rest.isEmpty then ['0'] else rest)
  else
    let exponent := exponentText style top
    match digits with
    | [] => exponent
    | [d] => d :: exponent
    | d :: rest => d :: '.' :: rest ++ exponent

/-- The text of a double: the fewest digits that read back. -/
def text (d : Double) : List Char :=
  match d.extended with
  | .nan => ['n', 'a', 'n']
  | .positiveInfinity => ['i', 'n', 'f']
  | .negativeInfinity => ['-', 'i', 'n', 'f']
  | .finite _ =>
      let sign := if d.isNegative then ['-'] else []
      if d.magnitude = 0 then sign ++ ['0', '.', '0']
      else
        let (m, place) := d.shortest
        let all := Nat.toDigits 10 m
        let trailing := (all.reverse.takeWhile (· = '0')).length
        sign ++ digitsText decimalStyle (all.take (all.length - trailing))
          (place + trailing)

end Double

end AccessControl
