import AccessControl.Number.Double

/-!
# Numbers

A number is an integer of any size or a double.  The two kinds are compared by
their exact values, without rounding either.
-/

namespace AccessControl

inductive Number where
  | integer (value : Int)
  | double (value : Double)
deriving DecidableEq, Repr

namespace Number

def extended : Number → Extended
  | integer n => .finite (n * unitsPerOne)
  | double d => d.extended

/-- The order of the exact values; nothing compares with what is not a number. -/
def compare? (a b : Number) : Option Ordering :=
  a.extended.compare? b.extended

def same (a b : Number) : Bool :=
  a.compare? b == some .eq

def isZero (n : Number) : Bool :=
  n.extended == .finite 0

/-- An integer or a double that is neither infinite nor not a number. -/
def isFinite : Number → Bool
  | integer _ => true
  | double d => d.isFinite

def text : Number → List Char
  | integer n => (toString n).toList
  | double d => d.text

/-- The double nearest to the number, when there is one in range. -/
def nearest? : Number → Option Double
  | double d => some d
  | integer n =>
      let d :=
        Double.ofMagnitudeBits (n < 0) (Double.nearestBits n.natAbs 1)
      if d.isFinite then some d else none

/-- The double nearest to the sum of two doubles. -/
def roundedSum (a b : Double) : Double :=
  match a.extended, b.extended with
  | .finite x, .finite y => Double.ofScaled (x + y)
  | _, _ => Double.notANumber

/-- The sum: exact for integers, and the nearest double where one of the two is a
double. -/
def sum (a b : Number) : Number :=
  match a, b with
  | integer a, integer b => integer (a + b)
  | a, b =>
      match a.nearest?, b.nearest? with
      | some a, some b => double (roundedSum a b)
      | _, _ => double Double.notANumber

/-- How a number is cut to an integer. -/
inductive Truncated where
  | integer (value : Int)
  | infinite
  | notANumber

/-- The integer part, cut towards zero. -/
def truncated (n : Number) : Truncated :=
  match n with
  | integer value => .integer value
  | double d =>
      match d.extended with
      | .nan => .notANumber
      | .finite scaled => .integer (Int.tdiv scaled unitsPerOne)
      | _ => .infinite

end Number

end AccessControl
