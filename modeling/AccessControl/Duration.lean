import AccessControl.Value

/-!
# Durations

A duration is a whole number of microseconds.  A number of seconds or minutes
becomes one by rounding: its whole part counts exactly, and the product of the
rest with the microseconds in the unit is rounded to a double first and then, a
half to the even neighbour, to an integer.  Durations and the dates they lead to
have a range.
-/

namespace AccessControl

namespace Duration

/-- Why there is no duration or no date. -/
inductive Fault where
  | notNumeric
  | notANumber
  | outOfRange
deriving DecidableEq, Repr

def minute : Int := 60 * Timestamp.second

def day : Int := 86400 * Timestamp.second

def mostDays : Int := 999999999

/-- Durations of at most so many days. -/
def inRange (duration : Int) : Bool :=
  let days := Int.fdiv duration day
  days ≤ mostDays && -mostDays ≤ days

def checked (duration : Int) : Except Fault Int :=
  if inRange duration then .ok duration else .error .outOfRange

/-- A size below one, in units of `Double`, as microseconds. -/
def fractionMicroseconds (unit size : Nat) : Nat :=
  let product := Double.nearestBits (unit * size) unitsPerOne
  Double.roundHalfEven
    (Double.ofMagnitudeBits false product).magnitude unitsPerOne

/-- The microseconds in an exact number of units of time. -/
def ofScaled (unit : Nat) (scaled : Int) : Int :=
  let whole := scaled.natAbs / unitsPerOne
  let rest := scaled.natAbs % unitsPerOne
  scaled.sign * ((whole * unit + fractionMicroseconds unit rest : Nat) : Int)

def ofUnits (unit : Int) (count : Number) : Except Fault Int :=
  match count.extended with
  | .nan => .error .notANumber
  | .finite scaled => checked (ofScaled unit.toNat scaled)
  | _ => .error .outOfRange

/-- The duration of so many units of time, which may be given as any value. -/
def ofValue (unit : Int) (count : Value) : Except Fault Int :=
  match count.asNumber? with
  | some number => ofUnits unit number
  | none => .error .notNumeric

/-- The instant so many seconds after the start of 1970. -/
def instant (seconds : Number) : Int :=
  match seconds.extended with
  | .finite scaled => ofScaled Timestamp.second.toNat scaled
  | _ => 0

/-- The first instant of a year. -/
def yearStart (year : Int) : Int :=
  Day.toDays ⟨year, 1, 1⟩ * day

/-- The instants of the years 1 to 9999. -/
def isDate (instant : Int) : Bool :=
  yearStart 1 ≤ instant && instant < yearStart 10000

def dated (instant : Int) : Except Fault Int :=
  if isDate instant then .ok instant else .error .outOfRange

def after (instant duration : Int) : Except Fault Int :=
  dated (instant + duration)

end Duration

end AccessControl
