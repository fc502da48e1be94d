import AccessControl.Duration

/-!
# Clocks

A clock counts seconds since the start of 1970, forwards and backwards, and may
stand anywhere.  Its time is a date only in the years 1 to 9999; far outside of
them it cannot even be said which year it would be.
-/

namespace AccessControl

namespace Clock

inductive Fault where
  /-- Dates do not have the year. -/
  | noDate (year : Int)
  /-- The year itself is beyond all that are counted. -/
  | noYear
  /-- The seconds are beyond all that are counted. -/
  | tooLarge
  | notANumber
deriving DecidableEq, Repr

def secondsLimit : Int := Nat.pow 2 63

/-- Years are counted from the negative of this number up to it, beginning with
1900. -/
def yearsLimit : Int := Nat.pow 2 31

/-- The year that begins at or before a second. -/
def yearOf (second : Int) : Int :=
  (Day.ofDays (Int.fdiv second 86400)).year

/-- Whether a year can be said at all. -/
def isYear (year : Int) : Bool :=
  -yearsLimit ≤ year - 1900 && year - 1900 < yearsLimit

/-- The date at an instant. -/
def dateAt (instant : Int) : Except Fault Timestamp :=
  let second := Int.fdiv instant Timestamp.second
  if second < -secondsLimit || secondsLimit ≤ second then .error .tooLarge
  else
    let year := yearOf second
    if !isYear year then .error .noYear
    else if year < 1 || 9999 < year then .error (.noDate year)
    else .ok (Timestamp.ofMicroseconds instant)

def date (clock : Number) : Except Fault Timestamp :=
  match clock.extended with
  | .nan => .error .notANumber
  | .finite _ => dateAt (Duration.instant clock)
  | _ => .error .tooLarge

namespace Fault

def message : Fault → String
  | noDate year => s!"year {year} is out of range"
  | noYear => "[Errno 75] Value too large for defined data type"
  | tooLarge => "timestamp out of range for platform time_t"
  | notANumber => "Invalid value NaN (not a number)"

end Fault

end Clock

end AccessControl
