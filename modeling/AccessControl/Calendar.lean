import AccessControl.Text.Digit

/-!
# Points in time

A time stamp is a reading of a clock in microseconds since the start of 1970,
with the clock's distance from universal time when that is known.  Dates are
those of the Gregorian calendar, extended to all years.
-/

namespace AccessControl

structure Day where
  year : Int
  month : Nat
  day : Nat
deriving DecidableEq, Repr

namespace Day

/-- The day that is `days` days after the first of January 1970. -/
def ofDays (days : Int) : Day :=
  let shifted := days + 719468
  let era := Int.fdiv shifted 146097
  let dayOfEra := (Int.fmod shifted 146097).toNat
  let yearOfEra :=
    (dayOfEra - dayOfEra / 1460 + dayOfEra / 36524 - dayOfEra / 146096) / 365
  let dayOfYear := dayOfEra - (365 * yearOfEra + yearOfEra / 4 - yearOfEra / 100)
  let monthFromMarch := (5 * dayOfYear + 2) / 153
  let day := dayOfYear - (153 * monthFromMarch + 2) / 5 + 1
  let month :=
    if monthFromMarch < 10 then monthFromMarch + 3 else monthFromMarch - 9
  let year := (yearOfEra : Int) + era * 400
  ⟨if month ≤ 2 then year + 1 else year, month, day⟩

def toDays (d : Day) : Int :=
  let year := if d.month ≤ 2 then d.year - 1 else d.year
  let era := Int.fdiv year 400
  let yearOfEra := (Int.fmod year 400).toNat
  let monthFromMarch := if 2 < d.month then d.month - 3 else d.month + 9
  let dayOfYear := (153 * monthFromMarch + 2) / 5 + d.day - 1
  let dayOfEra := yearOfEra * 365 + yearOfEra / 4 - yearOfEra / 100 + dayOfYear
  era * 146097 + (dayOfEra : Int) - 719468

end Day

/-- A clock reading in microseconds since the start of 1970, and how many minutes
that clock is ahead of universal time, if this is known. -/
structure Timestamp where
  reading : Int
  offset : Option Int
deriving DecidableEq, Repr

namespace Timestamp

def second : Int := 1000000

/-- The point in time that many microseconds after the start of 1970, in universal
time. -/
def ofMicroseconds (instant : Int) : Timestamp :=
  ⟨instant, some 0⟩

/-- Microseconds since the start of 1970 in universal time; a clock whose offset is
not known is taken to show universal time. -/
def instant (t : Timestamp) : Int :=
  t.reading - t.offset.getD 0 * 60 * second

/-- Whole seconds since the start of 1970 in universal time. -/
def seconds (t : Timestamp) : Int :=
  Int.fdiv t.instant second

/-- A number in decimal digits, filled up with zeros to `width` digits. -/
def padded (width value : Nat) : List Char :=
  let digits := Nat.toDigits 10 value
  List.replicate (width - digits.length) '0' ++ digits

def offsetText (minutes : Int) : List Char :=
  (if minutes < 0 then '-' else '+') :: padded 2 (minutes.natAbs / 60) ++
    ':' :: padded 2 (minutes.natAbs % 60)

/-- Date, `T`, time to the second, six digits of the second when it is not a whole
one, and the offset when it is known. -/
def text (t : Timestamp) : List Char :=
  let wholeSeconds := Int.fdiv t.reading second
  let micros := (Int.fmod t.reading second).toNat
  let date := Day.ofDays (Int.fdiv wholeSeconds 86400)
  let time := (Int.fmod wholeSeconds 86400).toNat
  padded 4 date.year.toNat ++ '-' :: padded 2 date.month ++ '-' ::
    padded 2 date.day ++ 'T' :: padded 2 (time / 3600) ++ ':' ::
    padded 2 (time / 60 % 60) ++ ':' :: padded 2 (time % 60) ++
    (if micros = 0 then [] else '.' :: padded 6 micros) ++
    (match t.offset with
     | some minutes => offsetText minutes
     | none => [])

/-- A clock's distance from universal time in messages: none as the zone, another
one as a duration of whole days and seconds. -/
def zoneShown (minutes : Int) : String :=
  if minutes = 0 then "datetime.timezone.utc"
  else
    let days := Int.fdiv minutes 1440
    let seconds := Int.fmod minutes 1440 * 60
    let parts :=
      (if days = 0 then [] else [s!"days={days}"]) ++
        (if seconds = 0 then [] else [s!"seconds={seconds}"])
    "datetime.timezone(datetime.timedelta(" ++ ", ".intercalate parts ++ "))"

/-- The parts of the reading, without zeros for the seconds at the end: the second
is left out when it and its fraction are zero. -/
def parts (t : Timestamp) : List Nat :=
  let wholeSeconds := Int.fdiv t.reading second
  let micros := (Int.fmod t.reading second).toNat
  let date := Day.ofDays (Int.fdiv wholeSeconds 86400)
  let time := (Int.fmod wholeSeconds 86400).toNat
  [date.year.toNat, date.month, date.day, time / 3600, time / 60 % 60] ++
    (if micros = 0 then if time % 60 = 0 then [] else [time % 60]
     else [time % 60, micros])

def shown (t : Timestamp) : List Char :=
  let zone :=
    match t.offset with
    | some minutes => ["tzinfo=" ++ zoneShown minutes]
    | none => []
  ("datetime.datetime(" ++
    ", ".intercalate (t.parts.map toString ++ zone) ++ ")").toList

def digits? (width : Nat) (text : List Char) : Option (Nat × List Char) :=
  let taken := text.take width
  if taken.length = width && taken.all Text.isDigit then
    some (Text.ofDigits taken, text.drop width)
  else none

def mark? (c : Char) : List Char → Option (List Char)
  | d :: rest => if c = d then some rest else none
  | [] => none

/-- Reads the offset at the end of a time stamp. -/
def offset? : List Char → Option (Option Int)
  | [] => some none
  | sign :: rest => do
      let (hours, rest) ← digits? 2 rest
      let rest ← mark? ':' rest
      let (minutes, rest) ← digits? 2 rest
      let size : Int := hours * 60 + minutes
      match sign, rest with
      | '+', [] => some (some size)
      | '-', [] => some (some (-size))
      | _, _ => none

/-- Reads the text that `text` writes. -/
def ofText? (source : List Char) : Option Timestamp := do
  let (year, rest) ← digits? 4 source
  let (month, rest) ← digits? 2 (← mark? '-' rest)
  let (day, rest) ← digits? 2 (← mark? '-' rest)
  let (hour, rest) ← digits? 2 (← mark? 'T' rest)
  let (minute, rest) ← digits? 2 (← mark? ':' rest)
  let (wholeSecond, rest) ← digits? 2 (← mark? ':' rest)
  let (micros, rest) ←
    match rest with
    | '.' :: rest => digits? 6 rest
    | rest => some (0, rest)
  let offset ← offset? rest
  let days := Day.toDays ⟨year, month, day⟩
  let time : Int := days * 86400 + hour * 3600 + minute * 60 + wholeSecond
  some ⟨time * second + micros, offset⟩

end Timestamp

end AccessControl
